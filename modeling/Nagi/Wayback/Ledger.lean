import Nagi.Lib.Calls
import Nagi.Wayback.Model

/-! The hash-chained activity ledger: its two checks and the operations that append to it.

A `LedgerStore` is the backend. The digest of a record covers its header and its
payload without the payload's own copy of the header. -/

namespace Nagi.Wayback

open Lib Function

inductive StoreError where
  | sequenceMismatch
  | checkpointMismatch
  | duplicateSnapshot
  | missingParentSnapshot
  | invalidSnapshot (reason : String)
  deriving DecidableEq

inductive LedgerError where
  | validation (error : ValidationError)
  | unsupportedVersion (kind : String) (version : Nat)
  | invalidTransition (reason : String)
  | duplicateId (kind : String)
  | notFound (kind : String)
  | integrityMismatch (sequence : Nat)
  | checkpointMismatch
  | store (error : StoreError)
  | serialization (error : String)
  deriving DecidableEq

structure RecordHashInput where
  schemaVersion : Nat
  sequence : Nat
  previousHash : Option String
  payload : LedgerPayload

/-- The serializer and the hash function that digests are made with. -/
structure Hashing where
  toVec : RecordHashInput → Except String (List UInt8)
  sha256 : List UInt8 → Vector UInt8 32

def hashPayloadProjection : LedgerPayload → LedgerPayload
  | .activityEntry entry => .activityEntry { entry with integrity := {} }
  | payload => payload

def hashInput (sequence : Nat) (previousHash : Option String) (payload : LedgerPayload) : RecordHashInput :=
  ⟨schemaVersion, sequence, previousHash, hashPayloadProjection payload⟩

def hexDigit (value : Nat) : Char :=
  if value < 10 then Char.ofNat ('0'.toNat + value) else Char.ofNat ('a'.toNat + (value - 10))

def hexText (bytes : List UInt8) : String :=
  String.ofList (bytes.flatMap fun byte => [hexDigit (byte.toNat / 16), hexDigit (byte.toNat % 16)])

def calculateRecordHash (hashing : Hashing) (sequence : Nat) (previousHash : Option String)
    (payload : LedgerPayload) : Except LedgerError String :=
  match hashing.toVec (hashInput sequence previousHash payload) with
  | .error error => .error (.serialization error)
  | .ok bytes => .ok (hexText (hashing.sha256 bytes).toList)

def checked (validation : Validation) : Except LedgerError Unit := validation.mapError .validation

/-- The header of a record in the form that an entry keeps it. -/
def LedgerRecord.entryIntegrity (record : LedgerRecord) : EntryIntegrity :=
  ⟨record.sequence, record.previousHash, record.recordHash⟩

def verifyEntry (expectedSequence : Nat) (record : LedgerRecord) : Except LedgerError Unit :=
  match record.payload with
  | .activityEntry entry =>
    if entry.integrity ≠ record.entryIntegrity then .error (.integrityMismatch expectedSequence) else .ok ()
  | _ => .ok ()

def verifyRecord (hashing : Hashing) (expectedSequence : Nat) (expectedPrevious : Option String)
    (record : LedgerRecord) : Except LedgerError Unit := do
  if record.schemaVersion ≠ schemaVersion then
    throw (.unsupportedVersion "ledger record" record.schemaVersion)
  if record.sequence ≠ expectedSequence ∨ record.previousHash ≠ expectedPrevious then
    throw (.integrityMismatch expectedSequence)
  if ¬isSha256Hex record.recordHash then
    throw (.integrityMismatch expectedSequence)
  verifyEntry expectedSequence record
  let calculated ← calculateRecordHash hashing record.sequence record.previousHash record.payload
  if calculated ≠ record.recordHash then
    throw (.integrityMismatch expectedSequence)

/-- The hash of the last record, if all records fit to each other. -/
def verifyRecords (hashing : Hashing) : Nat → Option String → List LedgerRecord → Except LedgerError (Option String)
  | _, expectedPrevious, [] => .ok expectedPrevious
  | index, expectedPrevious, record :: rest => do
    verifyRecord hashing (index + 1) expectedPrevious record
    verifyRecords hashing (index + 1) (some record.recordHash) rest

def verifyIntegrity (hashing : Hashing) (snapshot : StoredLedger) : Except LedgerError Unit := do
  let expectedPrevious ← verifyRecords hashing 0 none snapshot.records
  if snapshot.checkpoint.lastSequence ≠ snapshot.records.length ∨
      snapshot.checkpoint.headHash ≠ expectedPrevious then
    throw .checkpointMismatch

structure TransactionProjection where
  value : Transaction
  finishedSequence : Option Nat

structure Projection where
  transactions : TransactionId → Option TransactionProjection := fun _ => none
  entries : EntryId → Option ActivityEntry := fun _ => none
  restorePoints : RestorePointId → Option RestorePointDraft := fun _ => none

variable (state : Projection)

def Projection.setTransaction (id : TransactionId) (projection : TransactionProjection) : Projection :=
  { state with transactions := update state.transactions id (some projection) }

def recordHashAt (records : List LedgerRecord) (sequence : Nat) : Option String :=
  if sequence = 0 then none else (records[sequence - 1]?).map LedgerRecord.recordHash

def projectStarted (draft : TransactionDraft) : Except LedgerError Projection := do
  checked draft.validate
  if (state.transactions draft.id).isSome then
    throw (.duplicateId "transaction")
  let transaction : Transaction :=
    { schemaVersion := schemaVersion
      id := draft.id
      startedAtMs := draft.startedAtMs
      actor := draft.actor
      summary := draft.summary
      atomicity := draft.atomicity
      entryIds := []
      state := .isOpen }
  return state.setTransaction draft.id ⟨transaction, none⟩

/-- The transaction of an entry takes the entry in. -/
def joinTransaction (draft : ActivityEntryDraft) (id : TransactionId) : Except LedgerError Projection := do
  let some projection := state.transactions id
    | throw (.invalidTransition "entry transaction must be started before its actions")
  if projection.value.state ≠ .isOpen then
    throw (.invalidTransition "entries can only be appended to an open transaction")
  if draft.timestampMs < projection.value.startedAtMs then
    throw (.invalidTransition "entry time precedes transaction start")
  let joined := { projection.value with entryIds := projection.value.entryIds ++ [draft.id] }
  return state.setTransaction id { projection with value := joined }

/-- The checks of an entry, none of which reads its integrity fields. -/
def admitEntry (draft : ActivityEntryDraft) : Except LedgerError Projection := do
  checked draft.validate
  if (state.entries draft.id).isSome then
    throw (.duplicateId "entry")
  let links := [draft.provenance.parentEntryId, draft.provenance.causeEntryId].reduceOption
  if links.any fun parent => (state.entries parent).isNone then
    throw (.invalidTransition "parent/cause must refer to an earlier activity entry")
  if draft.restorePointRefs.any fun point => (state.restorePoints point).isNone then
    throw (.invalidTransition "entry references a restore point that has not been recorded")
  match draft.transactionId with
  | some id => joinTransaction state draft id
  | none => return state

def projectEntry (entry : ActivityEntry) : Except LedgerError Projection := do
  let joined ← admitEntry state entry.toActivityEntryDraft
  return { joined with entries := update joined.entries entry.id (some entry) }

def finishedState (value : Transaction) (finished : TransactionFinished) : Except LedgerError TransactionState :=
  match finished.outcome with
  | .committed => do
    if finished.failure.isSome then
      throw (.invalidTransition "committed transaction cannot contain a failure reason")
    return .committed finished.finishedAtMs
  | .aborted => do
    if value.entryIds ≠ [] then
      throw (.invalidTransition "transaction with recorded actions must be partial, not aborted")
    checked (validateOption HumanSummary.validate finished.failure)
    return .aborted finished.finishedAtMs finished.failure
  | .partiallyApplied => do
    let some failure := finished.failure
      | throw (.invalidTransition "partial transaction requires an explicit failure summary")
    if value.entryIds = [] then
      throw (.invalidTransition "partial transaction must identify at least one recorded action")
    checked failure.validate
    return .partiallyApplied finished.finishedAtMs failure

def projectFinished (sequence : Nat) (finished : TransactionFinished) : Except LedgerError Projection := do
  if finished.schemaVersion ≠ schemaVersion then
    throw (.unsupportedVersion "transaction" finished.schemaVersion)
  checked finished.id.validate
  let some projection := state.transactions finished.id
    | throw (.invalidTransition "transaction must be started before it finishes")
  if projection.value.state ≠ .isOpen then
    throw (.invalidTransition "transaction can only finish once")
  if finished.finishedAtMs < projection.value.startedAtMs then
    throw (.invalidTransition "transaction finish time precedes its start")
  let ended ← finishedState projection.value finished
  return state.setTransaction finished.id ⟨{ projection.value with state := ended }, some sequence⟩

def projectRestorePoint (hashAt : Nat → Option String) (state : Projection) (sequence : Nat)
    (point : RestorePointDraft) : Except LedgerError Projection := do
  checked point.validate
  if (state.restorePoints point.id).isSome then
    throw (.duplicateId "restore point")
  if point.ledgerBoundary.sequence ≥ sequence then
    throw (.invalidTransition "restore point boundary must precede its creation record")
  if point.ledgerBoundary.recordHash ≠ hashAt point.ledgerBoundary.sequence then
    throw (.invalidTransition "restore point boundary hash does not match ledger history")
  if let some id := point.sourceTransaction then
    if (state.transactions id).isNone then
      throw (.invalidTransition "restore point transaction reference is unknown")
  return { state with restorePoints := update state.restorePoints point.id (some point) }

def projectRecord (hashAt : Nat → Option String) (state : Projection) (record : LedgerRecord) :
    Except LedgerError Projection :=
  match record.payload with
  | .transactionStarted draft => projectStarted state draft
  | .activityEntry entry => projectEntry state entry
  | .transactionFinished finished => projectFinished state record.sequence finished
  | .restorePointCreated point => projectRestorePoint hashAt state record.sequence point

def projectTransactions (records : List LedgerRecord) : Except LedgerError Projection :=
  records.foldlM (projectRecord (recordHashAt records)) {}

/-- A backend that loads a ledger and appends a record with its checkpoint. -/
class LedgerStore (S : Type) where
  load : S → Except StoreError StoredLedger
  append : LedgerRecord → LedgerCheckpoint → EStateM StoreError S Unit

/-- What is loaded is what was appended, and a failed append stores nothing. -/
class LawfulLedgerStore (S : Type) [LedgerStore S] : Prop where
  load_append : ∀ {store after : S} {stored : StoredLedger} {record : LedgerRecord} {checkpoint : LedgerCheckpoint},
    LedgerStore.load store = .ok stored → LedgerStore.append record checkpoint store = .ok () after →
      LedgerStore.load after = .ok ⟨stored.records ++ [record], checkpoint⟩
  load_refused : ∀ {store after : S} {error : StoreError} {record : LedgerRecord} {checkpoint : LedgerCheckpoint},
    LedgerStore.append record checkpoint store = .error error after → LedgerStore.load after = LedgerStore.load store

structure InMemoryLedgerStore where
  stored : StoredLedger := {}

namespace InMemoryLedgerStore

def append (record : LedgerRecord) (checkpoint : LedgerCheckpoint) : EStateM StoreError InMemoryLedgerStore Unit :=
  fun store =>
    if record.sequence ≠ store.stored.records.length + 1 ∨ record.previousHash ≠ store.stored.checkpoint.headHash then
      .error .sequenceMismatch store
    else if checkpoint.lastSequence ≠ record.sequence ∨ checkpoint.headHash ≠ some record.recordHash then
      .error .checkpointMismatch store
    else
      .ok () ⟨⟨store.stored.records ++ [record], checkpoint⟩⟩

instance : LedgerStore InMemoryLedgerStore where
  load store := .ok store.stored
  append := append

instance : LawfulLedgerStore InMemoryLedgerStore where
  load_append := by
    intro store after stored record checkpoint loaded appended
    cases loaded
    simp only [LedgerStore.append, append] at appended
    split_ifs at appended
    cases appended
    rfl
  load_refused := by
    intro store after error record checkpoint refused
    simp only [LedgerStore.append, append] at refused
    split_ifs at refused <;> (cases refused; rfl)

end InMemoryLedgerStore

section
variable {S : Type} [LedgerStore S] (hashing : Hashing)

abbrev LedgerCall (S : Type) := EStateM LedgerError S

def answer {α : Type} (result : S → Except LedgerError α) : LedgerCall S α := fun store =>
  match result store with
  | .ok value => .ok value store
  | .error error => .error error store

def verifiedSnapshot (store : S) : Except LedgerError StoredLedger := do
  let snapshot ← (LedgerStore.load store).mapError .store
  verifyIntegrity hashing snapshot
  let _ ← projectTransactions snapshot.records
  return snapshot

/-- A ledger opens if its store holds a valid one. -/
def openLedger (store : S) : Except LedgerError S := do
  let snapshot ← (LedgerStore.load store).mapError .store
  verifyIntegrity hashing snapshot
  let _ ← projectTransactions snapshot.records
  return store

def LedgerPayload.withIntegrity (integrity : EntryIntegrity) : LedgerPayload → LedgerPayload
  | .activityEntry entry => .activityEntry { entry with integrity := integrity }
  | payload => payload

def appendRecord (record : LedgerRecord) (checkpoint : LedgerCheckpoint) : LedgerCall S Unit := fun store =>
  match LedgerStore.append record checkpoint store with
  | .ok () after => .ok () after
  | .error error after => .error (.store error) after

def appendPayload (payload : LedgerPayload) : LedgerCall S LedgerRecord := do
  let snapshot ← answer (verifiedSnapshot hashing)
  let sequence := snapshot.records.length + 1
  let previousHash := snapshot.checkpoint.headHash
  -- the candidate is projected before its hash is known
  let payload := payload.withIntegrity ⟨sequence, previousHash, ""⟩
  let candidate : LedgerRecord := ⟨schemaVersion, sequence, previousHash, payload, ""⟩
  let _ ← answer fun _ => projectTransactions (snapshot.records ++ [candidate])
  let hash ← answer fun _ => calculateRecordHash hashing sequence previousHash payload
  let payload := payload.withIntegrity ⟨sequence, previousHash, hash⟩
  let record : LedgerRecord := ⟨schemaVersion, sequence, previousHash, payload, hash⟩
  appendRecord record ⟨sequence, some hash⟩
  return record

def appendEntry (draft : ActivityEntryDraft) : LedgerCall S ActivityEntry := do
  answer fun _ => checked draft.validate
  let sequence ← answer fun store => return (← verifiedSnapshot hashing store).records.length + 1
  let previousHash ← answer fun store => return (← verifiedSnapshot hashing store).checkpoint.headHash
  let entry : ActivityEntry := { draft with integrity := ⟨sequence, previousHash, ""⟩ }
  let record ← appendPayload hashing (.activityEntry entry)
  match record.payload with
  | .activityEntry entry => return entry
  -- not reached, the payload of a record is of the kind that was appended
  | _ => return entry

def startTransaction (draft : TransactionDraft) : LedgerCall S TransactionId := do
  answer fun _ => checked draft.validate
  let _ ← appendPayload hashing (.transactionStarted draft)
  return draft.id

def transaction (id : TransactionId) (store : S) : Except LedgerError (Option Transaction) := do
  let snapshot ← verifiedSnapshot hashing store
  let projection ← projectTransactions snapshot.records
  return (projection.transactions id).map TransactionProjection.value

def finishTransaction (id : TransactionId) (atMs : Int) (outcome : TransactionEndKind)
    (failure : Option HumanSummary) : LedgerCall S Unit := do
  let some found ← answer (transaction hashing id) | throw (.notFound "transaction")
  if found.state ≠ .isOpen then
    throw (.invalidTransition "transaction can only finish once")
  let _ ← appendPayload hashing (.transactionFinished ⟨schemaVersion, id, atMs, outcome, failure⟩)

def commitTransaction (id : TransactionId) (atMs : Int) : LedgerCall S Unit :=
  finishTransaction hashing id atMs .committed none

def abortTransaction (id : TransactionId) (atMs : Int) (reason : Option HumanSummary) : LedgerCall S Unit :=
  finishTransaction hashing id atMs .aborted reason

def markPartialFailure (id : TransactionId) (atMs : Int) (failure : HumanSummary) : LedgerCall S Unit :=
  finishTransaction hashing id atMs .partiallyApplied (some failure)

def recordRestorePoint (draft : RestorePointDraft) : LedgerCall S RestorePointId := do
  answer fun _ => checked draft.validate
  let _ ← appendPayload hashing (.restorePointCreated draft)
  return draft.id

def transactionEntries (id : TransactionId) (store : S) : Except LedgerError (List ActivityEntry) := do
  let snapshot ← verifiedSnapshot hashing store
  let projection ← projectTransactions snapshot.records
  let some found := projection.transactions id | return []
  found.value.entryIds.mapM fun entryId =>
    match projection.entries entryId with
    | some entry => .ok entry
    | none => .error (.integrityMismatch (found.value.entryIds.idxOf entryId))

inductive LedgerOperation where
  | appendEntry (draft : ActivityEntryDraft)
  | startTransaction (draft : TransactionDraft)
  | commitTransaction (id : TransactionId) (atMs : Int)
  | abortTransaction (id : TransactionId) (atMs : Int) (reason : Option HumanSummary)
  | markPartialFailure (id : TransactionId) (atMs : Int) (failure : HumanSummary)
  | recordRestorePoint (draft : RestorePointDraft)

inductive LedgerReply where
  | entry (entry : ActivityEntry)
  | transaction (id : TransactionId)
  | restorePoint (id : RestorePointId)
  | done

def LedgerOperation.call : LedgerOperation → LedgerCall S LedgerReply
  | .appendEntry draft => return .entry (← Wayback.appendEntry hashing draft)
  | .startTransaction draft => return .transaction (← Wayback.startTransaction hashing draft)
  | .commitTransaction id atMs => do Wayback.commitTransaction hashing id atMs; return .done
  | .abortTransaction id atMs reason => do Wayback.abortTransaction hashing id atMs reason; return .done
  | .markPartialFailure id atMs failure => do Wayback.markPartialFailure hashing id atMs failure; return .done
  | .recordRestorePoint draft => return .restorePoint (← Wayback.recordRestorePoint hashing draft)

def perform (store : S) (operation : LedgerOperation) : Except LedgerError LedgerReply × S :=
  settle (operation.call hashing) store

end
end Nagi.Wayback
