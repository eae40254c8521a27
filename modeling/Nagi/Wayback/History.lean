import Nagi.Lib.HashChain
import Nagi.Lib.Runs
import Nagi.Wayback.Ledger

/-! The ledger over whole histories.

Each append keeps both checks of the ledger, and the checkpoint of a ledger that
passes its check determines every record. -/

namespace Nagi.Wayback

open Lib Checks LedgerStore

theorem hexDigit_lower : ∀ value : Fin 16, (hexDigit value).utf8Size = 1 ∧
    ((hexDigit value).isDigit || 'a' ≤ hexDigit value ∧ hexDigit value ≤ 'f') = true := by
  decide

theorem hexDigit_injective : ∀ first second : Fin 16, hexDigit first = hexDigit second → first = second := by
  decide

theorem nibbles (byte : UInt8) : byte.toNat / 16 < 16 ∧ byte.toNat % 16 < 16 := by
  have small := byte.toNat_lt
  omega

theorem utf8ByteSize_hexText (bytes : List UInt8) : (hexText bytes).utf8ByteSize = 2 * bytes.length := by
  induction bytes with
  | nil => rfl
  | cons byte rest ih =>
    have high := (hexDigit_lower ⟨_, (nibbles byte).1⟩).1
    have low := (hexDigit_lower ⟨_, (nibbles byte).2⟩).1
    have split : hexText (byte :: rest) = String.singleton (hexDigit (byte.toNat / 16)) ++
        (String.singleton (hexDigit (byte.toNat % 16)) ++ hexText rest) := by
      simp [hexText, String.ofList_cons]
    rw [split, String.utf8ByteSize_append, String.utf8ByteSize_append, String.utf8ByteSize_singleton,
      String.utf8ByteSize_singleton, high, low, ih, List.length_cons]
    omega

theorem isSha256Hex_hexText (digest : Vector UInt8 32) : isSha256Hex (hexText digest.toList) = true := by
  have size : (hexText digest.toList).utf8ByteSize = 64 := by
    rw [utf8ByteSize_hexText, Vector.length_toList]
  have lower (byte : UInt8) : ((hexDigit (byte.toNat / 16)).isDigit ||
      'a' ≤ hexDigit (byte.toNat / 16) ∧ hexDigit (byte.toNat / 16) ≤ 'f') = true ∧
      ((hexDigit (byte.toNat % 16)).isDigit ||
        'a' ≤ hexDigit (byte.toNat % 16) ∧ hexDigit (byte.toNat % 16) ≤ 'f') = true :=
    ⟨(hexDigit_lower ⟨_, (nibbles byte).1⟩).2, (hexDigit_lower ⟨_, (nibbles byte).2⟩).2⟩
  rw [isSha256Hex, decide_eq_true_eq]
  refine ⟨size, ?_⟩
  rw [hexText, String.toList_ofList, List.all_flatMap, List.all_eq_true]
  intro byte _
  rw [List.all_cons, List.all_cons, List.all_nil, Bool.and_true]
  exact Bool.and_eq_true_iff.mpr (lower byte)

theorem hexText_injective {first second : List UInt8} (same : hexText first = hexText second) : first = second := by
  replace same := String.ofList_injective same
  induction first generalizing second with
  | nil =>
    cases second with
    | nil => rfl
    | cons _ _ => simp at same
  | cons byte rest ih =>
    cases second with
    | nil => simp at same
    | cons other others =>
      simp only [List.flatMap_cons, List.cons_append, List.nil_append, List.cons.injEq] at same
      obtain ⟨high, low, later⟩ := same
      have highs := congrArg Fin.val (hexDigit_injective ⟨_, (nibbles byte).1⟩ ⟨_, (nibbles other).1⟩ high)
      have lows := congrArg Fin.val (hexDigit_injective ⟨_, (nibbles byte).2⟩ ⟨_, (nibbles other).2⟩ low)
      have bytes : byte = other := UInt8.toNat_inj.mp (by simp only at highs lows; omega)
      rw [bytes, ih later]

variable {expectedSequence : Nat} {record : LedgerRecord}

theorem verifyEntry_ok_iff : verifyEntry expectedSequence record = .ok () ↔
      record.payload.withIntegrity record.entryIntegrity = record.payload := by
  unfold verifyEntry
  cases record.payload with
  | activityEntry entry =>
    simp only [LedgerPayload.withIntegrity, LedgerPayload.activityEntry.injEq]
    refine unless_ok_iff.trans ((and_iff_left rfl).trans (not_not.trans ⟨?_, ?_⟩))
    · intro same
      rw [← same]
    · intro same
      rw [← same]
  | transactionStarted _ | transactionFinished _ | restorePointCreated _ => exact iff_of_true rfl rfl

structure Sealed (hashing : Hashing) (expectedSequence : Nat) (expectedPrevious : Option String)
    (record : LedgerRecord) : Prop where
  version : record.schemaVersion = schemaVersion
  sequence : record.sequence = expectedSequence
  previous : record.previousHash = expectedPrevious
  digest : isSha256Hex record.recordHash = true
  entry : record.payload.withIntegrity record.entryIntegrity = record.payload
  hash : calculateRecordHash hashing record.sequence record.previousHash record.payload = .ok record.recordHash

variable {hashing : Hashing} {expectedPrevious : Option String}

theorem verifyRecord_ok_iff : verifyRecord hashing expectedSequence expectedPrevious record = .ok () ↔
      Sealed hashing expectedSequence expectedPrevious record := by
  unfold verifyRecord
  simp only [throw, throwThe, MonadExceptOf.throw, unless_bind_ok_iff, bind_ok_iff, unless_ok_iff, not_or, not_not]
  constructor
  · rintro ⟨version, ⟨sequence, previous⟩, digest, _, entry, _, hash, same, _⟩
    exact ⟨version, sequence, previous, digest, verifyEntry_ok_iff.mp entry, same ▸ hash⟩
  · rintro ⟨version, sequence, previous, digest, entry, hash⟩
    exact ⟨version, ⟨sequence, previous⟩, digest, (), verifyEntry_ok_iff.mpr entry, _, hash, rfl, rfl⟩

/-- The records are sealed one after the other, from the index on. -/
abbrev SealedChain (hashing : Hashing) : Nat → Option String → List LedgerRecord → Option String → Prop :=
  Chained (fun index previous record => Sealed hashing (index + 1) previous record) LedgerRecord.recordHash

variable {previous last : Option String} {records : List LedgerRecord}

theorem verifyRecords_ok_iff {index : Nat} :
    verifyRecords hashing index previous records = .ok last ↔ SealedChain hashing index previous records last := by
  induction records generalizing index previous with
  | nil => simp [verifyRecords, Chained.nil_iff, eq_comm]
  | cons record rest ih => simp [verifyRecords, unit_bind_ok_iff, verifyRecord_ok_iff, ih, Chained.cons_iff]

theorem verifyIntegrity_ok_iff {snapshot : StoredLedger} : verifyIntegrity hashing snapshot = .ok () ↔
      SealedChain hashing 0 none snapshot.records snapshot.checkpoint.headHash ∧
        snapshot.checkpoint.lastSequence = snapshot.records.length := by
  unfold verifyIntegrity
  simp only [throw, throwThe, MonadExceptOf.throw, bind_ok_iff, verifyRecords_ok_iff, unless_ok_iff, not_or, not_not]
  constructor
  · rintro ⟨_, chained, ⟨length, rfl⟩, _⟩
    exact ⟨chained, length⟩
  · rintro ⟨chained, length⟩
    exact ⟨_, chained, ⟨length, rfl⟩, rfl⟩

theorem withIntegrity_hashPayloadProjection (integrity : EntryIntegrity) (payload : LedgerPayload) :
    (hashPayloadProjection payload).withIntegrity integrity = payload.withIntegrity integrity := by
  cases payload <;> rfl

theorem hashPayloadProjection_withIntegrity (integrity : EntryIntegrity) (payload : LedgerPayload) :
    hashPayloadProjection (payload.withIntegrity integrity) = hashPayloadProjection payload := by
  cases payload <;> rfl

def LedgerRecord.hashed (hashing : Hashing) (record : LedgerRecord) : Except String (List UInt8) :=
  hashing.toVec (hashInput record.sequence record.previousHash record.payload)

/-- The records of both ledgers are hashed without a collision, and serialized without one. -/
structure CollisionFree (hashing : Hashing) (first second : List LedgerRecord) : Prop where
  sha256 : ∀ one ∈ first, ∀ two ∈ second, ∀ bytes bytes', one.hashed hashing = .ok bytes →
    two.hashed hashing = .ok bytes' → hashing.sha256 bytes = hashing.sha256 bytes' → bytes = bytes'
  toVec : ∀ one ∈ first, ∀ two ∈ second, ∀ bytes, one.hashed hashing = .ok bytes →
    two.hashed hashing = .ok bytes → hashInput one.sequence one.previousHash one.payload =
      hashInput two.sequence two.previousHash two.payload

theorem Sealed.hashed (sealed : Sealed hashing expectedSequence expectedPrevious record) :
    ∃ bytes, record.hashed hashing = .ok bytes ∧ record.recordHash = hexText (hashing.sha256 bytes).toList := by
  have hash := sealed.hash
  unfold calculateRecordHash at hash
  cases bytes : record.hashed hashing with
  | error error =>
    rw [LedgerRecord.hashed] at bytes
    simp [bytes] at hash
  | ok bytes' =>
    refine ⟨bytes', rfl, ?_⟩
    rw [LedgerRecord.hashed] at bytes
    simp only [bytes, Except.ok.injEq] at hash
    exact hash.symm

variable {sequence : Nat}

/-- A record is determined by its place and its hash. -/
theorem Sealed.determined {first second : List LedgerRecord} (free : CollisionFree hashing first second)
    {one two : LedgerRecord} (member : one ∈ first) (member' : two ∈ second) {other : Option String}
    (left : Sealed hashing sequence previous one) (right : Sealed hashing sequence other two)
    (same : one.recordHash = two.recordHash) : one = two := by
  obtain ⟨bytes, hashed, hash⟩ := left.hashed
  obtain ⟨bytes', hashed', hash'⟩ := right.hashed
  have digests : hashing.sha256 bytes = hashing.sha256 bytes' :=
    Vector.toList_inj.mp (hexText_injective (hash.symm.trans (same.trans hash')))
  have equal := free.sha256 one member two member' bytes bytes' hashed hashed' digests
  subst equal
  have inputs := free.toVec one member two member' bytes hashed hashed'
  simp only [hashInput, RecordHashInput.mk.injEq, true_and] at inputs
  obtain ⟨sequences, previouses, payloads⟩ := inputs
  -- the entry's copy of the header is not hashed, the header check gives it
  have headers : one.entryIntegrity = two.entryIntegrity := by
    simp only [LedgerRecord.entryIntegrity, sequences, previouses, same]
  have payload : one.payload = two.payload := by
    rw [← left.entry, ← right.entry, ← withIntegrity_hashPayloadProjection, payloads, headers,
      withIntegrity_hashPayloadProjection]
  have version : one.schemaVersion = two.schemaVersion := left.version.trans right.version.symm
  cases one
  cases two
  simp_all

/-- Two ledgers that pass the integrity check and have the same checkpoint are the same. -/
theorem checkpoint_determines_records (hashing : Hashing) (first second : StoredLedger)
    (free : CollisionFree hashing first.records second.records)
    (verified : verifyIntegrity hashing first = .ok ()) (verified' : verifyIntegrity hashing second = .ok ())
    (checkpoints : first.checkpoint = second.checkpoint) : first.records = second.records := by
  obtain ⟨chained, length⟩ := verifyIntegrity_ok_iff.mp verified
  obtain ⟨chained', length'⟩ := verifyIntegrity_ok_iff.mp verified'
  rw [checkpoints] at chained length
  refine Chained.eq_of_last ?_ ?_ chained chained' (length.symm.trans length')
  · intro index previous other record fit fit'
    exact fit.previous.symm.trans fit'.previous
  · intro one member two member' index previous other fit fit' same
    exact Sealed.determined free member member' fit fit' same

variable {hashAt hashAt' : Nat → Option String}

theorem projectRecord_congr (earlier : ∀ sequence < record.sequence, hashAt sequence = hashAt' sequence)
    (state : Projection) : projectRecord hashAt state record = projectRecord hashAt' state record := by
  unfold projectRecord
  cases record.payload with
  | activityEntry _ => rfl
  | transactionStarted _ => rfl
  | transactionFinished _ => rfl
  | restorePointCreated point =>
    by_cases late : point.ledgerBoundary.sequence ≥ record.sequence
    · simp only [projectRestorePoint, late, if_true]
      rfl
    · simp only [projectRestorePoint, earlier _ (Nat.lt_of_not_ge late)]

theorem projectRecords_congr
    (earlier : ∀ record ∈ records, ∀ sequence < record.sequence, hashAt sequence = hashAt' sequence)
    (state : Projection) :
    records.foldlM (projectRecord hashAt) state = records.foldlM (projectRecord hashAt') state := by
  induction records generalizing state with
  | nil => rfl
  | cons record rest ih =>
    rw [List.foldlM_cons, List.foldlM_cons, projectRecord_congr (earlier record List.mem_cons_self)]
    exact bind_congr fun next => ih (fun later member => earlier later (List.mem_cons_of_mem _ member)) next

theorem recordHashAt_append (within : sequence ≤ records.length) (record : LedgerRecord) :
    recordHashAt (records ++ [record]) sequence = recordHashAt records sequence := by
  unfold recordHashAt
  split
  · rfl
  · rw [List.getElem?_append_left (by omega)]

theorem projectTransactions_concat (chained : SealedChain hashing 0 none records last)
    (next : record.sequence = records.length + 1) : projectTransactions (records ++ [record]) =
      projectTransactions records >>= fun state => projectRecord (recordHashAt records) state record := by
  have before : records.foldlM (projectRecord (recordHashAt (records ++ [record]))) {} =
      records.foldlM (projectRecord (recordHashAt records)) {} := by
    apply projectRecords_congr
    intro earlier member sequence less
    obtain ⟨place, _, within, fits⟩ := chained.fits_of_mem member
    have position := fits.sequence
    exact recordHashAt_append (by omega) record
  unfold projectTransactions
  rw [List.foldlM_append, before]
  refine bind_congr fun state => ?_
  have hashes : ∀ sequence < record.sequence,
      recordHashAt (records ++ [record]) sequence = recordHashAt records sequence :=
    fun sequence less => recordHashAt_append (by omega) record
  rw [List.foldlM_cons, projectRecord_congr hashes]
  exact bind_pure _

variable {after : Projection} {payload : LedgerPayload} {integrity : EntryIntegrity}

theorem projectRecord_resealed {state : Projection} {version : Nat} {hash : String}
    (admitted : projectRecord hashAt state ⟨version, sequence, previous, payload, hash⟩ = .ok after) (hash' : String) :
    ∃ resealed, projectRecord hashAt state
      ⟨version, sequence, previous, payload.withIntegrity integrity, hash'⟩ = .ok resealed := by
  cases payload with
  | transactionStarted _ => exact ⟨after, admitted⟩
  | transactionFinished _ => exact ⟨after, admitted⟩
  | restorePointCreated _ => exact ⟨after, admitted⟩
  | activityEntry entry =>
    obtain ⟨joined, took, _⟩ := bind_ok_iff.mp admitted
    exact ⟨_, bind_ok_iff.mpr ⟨joined, took, rfl⟩⟩

/-- A ledger that passes both checks. -/
structure Valid (hashing : Hashing) (stored : StoredLedger) : Prop where
  integrity : verifyIntegrity hashing stored = .ok ()
  projected : ∃ projection, projectTransactions stored.records = .ok projection

theorem Valid.empty (hashing : Hashing) : Valid hashing {} := ⟨rfl, _, rfl⟩

theorem Valid.appended {stored : StoredLedger} (valid : Valid hashing stored) {hash : String}
    (admitted : projectTransactions (stored.records ++ [⟨schemaVersion, stored.records.length + 1,
      stored.checkpoint.headHash, payload.withIntegrity integrity, ""⟩]) = .ok after)
    (hashed : calculateRecordHash hashing (stored.records.length + 1) stored.checkpoint.headHash
      (payload.withIntegrity integrity) = .ok hash) :
    Valid hashing ⟨stored.records ++ [⟨schemaVersion, stored.records.length + 1, stored.checkpoint.headHash,
        (payload.withIntegrity integrity).withIntegrity
          ⟨stored.records.length + 1, stored.checkpoint.headHash, hash⟩, hash⟩],
      ⟨stored.records.length + 1, some hash⟩⟩ := by
  obtain ⟨chained, _⟩ := verifyIntegrity_ok_iff.mp valid.integrity
  constructor
  · refine verifyIntegrity_ok_iff.mpr ⟨Chained.concat_iff.mpr ⟨_, chained, ?_, rfl⟩, by simp⟩
    have digest : isSha256Hex hash = true := by
      unfold calculateRecordHash at hashed
      split at hashed
      · cases hashed
      · cases hashed
        exact isSha256Hex_hexText _
    refine ⟨rfl, by simp, rfl, digest, ?_, ?_⟩
    · cases payload <;> rfl
    · rw [← hashed]
      simp only [calculateRecordHash, hashInput, hashPayloadProjection_withIntegrity]
  · rw [projectTransactions_concat chained rfl] at admitted ⊢
    obtain ⟨state, projected, admitted⟩ := bind_ok_iff.mp admitted
    obtain ⟨resealed, done⟩ := projectRecord_resealed admitted hash
    exact ⟨resealed, bind_ok_iff.mpr ⟨state, projected, done⟩⟩

theorem settle_answer_bind {S α β : Type} (result : S → Except LedgerError α) (next : α → LedgerCall S β) (store : S) :
    settle (answer result >>= next) store = match result store with
      | .ok value => settle (next value) store
      | .error error => (.error error, store) := by
  simp only [settle, bind_apply, answer]
  cases result store <;> rfl

section
variable {S : Type} [LedgerStore S]

variable {store : S} {stored : StoredLedger}

theorem verifiedSnapshot_ok_iff :
    verifiedSnapshot hashing store = .ok stored ↔ load store = .ok stored ∧ Valid hashing stored := by
  simp only [verifiedSnapshot, bind_ok_iff, mapError_ok_iff]
  constructor
  · rintro ⟨_, loaded, _, integrity, projection, projected, same⟩
    cases same
    exact ⟨loaded, integrity, projection, projected⟩
  · rintro ⟨loaded, integrity, projection, projected⟩
    exact ⟨stored, loaded, (), integrity, projection, projected, rfl⟩

/-- A store that holds a valid ledger holds one after the call, the same one if the call fails. -/
def Keeps {α : Type} (hashing : Hashing) (call : LedgerCall S α) : Prop :=
  ∀ store stored, LedgerStore.load store = .ok stored → Valid hashing stored →
    ∃ stored', LedgerStore.load (settle call store).2 = .ok stored' ∧ Valid hashing stored' ∧
      ∀ error, (settle call store).1 = .error error → stored' = stored

variable {α : Type}

theorem Keeps.look {β : Type} {result : S → Except LedgerError α} {next : α → LedgerCall S β}
    (keeps : ∀ value, Keeps hashing (next value)) : Keeps hashing (answer result >>= next) := by
  intro store stored loaded valid
  rw [settle_answer_bind]
  cases result store with
  | ok value => exact keeps value store stored loaded valid
  | error error => exact ⟨stored, loaded, valid, fun _ _ => rfl⟩

theorem Keeps.refuse (error : LedgerError) : Keeps hashing (throw error : LedgerCall S α) :=
  fun _ stored loaded valid => ⟨stored, loaded, valid, fun _ _ => rfl⟩

theorem Keeps.returns {β : Type} {call : LedgerCall S α} {next : α → LedgerCall S β} (keeps : Keeps hashing call)
    (pure : ∀ value, ∃ result, next value = pure result) : Keeps hashing (call >>= next) := by
  intro store stored loaded valid
  obtain ⟨stored', loaded', valid', refused⟩ := keeps store stored loaded valid
  refine ⟨stored', ?_⟩
  unfold settle at loaded' refused ⊢
  rw [bind_apply]
  cases done : call store with
  | error error after =>
    rw [done] at loaded' refused
    exact ⟨loaded', valid', fun _ _ => refused error rfl⟩
  | ok value after =>
    rw [done] at loaded'
    obtain ⟨result, same⟩ := pure value
    simp only [same, pure_apply]
    exact ⟨loaded', valid', nofun⟩

theorem appendRecord_settles [LawfulLedgerStore S] (loaded : load store = .ok stored)
    (valid : Valid hashing stored) {record : LedgerRecord} {checkpoint : LedgerCheckpoint}
    (kept : Valid hashing ⟨stored.records ++ [record], checkpoint⟩) {value : α} :
    ∃ stored', load (settle (appendRecord record checkpoint >>= fun _ => pure value) store).2 =
        .ok stored' ∧ Valid hashing stored' ∧
      ∀ error, (settle (appendRecord record checkpoint >>= fun _ => pure value) store).1 = .error error →
        stored' = stored := by
  simp only [settle, bind_apply, appendRecord]
  cases stores : append record checkpoint store with
  | ok _ after => exact ⟨_, LawfulLedgerStore.load_append loaded stores, kept, by simp [pure_apply]⟩
  | error error after =>
    exact ⟨stored, (LawfulLedgerStore.load_refused stores).trans loaded, valid, fun _ _ => rfl⟩

theorem appendPayload_keeps [LawfulLedgerStore S] (payload : LedgerPayload) :
    Keeps hashing (appendPayload hashing payload : LedgerCall S LedgerRecord) := by
  intro store stored loaded valid
  have verified := verifiedSnapshot_ok_iff.mpr ⟨loaded, valid⟩
  have unchanged (error : LedgerError) : ∃ stored', load store = .ok stored' ∧ Valid hashing stored' ∧
      ∀ error', (.error error : Except LedgerError LedgerRecord) = .error error' → stored' = stored :=
    ⟨stored, loaded, valid, fun _ _ => rfl⟩
  unfold appendPayload
  rw [settle_answer_bind, verified]
  simp only [settle_answer_bind]
  split
  · next admitted =>
    split
    · next hash hashed =>
      have kept := valid.appended admitted hashed
      exact appendRecord_settles loaded valid kept
    · next error _ => exact unchanged error
  · next error _ => exact unchanged error

def Holding (hashing : Hashing) (store : S) : Prop :=
  ∃ stored, LedgerStore.load store = .ok stored ∧ Valid hashing stored

theorem Holding.opens (holding : Holding hashing store) : openLedger hashing store = .ok store := by
  obtain ⟨stored, loaded, integrity, projection, projected⟩ := holding
  simp only [openLedger, loaded, Except.mapError, ok_bind, integrity, projected]
  rfl

variable [LawfulLedgerStore S]

theorem appendEntry_keeps (draft : ActivityEntryDraft) :
    Keeps hashing (appendEntry hashing draft : LedgerCall S ActivityEntry) := by
  refine .look fun _ => .look fun sequence => .look fun previousHash => .returns (appendPayload_keeps _) ?_
  intro record
  cases record.payload <;> exact ⟨_, rfl⟩

theorem finishTransaction_keeps (id : TransactionId) (atMs : Int) (outcome : TransactionEndKind)
    (failure : Option HumanSummary) :
    Keeps hashing (finishTransaction hashing id atMs outcome failure : LedgerCall S Unit) := by
  refine .look fun found => ?_
  cases found with
  | none => exact .refuse _
  | some found =>
    dsimp only
    split
    · exact Keeps.refuse _
    · exact .returns (appendPayload_keeps _) fun _ => ⟨(), rfl⟩

theorem LedgerOperation.call_keeps (operation : LedgerOperation) :
    Keeps hashing (operation.call hashing : LedgerCall S LedgerReply) := by
  have returns {α : Type} {call : LedgerCall S α} (reply : α → LedgerReply) (keeps : Keeps hashing call) :
      Keeps hashing (call >>= fun value => pure (reply value)) := keeps.returns fun value => ⟨reply value, rfl⟩
  cases operation with
  | appendEntry draft => exact returns _ (appendEntry_keeps draft)
  | startTransaction draft | recordRestorePoint draft =>
    exact returns _ (.look fun _ => .returns (appendPayload_keeps _) fun _ => ⟨_, rfl⟩)
  | commitTransaction id atMs => exact returns _ (finishTransaction_keeps id atMs .committed none)
  | abortTransaction id atMs reason => exact returns _ (finishTransaction_keeps id atMs .aborted reason)
  | markPartialFailure id atMs failure =>
    exact returns _ (finishTransaction_keeps id atMs .partiallyApplied (some failure))

theorem Holding.perform (holding : Holding hashing store) (operation : LedgerOperation) :
    Holding hashing (perform hashing store operation).2 := by
  obtain ⟨stored, loaded, valid⟩ := holding
  obtain ⟨stored', loaded', valid', _⟩ := operation.call_keeps store stored loaded valid
  exact ⟨stored', loaded', valid'⟩

/-- Every history of a ledger that starts empty is a valid ledger, and failed calls leave no trace. -/
theorem ledger_always_valid (hashing : Hashing) (store ledger : S) (empty : LedgerStore.load store = .ok {})
    (opened : openLedger hashing store = .ok ledger) (operations : List LedgerOperation) :
    (∃ stored, LedgerStore.load (Runs.run (perform hashing) ledger operations) = .ok stored ∧
      verifyIntegrity hashing stored = .ok () ∧
      (∃ projection, projectTransactions stored.records = .ok projection) ∧
      openLedger hashing (Runs.run (perform hashing) ledger operations) =
        .ok (Runs.run (perform hashing) ledger operations)) ∧
    ∀ event ∈ Runs.trace (perform hashing) ledger operations, ∀ error, event.result = .error error →
      LedgerStore.load event.after = LedgerStore.load event.before := by
  have start : Holding hashing store := ⟨{}, empty, .empty hashing⟩
  have same : ledger = store := (Except.ok.inj (start.opens.symm.trans opened)).symm
  subst same
  constructor
  · have reached := Runs.run_invariant (P := Holding hashing)
      (fun _ operation held => held.perform operation) start operations
    obtain ⟨stored, loaded, valid⟩ := id reached
    exact ⟨stored, loaded, valid.integrity, valid.projected, reached.opens⟩
  · refine Runs.forall_event (I := Holding hashing) (fun _ operation held => held.perform operation) ?_ start operations
    rintro store operation ⟨stored, loaded, valid⟩ error failed
    obtain ⟨stored', loaded', _, unchanged⟩ := operation.call_keeps store stored loaded valid
    rw [unchanged error failed] at loaded'
    exact loaded'.trans loaded.symm

end

def sequenceHashing : Hashing where
  toVec input := .ok [UInt8.ofNat input.sequence]
  sha256 bytes := Vector.replicate 32 (bytes.headD 0)

def userActor : ActorMetadata := { kind := .user }

def editTransaction : TransactionDraft where
  schemaVersion := schemaVersion
  id := ⟨"edit"⟩
  startedAtMs := 1
  actor := userActor
  summary := .publicText "edit the notes"
  atomicity := .atomicLocal

def documentEdit (id document : String) (atMs : Int) (snapshotId : SnapshotId) : ActivityEntryDraft where
  schemaVersion := schemaVersion
  id := ⟨id⟩
  timestampMs := atMs
  actor := userActor
  actionType := ⟨"notes", "edit"⟩
  target := { resourceType := "document", externalId := document }
  transactionId := some ⟨"edit"⟩
  provenance := {}
  summary := .publicText "edit a note"
  reversibility := .snapshotRequired (some snapshotId)
  snapshotRefs := [snapshotId]

/-- A transaction with one edit, committed and then committed once more. -/
def editSession : List LedgerOperation :=
  [.startTransaction editTransaction, .appendEntry (documentEdit "first" "note-1" 2 ⟨"before"⟩),
    .commitTransaction ⟨"edit"⟩ 3, .commitTransaction ⟨"edit"⟩ 4]

theorem ledger_valid_after_editSession :
    let reached := Runs.run (perform sequenceHashing) ({} : InMemoryLedgerStore) editSession
    reached.stored.records.length = 3 ∧ openLedger sequenceHashing reached = .ok reached := by
  refine ⟨by decide +kernel, ?_⟩
  obtain ⟨⟨_, _, _, _, opens⟩, _⟩ :=
    ledger_always_valid sequenceHashing ({} : InMemoryLedgerStore) {} rfl rfl editSession
  exact opens

/-- The ledger of the session, without and with the second commit, which is refused. -/
def committedOnce : StoredLedger :=
  (Runs.run (perform sequenceHashing) ({} : InMemoryLedgerStore) (editSession.take 3)).stored

def committedTwice : StoredLedger :=
  (Runs.run (perform sequenceHashing) ({} : InMemoryLedgerStore) editSession).stored

theorem committed_collisionFree : CollisionFree sequenceHashing committedOnce.records committedTwice.records := by
  have distinct : ∀ one ∈ committedOnce.records, ∀ two ∈ committedTwice.records,
      UInt8.ofNat one.sequence = UInt8.ofNat two.sequence → one = two := by decide +kernel
  constructor
  · intro one _ two _ bytes bytes' hashed hashed' same
    cases hashed
    cases hashed'
    have first := congrArg (fun digest : Vector UInt8 32 => digest[0]) same
    simpa [sequenceHashing] using first
  · intro one member two member' bytes hashed hashed'
    cases hashed
    have same : UInt8.ofNat two.sequence = UInt8.ofNat one.sequence := by
      simpa [LedgerRecord.hashed, sequenceHashing, hashInput] using hashed'
    rw [distinct one member two member' same.symm]

theorem checkpoint_determines_committed :
    committedOnce.records.length = 3 ∧ committedOnce.records = committedTwice.records := by
  have once : verifyIntegrity sequenceHashing committedOnce = .ok () := by decide +kernel
  have twice : verifyIntegrity sequenceHashing committedTwice = .ok () := by decide +kernel
  exact ⟨by decide +kernel, checkpoint_determines_records sequenceHashing committedOnce committedTwice
    committed_collisionFree once twice (by decide +kernel)⟩

end Nagi.Wayback
