import Mathlib.Data.List.Dedup
import Nagi.Lib.Text

/-! The data of the activity ledger and what the ledger accepts of it. -/

namespace Nagi.Wayback

open Lib

def schemaVersion : Nat := 1

structure ValidationError where
  reason : String
  deriving DecidableEq

abbrev Validation := Except ValidationError Unit

def require (accepted : Prop) [Decidable accepted] (reason : String) : Validation :=
  if accepted then .ok () else .error ⟨reason⟩

def validateToken (value label : String) (maxLen : Nat) : Validation :=
  require (value ≠ "" ∧ value.utf8ByteSize ≤ maxLen ∧ ¬value.toList.any Text.isControl) label

/-- A text of nothing but white space is empty once it is trimmed. -/
def validateSummary (value : String) : Validation :=
  require (¬value.toList.all Text.isWhitespace ∧ value.utf8ByteSize ≤ 512 ∧ ¬value.toList.any Text.isControl)
    "summary must be non-empty, bounded, and printable"

def validateIdentifier (value : String) : Validation :=
  validateToken value "identifier must be non-empty, bounded, and printable" 160

def validateOption {α : Type} (check : α → Validation) : Option α → Validation
  | some value => check value
  | none => .ok ()

structure EntryId where
  value : String
  deriving DecidableEq

structure TransactionId where
  value : String
  deriving DecidableEq

structure CorrelationId where
  value : String
  deriving DecidableEq

structure SnapshotId where
  value : String
  deriving DecidableEq

structure RestorePointId where
  value : String
  deriving DecidableEq

def EntryId.validate (id : EntryId) : Validation := validateIdentifier id.value

def TransactionId.validate (id : TransactionId) : Validation := validateIdentifier id.value

def CorrelationId.validate (id : CorrelationId) : Validation := validateIdentifier id.value

def SnapshotId.validate (id : SnapshotId) : Validation := validateIdentifier id.value

def RestorePointId.validate (id : RestorePointId) : Validation := validateIdentifier id.value

structure PrincipalReference where
  nameSpace : String
  id : String
  deriving DecidableEq

def PrincipalReference.validate (principal : PrincipalReference) : Validation := do
  validateToken principal.nameSpace "principal namespace is invalid" 96
  validateToken principal.id "principal id is invalid" 160

inductive ActorKind where
  | user
  | ai
  | system
  | application
  | automation
  | remoteDevice
  deriving DecidableEq

structure ActorMetadata where
  kind : ActorKind
  principal : Option PrincipalReference := none
  appId : Option String := none
  delegatedFor : Option PrincipalReference := none
  modelId : Option String := none
  deriving DecidableEq

def ActorMetadata.validate (actor : ActorMetadata) : Validation := do
  validateOption PrincipalReference.validate actor.principal
  validateOption PrincipalReference.validate actor.delegatedFor
  validateOption (validateToken · "app id is invalid" 160) actor.appId
  validateOption (validateToken · "model id is invalid" 160) actor.modelId

structure ActionType where
  nameSpace : String
  name : String
  deriving DecidableEq

def ActionType.validate (action : ActionType) : Validation := do
  validateToken action.nameSpace "action namespace is invalid" 96
  validateToken action.name "action type is invalid" 128

structure TargetReference where
  resourceType : String
  externalId : String
  appId : Option String := none
  deriving DecidableEq

def TargetReference.validate (target : TargetReference) : Validation := do
  validateToken target.resourceType "target resource type is invalid" 96
  validateToken target.externalId "target reference is invalid" 256
  validateOption (validateToken · "target app id is invalid" 160) target.appId

inductive HumanSummary where
  | publicText (text : String)
  | redacted (reason : String)
  | omitted (reason : String)
  deriving DecidableEq

def HumanSummary.validate : HumanSummary → Validation
  | publicText text => validateSummary text
  | redacted reason | omitted reason => validateSummary reason

inductive FieldSensitivity where
  | publicField
  | personal
  | sensitive
  | secret
  deriving DecidableEq

inductive FieldDisposition where
  | recorded
  | redacted
  | omitted
  | unavailable
  deriving DecidableEq

inductive MetadataValue where
  | text (text : String)
  | integer (value : Int)
  | boolean (value : Bool)
  | principalReference (principal : PrincipalReference)
  | snapshotReference (snapshotId : SnapshotId)
  deriving DecidableEq

structure MetadataField where
  sensitivity : FieldSensitivity
  disposition : FieldDisposition
  value : Option MetadataValue := none
  reason : Option String := none
  deriving DecidableEq

def MetadataField.validate (field : MetadataField) : Validation :=
  match field.disposition, field.value with
  | .recorded, some value => do
    require (field.sensitivity ≠ .sensitive ∧ field.sensitivity ≠ .secret)
      "sensitive or secret metadata must be redacted, omitted, or referenced"
    match value with
    | .text text => validateSummary text
    | .principalReference principal => principal.validate
    | .snapshotReference snapshotId => snapshotId.validate
    | .integer _ | .boolean _ => .ok ()
  | .recorded, none => .error ⟨"recorded metadata requires a value"⟩
  | _, some _ => .error ⟨"redacted, omitted, or unavailable metadata cannot contain a value"⟩
  | _, none => validateOption validateSummary field.reason

inductive PayloadAvailability where
  | notCaptured
  | redacted
  | omitted
  | unavailable
  | snapshotReference
  deriving DecidableEq

structure PayloadMetadata where
  availability : PayloadAvailability
  snapshotId : Option SnapshotId := none
  reason : Option String := none
  deriving DecidableEq

def PayloadMetadata.validate (payload : PayloadMetadata) : Validation := do
  require (¬(payload.availability = .snapshotReference ∧ payload.snapshotId = none))
    "snapshot-backed payload metadata requires a snapshot id"
  validateOption SnapshotId.validate payload.snapshotId
  require (¬(payload.availability ≠ .snapshotReference ∧ payload.snapshotId.isSome))
    "only snapshot-backed payload metadata may carry a snapshot id"
  validateOption validateSummary payload.reason

inductive Reversibility where
  | exactReversible
  | compensationRequired (contractId : String)
  | snapshotRequired (snapshotId : Option SnapshotId)
  | irreversible (reason : String)
  | unknown (reason : String)
  deriving DecidableEq

def Reversibility.validate : Reversibility → Validation
  | exactReversible => .ok ()
  | compensationRequired contractId => validateToken contractId "compensation contract id is invalid" 160
  | snapshotRequired snapshotId => validateOption SnapshotId.validate snapshotId
  | irreversible reason | unknown reason => validateSummary reason

structure Provenance where
  initiatingEvent : Option String := none
  parentEntryId : Option EntryId := none
  causeEntryId : Option EntryId := none
  correlationId : Option CorrelationId := none
  deriving DecidableEq

def Provenance.validate (provenance : Provenance) (entryId : EntryId) : Validation := do
  entryId.validate
  validateOption EntryId.validate provenance.parentEntryId
  validateOption EntryId.validate provenance.causeEntryId
  validateOption CorrelationId.validate provenance.correlationId
  require (¬(provenance.parentEntryId = some entryId ∨ provenance.causeEntryId = some entryId))
    "an entry cannot be its own parent or cause"
  validateOption (validateToken · "initiating event reference is invalid" 256) provenance.initiatingEvent

/-- Sorting a list and dropping repetitions leaves it shorter exactly if an element occurs twice. -/
def requireDistinct {α : Type} [DecidableEq α] (values : List α) (reason : String) : Validation :=
  require (values.dedup.length = values.length) reason

structure EntryIntegrity where
  sequence : Nat := 0
  previousEntryHash : Option String := none
  entryHash : String := ""
  deriving DecidableEq

structure ActivityEntryDraft where
  schemaVersion : Nat
  id : EntryId
  timestampMs : Int
  actor : ActorMetadata
  appId : Option String := none
  actionType : ActionType
  target : TargetReference
  transactionId : Option TransactionId := none
  provenance : Provenance
  summary : HumanSummary
  /-- In the order of the keys. -/
  metadata : List (String × MetadataField) := []
  reversibility : Reversibility
  snapshotRefs : List SnapshotId := []
  restorePointRefs : List RestorePointId := []
  payload : Option PayloadMetadata := none
  deriving DecidableEq

def isKeyChar (char : Char) : Bool := char.isLower || char.isDigit || char ∈ ['.', '_', '-']

def validateMetadata (key : String) (field : MetadataField) : Validation := do
  require (key ≠ "" ∧ key.utf8ByteSize ≤ 128 ∧ key.toList.all isKeyChar)
    "metadata key must be a bounded lowercase identifier"
  field.validate

def validateRequiredSnapshot (reversibility : Reversibility) (snapshotRefs : List SnapshotId) : Validation :=
  match reversibility with
  | .snapshotRequired (some snapshotId) =>
    require (snapshotId ∈ snapshotRefs) "required snapshot id must appear in snapshot references"
  | _ => .ok ()

def validatePayload (snapshotRefs : List SnapshotId) (payload : PayloadMetadata) : Validation := do
  payload.validate
  validateOption (fun snapshotId => require (snapshotId ∈ snapshotRefs)
    "payload snapshot must appear in snapshot references") payload.snapshotId

def ActivityEntryDraft.validate (draft : ActivityEntryDraft) : Validation := do
  require (draft.schemaVersion = Wayback.schemaVersion) "unsupported activity entry version"
  require (0 ≤ draft.timestampMs) "timestamp must be Unix milliseconds >= 0"
  draft.id.validate
  validateOption TransactionId.validate draft.transactionId
  draft.actor.validate
  draft.actionType.validate
  draft.target.validate
  draft.provenance.validate draft.id
  draft.summary.validate
  draft.reversibility.validate
  validateOption (validateToken · "entry app id is invalid" 160) draft.appId
  validateRequiredSnapshot draft.reversibility draft.snapshotRefs
  requireDistinct draft.snapshotRefs "duplicate snapshot reference"
  draft.snapshotRefs.forM SnapshotId.validate
  requireDistinct draft.restorePointRefs "duplicate restore point reference"
  draft.restorePointRefs.forM RestorePointId.validate
  draft.metadata.forM fun (key, field) => validateMetadata key field
  validateOption (validatePayload draft.snapshotRefs) draft.payload

structure ActivityEntry extends ActivityEntryDraft where
  integrity : EntryIntegrity
  deriving DecidableEq

inductive AtomicityExpectation where
  | atomicLocal
  | bestEffortPartial
  | externalCompensation
  deriving DecidableEq

structure TransactionDraft where
  schemaVersion : Nat
  id : TransactionId
  startedAtMs : Int
  actor : ActorMetadata
  summary : HumanSummary
  atomicity : AtomicityExpectation
  deriving DecidableEq

def TransactionDraft.validate (draft : TransactionDraft) : Validation := do
  require (draft.schemaVersion = Wayback.schemaVersion) "unsupported transaction version"
  require (0 ≤ draft.startedAtMs) "transaction timestamp is invalid"
  draft.id.validate
  draft.actor.validate
  draft.summary.validate

inductive TransactionEndKind where
  | committed
  | aborted
  | partiallyApplied
  deriving DecidableEq

structure TransactionFinished where
  schemaVersion : Nat
  id : TransactionId
  finishedAtMs : Int
  outcome : TransactionEndKind
  failure : Option HumanSummary := none
  deriving DecidableEq

inductive TransactionState where
  | isOpen
  | committed (atMs : Int)
  | aborted (atMs : Int) (reason : Option HumanSummary)
  | partiallyApplied (atMs : Int) (failure : HumanSummary)
  deriving DecidableEq

structure Transaction where
  schemaVersion : Nat
  id : TransactionId
  startedAtMs : Int
  actor : ActorMetadata
  summary : HumanSummary
  atomicity : AtomicityExpectation
  entryIds : List EntryId
  state : TransactionState
  deriving DecidableEq

/-- The form of a digest: 64 hexadecimal digits without capital letters. -/
def isSha256Hex (value : String) : Bool :=
  value.utf8ByteSize = 64 ∧ value.toList.all fun char => char.isDigit || 'a' ≤ char ∧ char ≤ 'f'

structure LedgerBoundary where
  sequence : Nat
  recordHash : Option String := none
  deriving DecidableEq

def LedgerBoundary.validate (boundary : LedgerBoundary) : Validation :=
  match boundary.sequence, boundary.recordHash with
  | 0, none => .ok ()
  | 0, some _ | _, none => .error ⟨"ledger boundary sequence/hash mismatch"⟩
  | _, some hash => require (isSha256Hex hash) "ledger boundary digest is invalid"

structure ScopeReference where
  scopeType : String
  externalId : String
  appId : Option String := none
  deriving DecidableEq

def ScopeReference.validate (scope : ScopeReference) : Validation := do
  validateToken scope.scopeType "scope type is invalid" 96
  validateToken scope.externalId "scope reference is invalid" 256
  validateOption (validateToken · "scope app id is invalid" 160) scope.appId

structure RestorePointDraft where
  schemaVersion : Nat
  id : RestorePointId
  timestampMs : Int
  label : HumanSummary
  snapshotIds : List SnapshotId
  ledgerBoundary : LedgerBoundary
  scopes : List ScopeReference
  compatibilityVersion : String
  sourceTransaction : Option TransactionId := none
  deriving DecidableEq

def RestorePointDraft.validate (draft : RestorePointDraft) : Validation := do
  require (draft.schemaVersion = Wayback.schemaVersion) "unsupported restore point version"
  require (0 ≤ draft.timestampMs ∧ draft.snapshotIds ≠ [] ∧ draft.scopes ≠ [])
    "restore point requires a valid timestamp, snapshots, and scopes"
  draft.id.validate
  validateOption TransactionId.validate draft.sourceTransaction
  draft.label.validate
  draft.ledgerBoundary.validate
  validateToken draft.compatibilityVersion "restore point compatibility version is invalid" 96
  requireDistinct draft.snapshotIds "restore point has duplicate snapshots"
  draft.snapshotIds.forM SnapshotId.validate
  requireDistinct draft.scopes "restore point has duplicate scopes"
  draft.scopes.forM ScopeReference.validate

structure SnapshotManifest where
  schemaVersion : Nat
  id : SnapshotId
  scope : ScopeReference
  createdAtMs : Int
  sourceTransaction : Option TransactionId := none
  sourceLedgerBoundary : LedgerBoundary
  contentDigest : String
  backendId : String
  compatibilityVersion : String
  parentSnapshot : Option SnapshotId := none
  deriving DecidableEq

def SnapshotManifest.validate (manifest : SnapshotManifest) : Validation := do
  require (manifest.schemaVersion = Wayback.schemaVersion) "unsupported snapshot manifest version"
  require (0 ≤ manifest.createdAtMs ∧ isSha256Hex manifest.contentDigest)
    "snapshot timestamp or content digest is invalid"
  manifest.id.validate
  validateOption TransactionId.validate manifest.sourceTransaction
  validateOption SnapshotId.validate manifest.parentSnapshot
  manifest.scope.validate
  manifest.sourceLedgerBoundary.validate
  validateToken manifest.backendId "snapshot backend id is invalid" 128
  validateToken manifest.compatibilityVersion "snapshot compatibility version is invalid" 96
  require (manifest.parentSnapshot ≠ some manifest.id) "snapshot cannot parent itself"

inductive LedgerPayload where
  | activityEntry (entry : ActivityEntry)
  | transactionStarted (draft : TransactionDraft)
  | transactionFinished (finished : TransactionFinished)
  | restorePointCreated (draft : RestorePointDraft)
  deriving DecidableEq

structure LedgerRecord where
  schemaVersion : Nat
  sequence : Nat
  previousHash : Option String := none
  payload : LedgerPayload
  recordHash : String
  deriving DecidableEq

structure LedgerCheckpoint where
  lastSequence : Nat := 0
  headHash : Option String := none
  deriving DecidableEq

/-- The records of a ledger and the checkpoint kept beside them. -/
structure StoredLedger where
  records : List LedgerRecord := []
  checkpoint : LedgerCheckpoint := {}
  deriving DecidableEq

end Nagi.Wayback
