import Mathlib.Data.Finset.Basic
import Nagi.Wayback.Ledger

/-! Plans that undo a transaction.

A plan is only described here, never executed. A snapshot is resolved with all
its ancestors, and an identifier that was resolved before is not looked at again. -/

namespace Nagi.Wayback

inductive RestoreTarget where
  | transaction (id : TransactionId)
  deriving DecidableEq

inductive RestoreStep where
  | exactUndo (entryId : EntryId)
  | compensation (entryId : EntryId) (contractId : String)
  | snapshotRestore (snapshotId : SnapshotId) (scope : ScopeReference)
  deriving DecidableEq

inductive PlanBlocker where
  | transactionNotCommitted (transactionId : TransactionId)
  | partialTransaction (transactionId : TransactionId)
  | irreversibleAction (entryId : EntryId) (reason : String)
  | unknownReversibility (entryId : EntryId) (reason : String)
  | missingSnapshotReference (entryId : EntryId)
  | missingSnapshot (snapshotId : SnapshotId)
  | snapshotBackendUnavailable (snapshotId : SnapshotId)
  | invalidSnapshotManifest (snapshotId : SnapshotId) (reason : String)
  | snapshotScopeMismatch (snapshotId : SnapshotId)
  | snapshotDependencyCycle (snapshotId : SnapshotId)
  | snapshotNotBeforeAction (snapshotId : SnapshotId) (entryId : EntryId)
  | compatibilityMismatch (snapshotId : SnapshotId) (expected actual : String)
  | noRestorableActions
  deriving DecidableEq

/-- The two sets are listed in order in the source. -/
structure RestorePlan where
  schemaVersion : Nat
  target : RestoreTarget
  steps : List RestoreStep
  requiredSnapshots : Finset SnapshotId
  blockers : List PlanBlocker
  affectedScopes : Finset ScopeReference
  executable : Bool

/-- What a backend answers when it is asked for a manifest. -/
abbrev SnapshotStore := SnapshotId → Except StoreError (Option SnapshotManifest)

def scopeForEntry (entry : ActivityEntry) : ScopeReference where
  scopeType := entry.target.resourceType
  externalId := entry.target.externalId
  appId := entry.appId <|> entry.target.appId

structure SnapshotExpectation where
  scope : Option ScopeReference
  compatibility : Option String
  beforeSequence : Option Nat
  entryId : Option EntryId

/-- The steps so far, and what is known of the snapshots they need. -/
structure Resolution where
  steps : List RestoreStep := []
  required : Finset SnapshotId := ∅
  resolved : Finset SnapshotId := ∅
  resolving : Finset SnapshotId := ∅
  resolvedScopes : Finset ScopeReference := ∅

variable (snapshotId : SnapshotId)

def checkScope (manifest : SnapshotManifest) : Option ScopeReference → Except PlanBlocker Unit
  | some scope => if manifest.scope ≠ scope then .error (.snapshotScopeMismatch snapshotId) else .ok ()
  | none => .ok ()

def checkCompatibility (manifest : SnapshotManifest) : Option String → Except PlanBlocker Unit
  | some expected =>
    if manifest.compatibilityVersion ≠ expected then
      .error (.compatibilityMismatch snapshotId expected manifest.compatibilityVersion)
    else
      .ok ()
  | none => .ok ()

def checkBoundary (manifest : SnapshotManifest) : Option Nat → Option EntryId → Except PlanBlocker Unit
  | some boundary, some entryId =>
    if manifest.sourceLedgerBoundary.sequence ≥ boundary then .error (.snapshotNotBeforeAction snapshotId entryId)
    else .ok ()
  | _, _ => .ok ()

def checkManifest (expectation : SnapshotExpectation) (manifest : SnapshotManifest) : Except PlanBlocker Unit := do
  manifest.validate.mapError fun error => .invalidSnapshotManifest snapshotId error.reason
  checkScope snapshotId manifest expectation.scope
  checkCompatibility snapshotId manifest expectation.compatibility
  checkBoundary snapshotId manifest expectation.beforeSequence expectation.entryId

namespace Resolution

variable (state : Resolution)

def addStep (step : RestoreStep) : Resolution :=
  if step ∈ state.steps then state else { state with steps := state.steps ++ [step] }

def enter (snapshotId : SnapshotId) : Resolution :=
  { state with
    resolving := insert snapshotId state.resolving
    required := insert snapshotId state.required }

def leave (snapshotId : SnapshotId) (result : Except PlanBlocker Unit) : Resolution :=
  let left := { state with resolving := state.resolving.erase snapshotId }
  match result with
  | .ok () => { left with resolved := insert snapshotId left.resolved }
  | .error _ => left

def restoreSnapshot (snapshotId : SnapshotId) (scope : ScopeReference) : Resolution :=
  let added := state.addStep (.snapshotRestore snapshotId scope)
  { added with resolvedScopes := insert scope added.resolvedScopes }

end Resolution

variable (snapshots : SnapshotStore)

/-- The manifest of a snapshot is checked and its parent resolved first. -/
def visitSnapshot (expectation : SnapshotExpectation)
    (resolve : SnapshotId → Resolution → Option (Except PlanBlocker Unit × Resolution)) (snapshotId : SnapshotId)
    (state : Resolution) : Option (Except PlanBlocker Unit × Resolution) :=
  match snapshots snapshotId with
  | .error _ => some (.error (.snapshotBackendUnavailable snapshotId), state)
  | .ok none => some (.error (.missingSnapshot snapshotId), state)
  | .ok (some manifest) =>
    match checkManifest snapshotId expectation manifest with
    | .error blocker => some (.error blocker, state)
    | .ok () =>
      let parent := match manifest.parentSnapshot with
        | some parentSnapshot => resolve parentSnapshot state
        | none => some (.ok (), state)
      match parent with
      | none => none
      | some (.error blocker, after) => some (.error blocker, after)
      | some (.ok (), after) => some (.ok (), after.restoreSnapshot snapshotId manifest.scope)

/-- `none` if the fuel does not reach the end of the chain of parents. -/
def resolveSnapshotInner (snapshots : SnapshotStore) (expectation : SnapshotExpectation) :
    Nat → SnapshotId → Resolution → Option (Except PlanBlocker Unit × Resolution)
  | 0, _, _ => none
  | fuel + 1, snapshotId, state =>
    if snapshotId ∈ state.resolved then
      some (.ok (), state)
    else if snapshotId ∈ state.resolving then
      some (.error (.snapshotDependencyCycle snapshotId), state)
    else
      (visitSnapshot snapshots expectation (resolveSnapshotInner snapshots expectation fuel) snapshotId
        (state.enter snapshotId)).map fun (result, after) => (result, after.leave snapshotId result)

structure Planning where
  resolution : Resolution := {}
  blockers : List PlanBlocker := []
  affectedScopes : Finset ScopeReference := ∅

namespace Planning

variable (state : Planning)

def block (blocker : PlanBlocker) : Planning := { state with blockers := state.blockers ++ [blocker] }

def addStep (step : RestoreStep) : Planning :=
  { state with resolution := { state.resolution with steps := state.resolution.steps ++ [step] } }

def addScope (scope : ScopeReference) : Planning :=
  { state with affectedScopes := insert scope state.affectedScopes }

def resolveSnapshot (fuel : Nat) (snapshotId : SnapshotId)
    (expectation : SnapshotExpectation) (state : Planning) : Option Planning :=
  (resolveSnapshotInner snapshots expectation fuel snapshotId state.resolution).map fun (result, after) =>
    match result with
    | .ok () => { state with resolution := after }
    | .error blocker => { state with resolution := after }.block blocker

def checkTransaction (transactionId : TransactionId) (transaction : TransactionState) : Planning :=
  match transaction with
  | .committed _ => state
  | .partiallyApplied _ _ => state.block (.partialTransaction transactionId)
  | .isOpen | .aborted _ _ => state.block (.transactionNotCommitted transactionId)

def finishPlan (target : RestoreTarget) : RestorePlan where
  schemaVersion := schemaVersion
  target := target
  steps := state.resolution.steps
  requiredSnapshots := state.resolution.required
  blockers := state.blockers
  affectedScopes := state.affectedScopes
  executable := state.blockers.isEmpty && !state.resolution.steps.isEmpty

end Planning

/-- The snapshot that a snapshot-required entry names. -/
def namedSnapshot (entry : ActivityEntry) (requested : Option SnapshotId) : Option SnapshotId :=
  requested <|> entry.snapshotRefs.head?

def entryExpectation (entry : ActivityEntry) (compatibility : Option String) : SnapshotExpectation :=
  ⟨some (scopeForEntry entry), compatibility, some entry.integrity.sequence, some entry.id⟩

def planEntry (fuel : Nat) (compatibility : Option String) (state : Planning)
    (entry : ActivityEntry) : Option Planning :=
  let state := state.addScope (scopeForEntry entry)
  match entry.reversibility with
  | .exactReversible => some (state.addStep (.exactUndo entry.id))
  | .compensationRequired contractId => some (state.addStep (.compensation entry.id contractId))
  | .snapshotRequired requested =>
    match namedSnapshot entry requested with
    | some snapshotId => state.resolveSnapshot snapshots fuel snapshotId (entryExpectation entry compatibility)
    | none => some (state.block (.missingSnapshotReference entry.id))
  | .irreversible reason => some (state.block (.irreversibleAction entry.id reason))
  | .unknown reason => some (state.block (.unknownReversibility entry.id reason))

/-- The plan for a transaction with the entries, the newest of which is undone first. -/
def planEntries (fuel : Nat) (compatibility : Option String) (id : TransactionId)
    (transaction : TransactionState) (entries : List ActivityEntry) : Option RestorePlan := do
  let start := Planning.checkTransaction {} id transaction
  let planned ← entries.reverse.foldlM (planEntry snapshots fuel compatibility) start
  let checked := if entries.isEmpty then planned.block .noRestorableActions else planned
  return checked.finishPlan (.transaction id)

section
variable {S : Type} [LedgerStore S] (hashing : Hashing)

def planTransactionRestore (fuel : Nat) (id : TransactionId) (snapshots : SnapshotStore)
    (compatibility : Option String) (store : S) : Option (Except LedgerError RestorePlan) :=
  match transaction hashing id store with
  | .error error => some (.error error)
  | .ok none => some (.error (.notFound "transaction"))
  | .ok (some found) =>
    match transactionEntries hashing id store with
    | .error error => some (.error error)
    | .ok entries => (planEntries snapshots fuel compatibility id found.state entries).map .ok

end
end Nagi.Wayback
