import Mathlib.Data.List.FinRange
import Nagi.Lib.Checks

/-! Restoring objects from a checkpoint of the wayback store, through a policy and a backend whose calls are
recorded. -/

namespace Nagi.History

open Lib Checks Function List

abbrev ObjectId := UInt64
abbrev RevisionId := UInt64
abbrev CheckpointId := UInt64
abbrev EventId := UInt64
abbrev SnapshotBackendRef := UInt64

def maxActivityEvents : Nat := 128
def maxActivityObjects : Nat := 4
def maxActivityMetadata : Nat := 8
def maxCheckpoints : Nat := 64
def maxCheckpointObjects : Nat := 8
def maxRestoreItems : Nat := maxCheckpointObjects
def lastId : UInt64 := 0xffffffffffffffff

structure Timestamp where
  seconds : Int
  nanos : Nat

inductive ActorKind where
  | user
  | agent
  | app
  | system
  | automation
  | remoteDevice
  deriving DecidableEq

structure Actor where
  id : UInt64
  kind : ActorKind
  deriving DecidableEq

structure ActivityContext where
  appId : UInt64
  appSessionId : UInt64
  nodeId : UInt64
  surfaceId : Option UInt64
  workspaceId : Option UInt64

inductive Provenance where
  | direct (originatingIntent : Option UInt64)
  | delegated (requestedBy : Actor) (originatingIntent delegatedAuthority : UInt64)

inductive ActionKind where
  | checkpointCreated
  | restorePlanned
  | restoreApplied
  | restoreFailed
  deriving DecidableEq

inductive FailureCode where
  | permissionDenied
  | staleState
  | missingObject
  | missingCheckpoint
  | unsupported
  | backendFailure
  | capacity
  | validation
  | other (code : UInt16)
  deriving DecidableEq

def FailureCode.number : FailureCode → Nat
  | permissionDenied => 1
  | staleState => 2
  | missingObject => 3
  | missingCheckpoint => 4
  | unsupported => 5
  | backendFailure => 6
  | capacity => 7
  | validation => 8
  | other code => code.toNat

inductive EventResult where
  | pending
  | succeeded
  | failed (code : FailureCode)
  | partialResult (succeeded failed : UInt8)
  deriving DecidableEq

inductive MetadataEntry where
  | itemCount (count : Nat)
  | failureCode (code : Nat)
  | confirmedByActor (actor : UInt64)
  | restoreMode (code : Nat)

inductive ActivityError where
  | capacity
  | tooManyObjects
  | tooManyMetadataFields
  | missingDelegationProvenance
  | invalidAuthorityReference
  deriving DecidableEq

structure ActivityDraft where
  occurredAt : Timestamp
  actor : Actor
  context : ActivityContext
  action : ActionKind
  result : EventResult := .pending
  provenance : Provenance := .direct none
  targets : List ObjectId := []
  sources : List ObjectId := []
  transactionId : Option UInt64 := none
  correlationId : Option UInt64 := none
  causalParent : Option EventId := none
  checkpointBefore : Option CheckpointId := none
  checkpointAfter : Option CheckpointId := none
  metadata : List MetadataEntry := []

def pushObject (refs : List ObjectId) (object : ObjectId) : Except ActivityError (List ObjectId) :=
  if object ∈ refs then .ok refs
  else if refs.length = maxActivityObjects then .error .tooManyObjects
  else .ok (refs ++ [object])

namespace ActivityDraft

variable (draft : ActivityDraft)

def withTarget (object : ObjectId) : Except ActivityError ActivityDraft := do
  return { draft with targets := ← pushObject draft.targets object }

def withSource (object : ObjectId) : Except ActivityError ActivityDraft := do
  return { draft with sources := ← pushObject draft.sources object }

def withMetadata (entry : MetadataEntry) : Except ActivityError ActivityDraft :=
  if draft.metadata.length = maxActivityMetadata then .error .tooManyMetadataFields
  else .ok { draft with metadata := draft.metadata ++ [entry] }

def validate : Except ActivityError Unit :=
  match draft.provenance with
  | .direct _ => if draft.actor.kind = .agent then .error .missingDelegationProvenance else .ok ()
  | .delegated _ _ authority => if authority = 0 then .error .invalidAuthorityReference else .ok ()

end ActivityDraft

structure ActivityEvent where
  id : EventId
  content : ActivityDraft

/-- The stored events fill the ledger from its front. -/
structure ActivityLedger where
  events : List ActivityEvent
  nextEventId : EventId
  bounded : events.length ≤ maxActivityEvents

namespace ActivityLedger

def canAppend (ledger : ActivityLedger) : Bool :=
  ledger.events.length < maxActivityEvents ∧ ledger.nextEventId ≠ lastId

def canAppendEvents (ledger : ActivityLedger) (count : Nat) : Bool :=
  count ≤ maxActivityEvents - ledger.events.length ∧ count ≤ (lastId - ledger.nextEventId).toNat

def append (ledger : ActivityLedger) (draft : ActivityDraft) : Except ActivityError (EventId × ActivityLedger) :=
  if room : ledger.events.length < maxActivityEvents ∧ ledger.nextEventId ≠ lastId then do
    draft.validate
    return (ledger.nextEventId, {
      events := ledger.events ++ [⟨ledger.nextEventId, draft⟩]
      nextEventId := ledger.nextEventId + 1
      bounded := by
        rw [length_append]
        exact room.1 })
  else .error .capacity

end ActivityLedger

structure CheckpointObject where
  objectId : ObjectId
  revisionId : RevisionId

inductive CheckpointScope where
  | document
  | workspace
  | transaction
  | system
  deriving DecidableEq

inductive CheckpointValidity where
  | available
  | expired
  | unavailable
  | corrupt
  deriving DecidableEq

inductive CheckpointError where
  | capacity
  | activity (error : ActivityError)
  | invalidId
  | invalidBackendReference
  | emptyCheckpoint
  | invalidScopeObjects
  | missingWorkspace
  | missingTransaction
  | missingDelegationProvenance
  | tooManyObjects

structure CheckpointDraft where
  createdAt : Timestamp
  actor : Actor
  context : ActivityContext
  provenance : Provenance
  scope : CheckpointScope
  backendRef : SnapshotBackendRef
  objects : List CheckpointObject
  transactionId : Option UInt64

structure CheckpointRecord extends CheckpointDraft where
  id : CheckpointId
  validity : CheckpointValidity
  pinned : Bool

def withObject (objects : List CheckpointObject) (object : CheckpointObject) :
    Except CheckpointError (List CheckpointObject) :=
  if objects.any (·.objectId = object.objectId) then .ok objects
  else if objects.length = maxCheckpointObjects then .error .tooManyObjects
  else .ok (objects ++ [object])

namespace CheckpointDraft

def validate (draft : CheckpointDraft) : Except CheckpointError Unit :=
  if draft.backendRef = 0 then .error .invalidBackendReference
  else if draft.objects = [] then .error .emptyCheckpoint
  else if draft.scope = .document ∧ draft.objects.length ≠ 1 then .error .invalidScopeObjects
  else if draft.scope = .workspace ∧ draft.context.workspaceId = none then .error .missingWorkspace
  else if draft.scope = .transaction ∧ draft.transactionId = none then .error .missingTransaction
  else match draft.provenance with
    | .direct _ => if draft.actor.kind = .agent then .error .missingDelegationProvenance else .ok ()
    | .delegated _ _ _ => .ok ()

def record (draft : CheckpointDraft) (id : CheckpointId) : CheckpointRecord :=
  { draft with id, validity := .available, pinned := false }

def creationActivity (draft : CheckpointDraft) (id : CheckpointId) : Except CheckpointError ActivityDraft :=
  let event : ActivityDraft := {
    occurredAt := draft.createdAt, actor := draft.actor, context := draft.context, action := .checkpointCreated
    result := .succeeded, provenance := draft.provenance, checkpointAfter := some id
    transactionId := draft.transactionId }
  (event.withMetadata (.itemCount draft.objects.length)).mapError .activity

end CheckpointDraft

def CheckpointRecord.isOlder (first second : CheckpointRecord) : Bool :=
  first.createdAt.seconds < second.createdAt.seconds ∨ first.createdAt.seconds = second.createdAt.seconds ∧
    (first.createdAt.nanos < second.createdAt.nanos ∨ first.createdAt.nanos = second.createdAt.nanos ∧
      first.id < second.id)

structure CheckpointStore where
  records : Fin maxCheckpoints → Option CheckpointRecord
  length : Nat
  nextId : CheckpointId

namespace CheckpointStore

variable (store : CheckpointStore)

def unpinned : List (Fin maxCheckpoints × CheckpointRecord) :=
  (finRange maxCheckpoints).filterMap fun slot =>
    (store.records slot).bind fun record => if record.pinned then none else some (slot, record)

def pickOldest {slots : Nat} (best : Option (Fin slots × CheckpointRecord)) (entry : Fin slots × CheckpointRecord) :
    Option (Fin slots × CheckpointRecord) :=
  match best with
  | none => some entry
  | some oldest => some (if entry.2.isOlder oldest.2 then entry else oldest)

def oldestUnpinnedIndex : Option (Fin maxCheckpoints) :=
  (store.unpinned.foldl pickOldest none).map (·.1)

def canCreate : Bool :=
  store.nextId ≠ lastId ∧ (store.length < maxCheckpoints ∨ store.oldestUnpinnedIndex.isSome)

/-- The first free slot, or that of the oldest record which is not pinned. -/
def destination : Option (Fin maxCheckpoints) :=
  ((finRange maxCheckpoints).find? fun slot => (store.records slot).isNone).or store.oldestUnpinnedIndex

def create (draft : CheckpointDraft) (ledger : ActivityLedger) :
    Except CheckpointError (CheckpointId × CheckpointStore × ActivityLedger) := do
  draft.validate
  if ¬store.canCreate ∨ ¬ledger.canAppend then .error .capacity
  else if store.nextId = 0 ∨ store.nextId = lastId then .error .invalidId
  else match store.destination with
    | none => .error .capacity
    | some slot => do
      let event ← draft.creationActivity store.nextId
      let (_, after) ← (ledger.append event).mapError .activity
      let stored : CheckpointStore := {
        records := update store.records slot (some (draft.record store.nextId))
        length := if (store.records slot).isNone then store.length + 1 else store.length
        nextId := store.nextId + 1 }
      return (store.nextId, stored, after)

end CheckpointStore

inductive RestoreMode where
  | inPlace
  | asCopy
  deriving DecidableEq

def RestoreMode.code : RestoreMode → Nat
  | inPlace => 1
  | asCopy => 2

structure RestoreItem where
  objectId : ObjectId
  currentRevision : Option RevisionId
  targetRevision : RevisionId

inductive RestoreError where
  | activity (error : ActivityError)
  | checkpointUnavailable
  | emptySelection
  | tooManyItems
  | objectNotInCheckpoint
  | duplicatePlanObject
  | capacity
  | humanConfirmationRequired
  | externalEffectsNotAcknowledged

structure RestorePlan where
  id : UInt64
  checkpointId : CheckpointId
  backendRef : SnapshotBackendRef
  checkpointScope : CheckpointScope
  checkpointTransactionId : Option UInt64
  mode : RestoreMode
  items : List RestoreItem
  actor : Actor
  provenance : Provenance
  context : ActivityContext
  createdAt : Timestamp
  correlation : UInt64
  planEventId : EventId

structure RestorePlanRequest where
  id : UInt64
  checkpoint : CheckpointRecord
  actor : Actor
  provenance : Provenance
  context : ActivityContext
  createdAt : Timestamp
  mode : RestoreMode
  selectedObjects : List ObjectId
  current : List CheckpointObject
  correlation : UInt64

def planItem (request : RestorePlanRequest) (object : ObjectId) : Except RestoreError RestoreItem :=
  match request.checkpoint.objects.find? (·.objectId = object) with
  | none => .error .objectNotInCheckpoint
  | some kept => .ok {
      objectId := object
      currentRevision := (request.current.find? (·.objectId = object)).map (·.revisionId)
      targetRevision := kept.revisionId }

def planItems (request : RestorePlanRequest) : List ObjectId → List ObjectId → Except RestoreError (List RestoreItem)
  | _, [] => .ok []
  | seen, object :: rest =>
    if object ∈ seen then .error .duplicatePlanObject
    else do
      let item ← planItem request object
      return item :: (← planItems request (seen ++ [object]) rest)

def prepareRestorePlan (request : RestorePlanRequest) (ledger : ActivityLedger) :
    Except RestoreError (RestorePlan × ActivityLedger) :=
  let count := request.selectedObjects.length
  if request.checkpoint.validity ≠ .available ∨ request.checkpoint.backendRef = 0 then .error .checkpointUnavailable
  else if request.selectedObjects = [] then .error .emptySelection
  else if count > maxRestoreItems then .error .tooManyItems
  else if request.mode = .asCopy ∧ count > maxActivityObjects then .error .tooManyItems
  else if ¬ledger.canAppend then .error .capacity
  else do
    let items ← planItems request [] request.selectedObjects
    let event : ActivityDraft := {
      occurredAt := request.createdAt, actor := request.actor, context := request.context, action := .restorePlanned
      result := .succeeded, provenance := request.provenance, checkpointBefore := some request.checkpoint.id
      correlationId := some request.correlation }
    let event ← (event.withMetadata (.itemCount count)).mapError .activity
    let event ← (event.withMetadata (.restoreMode request.mode.code)).mapError .activity
    let (planEventId, after) ← (ledger.append event).mapError .activity
    return ({
      id := request.id, checkpointId := request.checkpoint.id, backendRef := request.checkpoint.backendRef
      checkpointScope := request.checkpoint.scope, checkpointTransactionId := request.checkpoint.transactionId
      mode := request.mode, items, actor := request.actor, provenance := request.provenance
      context := request.context, createdAt := request.createdAt, correlation := request.correlation, planEventId },
      after)

structure ConfirmedRestorePlan where
  plan : RestorePlan
  confirmedBy : Actor

variable (plan : RestorePlan)

def RestorePlan.confirm (confirmedBy : Actor) (acknowledgedExternalEffects : Bool) :
    Except RestoreError ConfirmedRestorePlan :=
  if confirmedBy.kind ≠ .user then .error .humanConfirmationRequired
  else if ¬acknowledgedExternalEffects then .error .externalEffectsNotAcknowledged
  else .ok { plan, confirmedBy }

structure RestoreBackendResult where
  succeeded : UInt8
  failed : UInt8
  failure : Option FailureCode
  createdObjects : List ObjectId
  bounded : createdObjects.length ≤ maxRestoreItems

namespace RestoreBackendResult

def allFailed (items : Nat) (failure : FailureCode) : RestoreBackendResult :=
  ⟨0, UInt8.ofNat items, some failure, [], Nat.zero_le _⟩

def eventResult (result : RestoreBackendResult) (expectedItems : Nat) : EventResult :=
  -- the sum saturates
  if min (result.succeeded.toNat + result.failed.toNat) 255 ≠ expectedItems then .failed .backendFailure
  else if result.failed = 0 then .succeeded
  else if result.succeeded = 0 then .failed (result.failure.getD .backendFailure)
  else .partialResult result.succeeded result.failed

end RestoreBackendResult

inductive RestoreBackendKind where
  | nagiTarget
  | hostInMemorySandbox

structure Collaborators where
  kind : RestoreBackendKind
  authorize : Actor → RestorePlan → Except FailureCode Unit
  captureBeforeRestore : RestorePlan → Except FailureCode SnapshotBackendRef
  execute : RestorePlan → RestoreBackendResult

/-- A call to the policy or to the backend; the last one with what is stored at that moment. -/
inductive Call where
  | authorized (actor : Actor) (answer : Except FailureCode Unit)
  | captured (answer : Except FailureCode SnapshotBackendRef)
  | executed (checkpoints : CheckpointStore) (activity : ActivityLedger) (result : RestoreBackendResult)

structure RestoreOutcome where
  eventId : EventId
  result : EventResult
  backend : RestoreBackendKind
  backendExecuted : Bool
  createdObjects : List ObjectId
  recoveryCheckpoint : Option CheckpointId

def CheckpointError.failureCode : CheckpointError → FailureCode
  | .capacity | .activity .capacity => .capacity
  | .activity _ => .backendFailure
  | _ => .validation

def addItem (objects : List CheckpointObject) (item : RestoreItem) : Except FailureCode (List CheckpointObject) :=
  match item.currentRevision with
  | none => .error .missingObject
  | some revision => (withObject objects ⟨item.objectId, revision⟩).mapError CheckpointError.failureCode

def createRecoveryCheckpoint (occurredAt : Timestamp) (backendRef : SnapshotBackendRef)
    (checkpoints : CheckpointStore) (activity : ActivityLedger) :
    Except FailureCode (CheckpointId × CheckpointStore × ActivityLedger) := do
  let objects ← plan.items.foldlM addItem []
  let draft : CheckpointDraft := {
    createdAt := occurredAt, actor := plan.actor, context := plan.context, provenance := plan.provenance
    scope := plan.checkpointScope, backendRef, objects, transactionId := plan.checkpointTransactionId }
  (checkpoints.create draft activity).mapError CheckpointError.failureCode

/-- How far a restore came before its result is recorded. -/
structure Attempt where
  result : RestoreBackendResult
  backendExecuted : Bool
  recovery : Option CheckpointId
  checkpoints : CheckpointStore
  activity : ActivityLedger
  calls : List Call

variable (confirmation : ConfirmedRestorePlan)

def attemptRestore (occurredAt : Timestamp) (collaborators : Collaborators)
    (checkpoints : CheckpointStore) (activity : ActivityLedger) : Attempt :=
  let plan := confirmation.plan
  let failed (failure : FailureCode) := RestoreBackendResult.allFailed plan.items.length failure
  let answer := collaborators.authorize confirmation.confirmedBy plan
  let calls := [Call.authorized confirmation.confirmedBy answer]
  match answer with
  | .error failure => ⟨failed failure, false, none, checkpoints, activity, calls⟩
  | .ok () =>
    if plan.mode = .asCopy then
      let result := collaborators.execute plan
      ⟨result, true, none, checkpoints, activity, calls ++ [.executed checkpoints activity result]⟩
    else if ¬activity.canAppendEvents 2 ∨ ¬checkpoints.canCreate then
      ⟨failed .capacity, false, none, checkpoints, activity, calls⟩
    else
      let captured := collaborators.captureBeforeRestore plan
      let calls := calls ++ [.captured captured]
      match captured with
      | .error failure => ⟨failed failure, true, none, checkpoints, activity, calls⟩
      | .ok backendRef =>
        match createRecoveryCheckpoint plan occurredAt backendRef checkpoints activity with
        | .error failure => ⟨failed failure, true, none, checkpoints, activity, calls⟩
        | .ok (recovery, checkpoints, activity) =>
          if ¬activity.canAppend then ⟨failed .capacity, true, some recovery, checkpoints, activity, calls⟩
          else
            let result := collaborators.execute plan
            ⟨result, true, some recovery, checkpoints, activity, calls ++ [.executed checkpoints activity result]⟩

def refsValid (result : RestoreBackendResult) : Bool :=
  match plan.mode with
  | .inPlace => result.createdObjects = []
  | .asCopy => result.createdObjects.length = result.succeeded.toNat ∧
      result.createdObjects.length ≤ maxActivityObjects ∧ result.createdObjects.Nodup ∧
      plan.items.all fun item => item.objectId ∉ result.createdObjects

def resultOf (result : RestoreBackendResult) : EventResult :=
  if refsValid plan result then result.eventResult plan.items.length else .failed .backendFailure

def resultEvent (occurredAt : Timestamp) (attempt : Attempt) : Except ActivityError ActivityDraft := do
  let plan := confirmation.plan
  let result := resultOf plan attempt.result
  let restored := if result = .succeeded then some plan.checkpointId else none
  let event : ActivityDraft := {
    occurredAt, actor := plan.actor, context := plan.context, result, provenance := plan.provenance
    action := if result = .succeeded then .restoreApplied else .restoreFailed
    correlationId := some plan.correlation, causalParent := some plan.planEventId
    checkpointBefore := attempt.recovery
    checkpointAfter := if attempt.recovery.isSome ∨ plan.mode = .asCopy then restored else none }
  let event ← event.withMetadata (.confirmedByActor confirmation.confirmedBy.id)
  let objects := (plan.items.take maxActivityObjects).map (·.objectId)
  let event ← match plan.mode with
    | .inPlace => objects.foldlM ActivityDraft.withTarget event
    | .asCopy => do
      attempt.result.createdObjects.foldlM ActivityDraft.withTarget
        (← objects.foldlM ActivityDraft.withSource event)
  if result = .succeeded then return event
  else
    let event ← event.withMetadata (.failureCode (attempt.result.failure.getD .backendFailure).number)
    event.withMetadata (.restoreMode plan.mode.code)

structure Restored where
  outcome : Except RestoreError RestoreOutcome
  checkpoints : CheckpointStore
  activity : ActivityLedger
  calls : List Call

def executeRestore (occurredAt : Timestamp) (collaborators : Collaborators)
    (checkpoints : CheckpointStore) (activity : ActivityLedger) : Restored :=
  if ¬activity.canAppend then ⟨.error .capacity, checkpoints, activity, []⟩
  else
    let attempt := attemptRestore confirmation occurredAt collaborators checkpoints activity
    match do attempt.activity.append (← resultEvent confirmation occurredAt attempt) with
    | .error error => ⟨.error (.activity error), attempt.checkpoints, attempt.activity, attempt.calls⟩
    | .ok (eventId, recorded) =>
      let outcome : RestoreOutcome := {
        eventId, result := resultOf confirmation.plan attempt.result, backend := collaborators.kind
        backendExecuted := attempt.backendExecuted, createdObjects := attempt.result.createdObjects
        recoveryCheckpoint := attempt.recovery }
      ⟨.ok outcome, attempt.checkpoints, recorded, attempt.calls⟩

variable {request : RestorePlanRequest} {items : List RestoreItem}

theorem planItems_ok {seen objects : List ObjectId} (planned : planItems request seen objects = .ok items) :
    items.map (·.objectId) = objects ∧ objects.Nodup ∧ ∀ object ∈ objects, object ∉ seen := by
  induction objects generalizing seen items with
  | nil =>
    cases planned
    exact ⟨rfl, nodup_nil, nofun⟩
  | cons object rest ih =>
    simp only [planItems, unless_ok_iff, bind_ok_iff] at planned
    obtain ⟨fresh, item, found, others, later, same⟩ := planned
    cases same
    obtain ⟨ids, distinct, apart⟩ := ih later
    have named : item.objectId = object := by
      revert found
      fun_cases planItem request object with
      | case1 => nofun
      | case2 kept =>
        rintro ⟨⟩
        rfl
    refine ⟨by simp [ids, named], nodup_cons.mpr ⟨fun again => ?_, distinct⟩, forall_mem_cons.mpr ⟨fresh, ?_⟩⟩
    · exact apart object again (by simp)
    · exact fun other member known => apart other member (mem_append_left _ known)

structure RestorePlan.WellFormed : Prop where
  nonempty : plan.items ≠ []
  bounded : plan.items.length ≤ maxRestoreItems
  distinct : (plan.items.map (·.objectId)).Nodup

variable {ledger after : ActivityLedger} {plan}

theorem prepareRestorePlan_wellFormed (prepared : prepareRestorePlan request ledger = .ok (plan, after)) :
    plan.WellFormed := by
  simp only [prepareRestorePlan, unless_ok_iff, bind_ok_iff] at prepared
  obtain ⟨-, some, few, -, -, items, planned, _, -, _, -, _, -, same⟩ := prepared
  cases same
  obtain ⟨ids, distinct, -⟩ := planItems_ok planned
  have length : items.length = request.selectedObjects.length := by rw [← ids, length_map]
  have held : items ≠ [] := fun none => some (by rw [← ids, none, map_nil])
  exact ⟨held, length ▸ Nat.not_lt.mp few, ids ▸ distinct⟩

def CheckpointObject.kept (object : CheckpointObject) : ObjectId × Option RevisionId :=
  (object.objectId, some object.revisionId)

def RestoreItem.held (item : RestoreItem) : ObjectId × Option RevisionId := (item.objectId, item.currentRevision)

theorem addItems_ok {start objects : List CheckpointObject} (distinct : (items.map (·.objectId)).Nodup)
    (apart : ∀ item ∈ items, ∀ object ∈ start, object.objectId ≠ item.objectId)
    (added : items.foldlM addItem start = .ok objects) :
    objects.map CheckpointObject.kept = start.map CheckpointObject.kept ++ items.map RestoreItem.held := by
  induction items generalizing start with
  | nil =>
    cases added
    simp
  | cons item rest ih =>
    rw [foldlM_cons, bind_ok_iff] at added
    obtain ⟨longer, here, later⟩ := added
    obtain ⟨fresh, distinct⟩ := nodup_cons.mp distinct
    have unknown : ¬start.any (·.objectId = item.objectId) := by
      simpa using fun object => apart item mem_cons_self object
    have grown : ∃ revision, item.currentRevision = some revision ∧ longer = start ++ [⟨item.objectId, revision⟩] := by
      unfold addItem at here
      split at here
      · cases here
      next revision current =>
      rw [withObject, if_neg unknown] at here
      split at here
      · cases here
      · cases here
        exact ⟨revision, current, rfl⟩
    obtain ⟨revision, current, rfl⟩ := grown
    rw [ih distinct ?_ later]
    · simp [CheckpointObject.kept, RestoreItem.held, current]
    · intro other member object known
      obtain known | rfl := by simpa using known
      · exact apart other (mem_cons_of_mem _ member) object known
      · exact fun same => fresh (mem_map.mpr ⟨other, member, same.symm⟩)

theorem foldl_pickOldest {slots : Nat} {entries : List (Fin slots × CheckpointRecord)}
    {best : Option (Fin slots × CheckpointRecord)} {entry : Fin slots × CheckpointRecord}
    (picked : entries.foldl CheckpointStore.pickOldest best = some entry) : best = some entry ∨ entry ∈ entries := by
  induction entries generalizing best with
  | nil => exact .inl picked
  | cons first rest ih =>
    obtain here | later := ih picked
    · cases best with
      | none => exact .inr (Option.some.inj here ▸ mem_cons_self)
      | some oldest =>
        rw [CheckpointStore.pickOldest, Option.some.injEq] at here
        split at here
        · exact .inr (here ▸ mem_cons_self)
        · exact .inl (congrArg some here)
    · exact .inr (mem_cons_of_mem _ later)

theorem destination_unpinned {store : CheckpointStore} {slot : Fin maxCheckpoints}
    (chosen : store.destination = some slot)
    {record : CheckpointRecord} (stored : store.records slot = some record) : record.pinned = false := by
  obtain free | ⟨-, oldest⟩ := Option.or_eq_some_iff.mp chosen
  · have none := find?_some free
    simp [stored] at none
  · obtain ⟨⟨place, other⟩, picked, rfl⟩ := Option.map_eq_some_iff.mp oldest
    obtain none | member := foldl_pickOldest picked
    · cases none
    obtain ⟨_, -, found⟩ := mem_filterMap.mp member
    obtain ⟨held, there, kept⟩ := Option.bind_eq_some_iff.mp found
    split at kept
    · cases kept
    · next unpinned =>
      cases kept
      cases stored.symm.trans there
      simpa using unpinned

/-- What is stored when the objects of a plan are about to be replaced: a new checkpoint of their present revisions,
the event of its creation, room for one more event, and every pinned checkpoint. -/
structure Recoverable (plan : RestorePlan) (reference : SnapshotBackendRef) (before : CheckpointStore)
    (ledger : ActivityLedger) (checkpoints : CheckpointStore) (activity : ActivityLedger) : Prop where
  stored : ∃ slot record, checkpoints.records = update before.records slot (some record) ∧
    record.id = before.nextId ∧ record.backendRef = reference ∧
    record.objects.map CheckpointObject.kept = plan.items.map RestoreItem.held
  recorded : ∃ event, activity.events = ledger.events ++ [event] ∧ event.content.action = .checkpointCreated ∧
    event.content.checkpointAfter = some before.nextId
  room : activity.canAppend
  pinned : ∀ slot record, before.records slot = some record → record.pinned → checkpoints.records slot = some record

theorem append_ok {draft : ActivityDraft} {id : EventId} (appended : ledger.append draft = .ok (id, after)) :
    after.events = ledger.events ++ [⟨id, draft⟩] := by
  unfold ActivityLedger.append at appended
  split at appended
  · obtain ⟨_, -, same⟩ := bind_ok_iff.mp appended
    cases same
    rfl
  · cases appended

theorem createRecoveryCheckpoint_ok (wellFormed : plan.WellFormed) {occurredAt : Timestamp}
    {reference : SnapshotBackendRef} {before checkpoints : CheckpointStore} {activity : ActivityLedger}
    {recovery : CheckpointId}
    (created : createRecoveryCheckpoint plan occurredAt reference before ledger = .ok (recovery, checkpoints, activity))
    (room : activity.canAppend) : Recoverable plan reference before ledger checkpoints activity ∧
      ∃ slot record, before.destination = some slot ∧
        checkpoints.records = update before.records slot (some record) := by
  simp only [createRecoveryCheckpoint, bind_ok_iff, mapError_ok_iff, CheckpointStore.create, unless_ok_iff] at created
  obtain ⟨objects, added, _, -, -, -, created⟩ := created
  split at created
  · cases created
  next slot chosen =>
  simp only [bind_ok_iff, CheckpointDraft.creationActivity, mapError_ok_iff, ActivityDraft.withMetadata,
    unless_ok_iff] at created
  obtain ⟨event, ⟨-, made⟩, ⟨id, after⟩, appended, same⟩ := created
  cases made
  cases same
  refine ⟨⟨⟨slot, _, rfl, rfl, rfl, addItems_ok wellFormed.distinct (by simp) added⟩, ⟨_, append_ok appended, rfl, rfl⟩,
    room, fun other record stored pinned => ?_⟩, slot, _, chosen, rfl⟩
  have unpinned : other ≠ slot := by
    rintro rfl
    simp [destination_unpinned chosen stored] at pinned
  simpa [update_of_ne unpinned] using stored

def Call.isExecution : Call → Bool
  | .executed _ _ _ => true
  | _ => false

/-- The backend was not asked to change anything, and nothing is reported as done. -/
def NotExecuted (plan : RestorePlan) (attempt : Attempt) : Prop :=
  (∀ call ∈ attempt.calls, call.isExecution = false) ∧
    ∃ failure, attempt.result = .allFailed plan.items.length failure

/-- The backend was asked once, at the end, with leave to do so and, in place, with a way back. -/
def Executed (checkpoints : CheckpointStore) (activity : ActivityLedger) (attempt : Attempt) : Prop :=
  ∃ front, attempt.calls = front ++ [.executed attempt.checkpoints attempt.activity attempt.result] ∧
    (∀ call ∈ front, call.isExecution = false) ∧ .authorized confirmation.confirmedBy (.ok ()) ∈ front ∧
    (confirmation.plan.mode = .inPlace → ∃ reference, .captured (.ok reference) ∈ front ∧
      Recoverable confirmation.plan reference checkpoints activity attempt.checkpoints attempt.activity)

/-- A restore up to its result: what the backend finds stored, if it is asked. -/
theorem attemptRestore_inv (occurredAt : Timestamp) (collaborators : Collaborators) (checkpoints : CheckpointStore)
    (activity : ActivityLedger) {attempt : Attempt}
    (attempted : attemptRestore confirmation occurredAt collaborators checkpoints activity = attempt) :
    NotExecuted confirmation.plan attempt ∨ ∃ front,
      attempt.calls = front ++ [.executed attempt.checkpoints attempt.activity attempt.result] ∧
        (∀ call ∈ front, call.isExecution = false) ∧ .authorized confirmation.confirmedBy (.ok ()) ∈ front ∧
        (confirmation.plan.mode = .asCopy ∧ attempt.checkpoints = checkpoints ∧ attempt.activity = activity ∨
          confirmation.plan.mode = .inPlace ∧ ∃ reference recovery, .captured (.ok reference) ∈ front ∧
            createRecoveryCheckpoint confirmation.plan occurredAt reference checkpoints activity =
              .ok (recovery, attempt.checkpoints, attempt.activity) ∧ attempt.activity.canAppend) := by
  subst attempted
  fun_cases attemptRestore confirmation occurredAt collaborators checkpoints activity with
  | case2 plan _ calls leave copy =>
    exact .inr ⟨_, rfl, by simp [calls, Call.isExecution], by simp [calls, leave], .inl ⟨copy, rfl, rfl⟩⟩
  | case7 plan _ first leave place _ _ calls reference captured recovery stored recorded created room =>
    have inPlace : confirmation.plan.mode = .inPlace := by
      cases mode : confirmation.plan.mode with
      | inPlace => rfl
      | asCopy => exact absurd mode place
    exact .inr ⟨_, rfl, by simp [calls, first, Call.isExecution], by simp [calls, first, leave],
      .inr ⟨inPlace, reference, _, by simp [calls, captured], created, not_not.mp room⟩⟩
  | _ => exact .inl ⟨by simp +zetaDelta [Call.isExecution], _, rfl⟩

theorem attemptRestore_cases (wellFormed : confirmation.plan.WellFormed)
    (occurredAt : Timestamp) (collaborators : Collaborators) (checkpoints : CheckpointStore)
    (activity : ActivityLedger) :
    NotExecuted confirmation.plan (attemptRestore confirmation occurredAt collaborators checkpoints activity) ∨
      Executed confirmation checkpoints activity
        (attemptRestore confirmation occurredAt collaborators checkpoints activity) := by
  refine (attemptRestore_inv confirmation occurredAt collaborators checkpoints activity rfl).imp_right ?_
  rintro ⟨front, calls, quiet, leave, ⟨copy, -⟩ | ⟨-, reference, _, captured, created, room⟩⟩
  · exact ⟨front, calls, quiet, leave, fun inPlace => absurd (copy.symm.trans inPlace) nofun⟩
  · exact ⟨front, calls, quiet, leave, fun _ =>
      ⟨reference, captured, (createRecoveryCheckpoint_ok wellFormed created room).1⟩⟩

theorem resultOf_allFailed (wellFormed : plan.WellFormed) (failure : FailureCode) :
    resultOf plan (.allFailed plan.items.length failure) ≠ .succeeded := by
  have some := length_pos_iff.mpr wellFormed.nonempty
  have few : plan.items.length ≤ 8 := wellFormed.bounded
  have count : (UInt8.ofNat plan.items.length).toNat = plan.items.length := by simp; omega
  have nonzero : UInt8.ofNat plan.items.length ≠ 0 := fun zero => by
    rw [zero] at count
    simp at count
    omega
  unfold resultOf
  split
  · simp only [RestoreBackendResult.eventResult, RestoreBackendResult.allFailed, if_neg nonzero]
    split <;> simp
  · simp

variable {result : RestoreBackendResult}

theorem resultOf_succeeded (wellFormed : plan.WellFormed) (succeeded : resultOf plan result = .succeeded) :
    result.succeeded.toNat = plan.items.length ∧ result.failed = 0 ∧ (plan.mode = .asCopy →
      result.createdObjects.length = plan.items.length ∧ result.createdObjects.Nodup ∧
        ∀ item ∈ plan.items, item.objectId ∉ result.createdObjects) := by
  have few : plan.items.length ≤ 8 := wellFormed.bounded
  unfold resultOf at succeeded
  split at succeeded
  · next valid =>
    revert succeeded
    fun_cases RestoreBackendResult.eventResult result plan.items.length with
    | case2 counts none =>
      intro _
      have all : result.succeeded.toNat = plan.items.length := by
        simp [none] at counts
        omega
      refine ⟨all, none, fun copy => ?_⟩
      simp only [refsValid, copy, decide_eq_true_eq, all_eq_true] at valid
      exact ⟨valid.1.trans all, valid.2.2.1, valid.2.2.2⟩
    | _ => nofun
  · cases succeeded

theorem executeRestore_calls (confirmation : ConfirmedRestorePlan) (occurredAt : Timestamp)
    (collaborators : Collaborators) (checkpoints : CheckpointStore) (activity : ActivityLedger) :
    let run := executeRestore confirmation occurredAt collaborators checkpoints activity
    let attempt := attemptRestore confirmation occurredAt collaborators checkpoints activity
    run.calls = [] ∧ run.outcome = .error .capacity ∨ run.calls = attempt.calls ∧ ∀ outcome, run.outcome = .ok outcome →
      outcome.result = resultOf confirmation.plan attempt.result ∧
        outcome.createdObjects = attempt.result.createdObjects := by
  intro run attempt
  unfold run
  fun_cases executeRestore confirmation occurredAt collaborators checkpoints activity with
  | case1 => exact .inl ⟨rfl, rfl⟩
  | case2 => exact .inr ⟨rfl, nofun⟩
  | case3 =>
    refine .inr ⟨rfl, ?_⟩
    rintro _ ⟨⟩
    exact ⟨rfl, rfl⟩

theorem append_execution_inj {front earlier rest : List Call} {last : Call}
    (quiet : ∀ call ∈ front, call.isExecution = false) {now : CheckpointStore} {later : ActivityLedger}
    (same : front ++ [last] = earlier ++ .executed now later result :: rest) :
    earlier = front ∧ last = .executed now later result ∧ rest = [] := by
  obtain ⟨between, rfl, tail⟩ | ⟨excess, rfl, tail⟩ := append_eq_append_iff.mp same
  · cases between with
    | nil => simpa using tail
    | cons call between => simp at tail
  · cases excess with
    | nil => simpa [eq_comm] using tail
    | cons call excess =>
      obtain ⟨rfl, -⟩ := cons.inj tail
      have impossible := quiet _ (mem_append_right _ mem_cons_self)
      cases impossible

/-- The backend changes objects at most once, only with leave, and in place only when the present revisions can be
brought back; a restore succeeds only if every item of its plan did. -/
theorem restore_guarded (request : RestorePlanRequest) (ledger planned : ActivityLedger) (plan : RestorePlan)
    (prepared : prepareRestorePlan request ledger = .ok (plan, planned)) (confirmedBy : Actor) (acknowledged : Bool)
    (confirmation : ConfirmedRestorePlan) (confirmed : plan.confirm confirmedBy acknowledged = .ok confirmation)
    (occurredAt : Timestamp) (collaborators : Collaborators) (checkpoints : CheckpointStore) (activity : ActivityLedger)
    (restored : Restored) (ran : executeRestore confirmation occurredAt collaborators checkpoints activity = restored) :
    (restored.calls.filter Call.isExecution).length ≤ 1 ∧
    (∀ front now later result rest, restored.calls = front ++ .executed now later result :: rest →
      .authorized confirmedBy (.ok ()) ∈ front ∧
        (plan.mode = .inPlace → ∃ reference, .captured (.ok reference) ∈ front ∧
          Recoverable plan reference checkpoints activity now later)) ∧
    ∀ outcome, restored.outcome = .ok outcome → outcome.result = .succeeded →
      ∃ now later result, .executed now later result ∈ restored.calls ∧
        result.succeeded.toNat = plan.items.length ∧ result.failed = 0 ∧
        outcome.createdObjects = result.createdObjects ∧ (plan.mode = .asCopy →
          result.createdObjects.length = plan.items.length ∧ result.createdObjects.Nodup ∧
            ∀ item ∈ plan.items, item.objectId ∉ result.createdObjects) := by
  have wellFormed := prepareRestorePlan_wellFormed prepared
  simp only [RestorePlan.confirm, unless_ok_iff] at confirmed
  obtain ⟨-, -, same⟩ := confirmed
  cases same
  subst ran
  obtain ⟨none, refused⟩ | ⟨calls, ended⟩ := executeRestore_calls ⟨plan, confirmedBy⟩ occurredAt collaborators
    checkpoints activity
  · rw [none, refused]
    exact ⟨by simp, by simp, nofun⟩
  rw [calls]
  obtain ⟨quiet, failure, nothing⟩ | ⟨front, made, quiet, leave, back⟩ :=
    attemptRestore_cases ⟨plan, confirmedBy⟩ wellFormed occurredAt collaborators checkpoints activity
  · refine ⟨?_, fun front now later result rest same => ?_, fun outcome done succeeded => ?_⟩
    · rw [filter_eq_nil_iff.mpr fun call member => by simp [quiet call member]]
      exact Nat.zero_le 1
    · have executed := quiet (.executed now later result) (same ▸ by simp)
      cases executed
    · rw [(ended outcome done).1, nothing] at succeeded
      exact absurd succeeded (resultOf_allFailed wellFormed failure)
  · rw [made]
    refine ⟨?_, fun earlier now later result rest same => ?_, fun outcome done succeeded => ?_⟩
    · rw [filter_append, filter_eq_nil_iff.mpr fun call member => by simp [quiet call member]]
      exact length_filter_le _ _
    · obtain ⟨rfl, last, -⟩ := append_execution_inj quiet same
      cases last
      exact ⟨leave, back⟩
    · obtain ⟨result, created⟩ := ended outcome done
      obtain ⟨all, none, copies⟩ := resultOf_succeeded wellFormed (result.symm.trans succeeded)
      exact ⟨_, _, _, mem_append_right _ (mem_singleton.mpr rfl), all, none, created, copies⟩

def person : Actor := ⟨1, .user⟩

def noContext : ActivityContext := ⟨1, 1, 1, none, none⟩

def emptyLedger : ActivityLedger := ⟨[], 1, Nat.zero_le _⟩

def oldVersion : CheckpointRecord := {
  createdAt := ⟨0, 0⟩, actor := person, context := noContext, provenance := .direct none, scope := .document
  backendRef := 5, objects := [⟨7, 1⟩], transactionId := none, id := 1, validity := .available, pinned := false }

def backToOld : RestorePlanRequest :=
  ⟨1, oldVersion, person, .direct none, noContext, ⟨1, 0⟩, .inPlace, [7], [⟨7, 2⟩], 1⟩

def willing : Collaborators :=
  ⟨.nagiTarget, fun _ _ => .ok (), fun _ => .ok 9, fun _ => ⟨1, 0, none, [], Nat.zero_le _⟩⟩

/-- Every slot is taken, the first one by a checkpoint that is pinned. -/
def fullStore : CheckpointStore where
  records slot := some { oldVersion.record (UInt64.ofNat (slot.val + 1)) with pinned := slot.val = 0 }
  length := maxCheckpoints
  nextId := 65

def oldPlan : RestorePlan := {
  id := 1, checkpointId := 1, backendRef := 5, checkpointScope := .document, checkpointTransactionId := none
  mode := .inPlace, items := [⟨7, some 2, 1⟩], actor := person, provenance := .direct none, context := noContext
  createdAt := ⟨1, 0⟩, correlation := 1, planEventId := 1 }

def plannedLedger : ActivityLedger :=
  ((prepareRestorePlan backToOld emptyLedger).toOption.map Prod.snd).getD emptyLedger

def broughtBack : Restored := executeRestore ⟨oldPlan, person⟩ ⟨2, 0⟩ willing fullStore plannedLedger

theorem restored_in_place :
    prepareRestorePlan backToOld emptyLedger = .ok (oldPlan, plannedLedger) ∧
      oldPlan.confirm person true = .ok ⟨oldPlan, person⟩ ∧
      broughtBack.outcome.toOption.map (·.result) = some .succeeded ∧
      ∃ front now later result rest reference, broughtBack.calls = front ++ .executed now later result :: rest ∧
        .captured (.ok reference) ∈ front ∧ Recoverable oldPlan reference fullStore plannedLedger now later := by
  refine ⟨rfl, rfl, by decide +kernel, ?_⟩
  have guarded := restore_guarded backToOld emptyLedger plannedLedger oldPlan rfl person true ⟨oldPlan, person⟩ rfl
    ⟨2, 0⟩ willing fullStore plannedLedger broughtBack rfl
  have ran : broughtBack.calls.any Call.isExecution = true := by decide +kernel
  obtain ⟨call, member, executed⟩ := any_eq_true.mp ran
  cases call with
  | authorized | captured => cases executed
  | executed now later result =>
    obtain ⟨front, rest, same⟩ := append_of_mem member
    obtain ⟨reference, captured, recoverable⟩ := (guarded.2.1 front now later result rest same).2 rfl
    exact ⟨front, now, later, result, rest, reference, same, captured, recoverable⟩

end Nagi.History
