import Nagi.Kernel.UserIpc.Reclamation

/-! Where capabilities come from and where they go. -/

namespace Nagi.Kernel.UserIpcState

open Lib HandleTable Function

variable {before after : UserIpcState}

def Fresh (state : UserIpcState) (object : ObjectId) : Prop :=
  state.registry.refs object = 0 ∧ ¬state.registry.Spent object

/-- Where a capability of a later state can come from: from one for the same
object with at least its rights, or from the creation of a channel. -/
inductive Origin (before : UserIpcState) (capability : Capability) : Prop where
  | derived {source : Capability} (member : source ∈ before.capabilities)
      (object : source.object = capability.object) (weaker : source.rights.contains capability.rights = true) :
      Origin before capability
  | created (fresh : before.Fresh capability.object) (rights : endpointRights.contains capability.rights = true) :
      Origin before capability

variable {capability : Capability}

theorem Origin.self (member : capability ∈ before.capabilities) : Origin before capability :=
  .derived member rfl capability.rights.contains_self

variable {i : Fin maxUserProcesses} {k : Fin handleCapacity}

theorem Origin.of_holds (holds : before.Holds i k capability) : Origin before capability :=
  .self (mem_capabilities.mpr (.inl ⟨i, k, holds⟩))

variable {c : Fin channelCapacity}

theorem Origin.of_queued (queued : before.Queued c capability) : Origin before capability :=
  .self (mem_capabilities.mpr (.inr ⟨c, queued⟩))

theorem Collected.queued_of (collected : Collected before after) (queued : after.Queued c capability) :
    before.Queued c capability := by
  unfold Queued at queued ⊢
  rw [collected.channels c] at queued
  split at queued
  · exact queued
  · cases queued

theorem Transition.origin_of_holds (transition : Transition before after) (holds : after.Holds i k capability) :
    Origin before capability := by
  cases transition with
  | booted same | churned same => exact .of_holds ((same.holds_iff i k _).mp holds)
  | withdrawn same | blocked same => exact .of_holds ((holds_congr i k _ same.unchanged.2.1).mp holds)
  | @created _ _ _ pair _ _ _ _ created =>
    rcases (created.holds_iff i k _).mp holds with earlier | ⟨_, ⟨_, rfl⟩ | ⟨_, rfl⟩⟩
    · exact .of_holds earlier
    · exact .created (created.fresh pair.endpointA (by simp [ChannelPair.owned, ChannelPair.endpoints]))
        (Rights.contains_self _)
    · exact .created (created.fresh pair.endpointB (by simp [ChannelPair.owned, ChannelPair.endpoints]))
        (Rights.contains_self _)
  | sent fewer | dropped fewer | exited fewer => exact .of_holds ((fewer.holds_iff i k _).mp holds).1
  | received received =>
    rcases received.holds_of i k _ holds with earlier | delivered
    · exact .of_holds earlier
    · exact .of_queued ((received.queued_iff _ _).mpr (.inr ⟨rfl, delivered⟩))
  | spawned spawned =>
    rcases (spawned.holds_iff i k _).mp holds with ⟨earlier, _⟩ | ⟨_, _, rfl⟩
    · exact .of_holds earlier
    · have parent := (holds_of_registered spawned.registered).mpr spawned.emptied.held
      exact .derived (mem_capabilities.mpr (.inl ⟨0, _, parent⟩)) rfl spawned.weaker
  | collected collected => exact .of_holds ((holds_congr i k _ collected.processes).mp holds)

theorem Transition.origin_of_queued (transition : Transition before after) (queued : after.Queued c capability) :
    Origin before capability := by
  cases transition with
  | booted same | dropped same | spawned same | exited same =>
    exact .of_queued ((queued_congr _ same.channels_eq c).mp queued)
  | churned churned => exact .of_queued ((queued_congr _ churned.channels c).mp queued)
  | withdrawn same | blocked same => exact .of_queued ((queued_congr _ same.unchanged.2.2 c).mp queued)
  | created created => exact .of_queued ((created.queued_iff _ c).mp queued)
  | sent sent =>
    rcases (sent.queued_iff _ c).mp queued with earlier | ⟨_, carried⟩
    · exact .of_queued earlier
    · obtain ⟨_, delivered, _⟩ := sent.sent
      obtain ⟨_, _, source, entry, _, weaker, same⟩ := delivered.moves.source_of_token carried
      cases same
      obtain ⟨k, _, present, _⟩ := entry_eq_ok.mp entry
      have holds := (holds_of_registered sent.registered).mpr present
      exact .derived (mem_capabilities.mpr (.inl ⟨_, k, holds⟩)) rfl weaker
  | received received => exact .of_queued ((received.queued_iff _ c).mpr (.inl queued))
  | collected collected => exact .of_queued (collected.queued_of queued)

theorem Transition.origin (transition : Transition before after) (member : capability ∈ after.capabilities) :
    Origin before capability := by
  rcases mem_capabilities.mp member with ⟨i, k, holds⟩ | ⟨c, queued⟩
  · exact transition.origin_of_holds holds
  · exact transition.origin_of_queued queued

theorem Fresh.back (evolves : before.registry.Evolves after.registry) {object : ObjectId}
    (fresh : after.Fresh object) : before.Fresh object := by
  refine ⟨Nat.eq_zero_of_not_pos fun live => ?_, fun spent => fresh.2 (evolves.spent object spent)⟩
  rcases evolves.live object live with later | spent
  · rw [fresh.1] at later
    exact absurd later (Nat.lt_irrefl 0)
  · exact fresh.2 spent

theorem Chain.origin (chain : Chain before after) (member : capability ∈ after.capabilities) :
    Origin before capability := by
  induction chain generalizing capability with
  | refl => exact .self member
  | tail earlier last ih =>
    cases last.origin member with
    | derived source object weaker =>
      cases ih source with
      | derived first same stronger =>
        exact .derived first (same.trans object) (Rights.contains_trans stronger weaker)
      | created fresh rights =>
        rw [object] at fresh
        exact .created fresh (Rights.contains_trans rights weaker)
    | created fresh rights => exact .created (fresh.back (Chain.evolves earlier)) rights

variable {state : UserIpcState}

theorem step_origin (invariant : Invariant state) (operation : Operation)
    (member : capability ∈ (state.step operation).2.capabilities) : Origin state capability :=
  Chain.origin (step_chain invariant operation) member

def RightsBounded (state : UserIpcState) : Prop :=
  ∀ capability ∈ state.capabilities, endpointRights.contains capability.rights = true

theorem step_rightsBounded (state : UserIpcState) (operation : Operation) (invariant : Invariant state)
    (bounded : RightsBounded state) : RightsBounded (state.step operation).2 := by
  intro capability member
  cases step_origin invariant operation member with
  | derived source _ weaker => exact Rights.contains_trans (bounded _ source) weaker
  | created _ rights => exact rights

theorem rightsBounded_new : RightsBounded new := by
  intro capability member
  rcases mem_capabilities.mp member with ⟨_, _, _, registered, _⟩ | ⟨_, queued⟩
  · cases registered
  · cases queued

theorem run_rightsBounded (operations : List Operation) : RightsBounded (run operations) :=
  Runs.run_invariant_under step_invariant step_rightsBounded invariant_new rightsBounded_new operations

theorem Invariant.named_le_one (invariant : Invariant state) (object : ObjectId) : state.namedCount object ≤ 1 :=
  Nat.le_trans (invariant.confined object)
    (Nat.le_trans (state.endpointCount_le object) (invariant.ledger.single object))

theorem Invariant.capability_unique (invariant : Invariant state) {first second : Capability}
    (left : first ∈ state.capabilities) (right : second ∈ state.capabilities) (same : first.object = second.object) :
    first = second := by
  have bound := invariant.named_le_one second.object
  rw [← count_capabilities] at bound
  exact Table.eq_of_count_map_le_one bound left right same rfl

theorem step_rights (invariant : Invariant state) (operation : Operation) {later : Capability}
    (held : capability ∈ state.capabilities) (member : later ∈ (state.step operation).2.capabilities)
    (same : later.object = capability.object) : capability.rights.contains later.rights = true := by
  cases step_origin invariant operation member with
  | derived source object weaker =>
    rw [invariant.capability_unique held source (same.symm.trans object.symm)]
    exact weaker
  | created fresh _ =>
    -- a capability's object is alive, so it is not one the call has just made
    have named := named_of_mem held
    have balanced := invariant.ledger.balanced capability.object
    rw [same] at fresh
    have dead := fresh.1
    omega

def Kept (before after : UserIpcState) (i : Fin maxUserProcesses) (k : Fin handleCapacity)
    (capability : Capability) : Prop :=
  after.Holds i k capability ∧ after.ids i = before.ids i

section
variable (holds : before.Holds i k capability)
include holds

theorem Kept.refl : Kept before before i k capability := ⟨holds, rfl⟩

theorem kept_of_processes (processes : after.processes = before.processes) : Kept before after i k capability :=
  ⟨(holds_congr i k capability processes).mpr holds, ids_congr processes i⟩

theorem Boots.kept (boots : Boots before after) : Kept before after i k capability := by
  rcases boots with rfl | ⟨_, booted⟩
  · exact .refl holds
  · refine ⟨(booted.holds_iff i k capability).mpr holds, ?_⟩
    rw [ids_of_update booted.processes_eq, if_neg]
    rintro rfl
    obtain ⟨_, registered, _⟩ := holds
    rw [booted.vacant] at registered
    cases registered

theorem Churned.kept (churned : Churned before after) : Kept before after i k capability :=
  ⟨(churned.holds_iff i k capability).mpr holds, churned.ids_eq i⟩

theorem Created.kept {j c process pair middle handles first second}
    (created : Created before after j c process pair middle handles first second) :
    Kept before after i k capability :=
  ⟨(created.holds_iff i k capability).mpr (.inl holds), ids_of_handles created.processes_eq created.registered rfl i⟩

theorem Received.kept {j c process process' pair pair' endpoint message source index entry}
    (received : Received before after j c process process' pair pair' endpoint message source index entry) :
    Kept before after i k capability :=
  ⟨received.holds i k capability holds, ids_of_handles received.processes_eq received.registered
    (by rw [received.received.process]) i⟩

theorem Dropped.kept {j process handles slot source} (dropped : Dropped before after j process handles slot source)
    (other : ¬(i = j ∧ k = slot)) : Kept before after i k capability :=
  ⟨(dropped.holds_iff i k capability).mpr ⟨holds, other⟩,
    ids_of_handles dropped.processes_eq dropped.registered rfl i⟩

theorem Exited.kept {j process} (exited : Exited before after j process) (other : i ≠ j) :
    Kept before after i k capability := by
  refine ⟨(exited.holds_iff i k capability).mpr ⟨holds, other⟩, ?_⟩
  rw [ids_of_update exited.processes_eq, if_neg other]

variable (fixed : capability.rights.contains .transfer = false)
include fixed

theorem Sent.kept {j c process process' pair pair' endpoint message source index tokens woken}
    (sent : Sent before after j c process process' pair pair' endpoint message source index tokens woken) :
    Kept before after i k capability := by
  obtain ⟨_, queued, _⟩ := sent.sent
  refine ⟨(sent.holds_iff i k capability).mpr ⟨holds, ?_⟩, ids_of_handles sent.processes_eq sent.registered
    (by rw [queued.process]) i⟩
  rintro ⟨rfl, disposition, member, named⟩
  obtain ⟨_, _, moved, entry, transferable, _⟩ := queued.moves.token_of_source member
  obtain ⟨l, named', present, _⟩ := entry_eq_ok.mp entry
  rw [named] at named'
  cases named'
  have same := ((holds_of_registered sent.registered).mp holds).symm.trans present
  cases same
  rw [fixed] at transferable
  cases transferable

theorem Spawned.kept {j child parent addressSpace handles childHandles slot first source rights}
    (spawned : Spawned before after j child parent addressSpace handles childHandles slot first source rights) :
    Kept before after i k capability := by
  refine ⟨(spawned.holds_iff i k capability).mpr (.inl ⟨holds, ?_⟩), ?_⟩
  · rintro ⟨rfl, rfl⟩
    have same := ((holds_of_registered spawned.registered).mp holds).symm.trans spawned.emptied.held
    cases same
    have transferable := spawned.transferable
    rw [fixed] at transferable
    cases transferable
  · rw [spawned.ids_eq, if_neg]
    rintro rfl
    obtain ⟨_, registered, _⟩ := holds
    rw [spawned.vacant] at registered
    cases registered

end

/-- The call closes the handle or ends the process; the bootstrap process cannot be ended. -/
def Relinquishes (i : Fin maxUserProcesses) (k : Fin handleCapacity) (state : UserIpcState)
    (operation : Operation) : Prop :=
  operation.collects = true ∧ operation ≠ .exitProcess bootstrapProcessId ∧ state.GivesUp operation i k

theorem Kept.trans {middle : UserIpcState} (first : Kept before middle i k capability)
    (second : Kept middle after i k capability) : Kept before after i k capability :=
  ⟨second.1, second.2.trans first.2⟩

theorem step_kept (invariant : Invariant state) {operation : Operation} (holds : state.Holds i k capability)
    (fixed : capability.rights.contains .transfer = false) (retained : ¬Relinquishes i k state operation) :
    Kept state (state.step operation).2 i k capability := by
  obtain ⟨ready, boots, outcome, _⟩ := step_outcome invariant operation
  have start : Kept state ready i k capability := boots.kept holds
  generalize (state.step operation).1 = reply at outcome ⊢
  refine start.trans ?_
  cases outcome with
  | refused | peerClosed | nothing => exact .refl start.1
  | uncreated _ churned | unspawned churned => exact churned.kept start.1
  | created _ more | received _ more => exact more.kept start.1
  | sent _ _ moved | spawned moved => exact moved.kept start.1 fixed
  | waited _ same | cancelled same | blocked same => exact kept_of_processes start.1 same.unchanged.2.1
  | closed found _ entry named dropped collected =>
    obtain rfl := boots.eq_of_entry invariant.roster dropped.registered entry
    have dropping : Kept ready _ i k capability := dropped.kept start.1 (by
      rintro ⟨rfl, rfl⟩
      exact retained ⟨rfl, nofun, _, found, named⟩)
    exact dropping.trans (kept_of_processes dropping.1 collected.processes)
  | exited isolated found exited collected =>
    obtain rfl := boots.eq_of_isolated invariant.roster exited.registered exited.isolated
    have leaving : Kept ready _ i k capability := exited.kept start.1 (by
      rintro rfl
      exact retained ⟨rfl, fun same => isolated (Operation.exitProcess.inj same), _, found⟩)
    exact leaving.trans (kept_of_processes leaving.1 collected.processes)

theorem run_kept (fixed : capability.rights.contains .transfer = false) (later : List Operation)
    (invariant : Invariant state) (holds : state.Holds i k capability)
    (retained : Runs.EachStep step (fun state operation => ¬Relinquishes i k state operation) state later) :
    Kept state (Runs.run step state later) i k capability := by
  induction later generalizing state with
  | nil => exact .refl holds
  | cons operation rest ih =>
    have next := step_kept invariant holds fixed retained.1
    exact next.trans (ih (step_invariant state operation invariant) next.1 retained.2)

/-- The ways a queued capability can go. -/
inductive Dequeued (state after : UserIpcState) (c : Fin channelCapacity) (capability : Capability) :
    Operation → Prop where
  | delivered {processId endpoint i process k} (found : state.processRef processId = .ok (i, process))
      (holds : after.Holds i k capability) :
      Dequeued state after c capability (.tryReceive processId endpoint)
  | collected {operation} (collects : operation.collects = true) (emptied : after.channels c = .new) :
      Dequeued state after c capability operation

theorem Collected.queued_or (collected : Collected before after) (queued : before.Queued c capability) :
    after.Queued c capability ∨ after.channels c = .new := by
  unfold Queued at queued ⊢
  rw [collected.channels c]
  split
  · exact .inl queued
  · exact .inr rfl

/-- A queued capability stays in its channel until it is received or the channel
is collected. -/
theorem step_queued (invariant : Invariant state) (operation : Operation) (queued : state.Queued c capability) :
    (state.step operation).2.Queued c capability ∨
      Dequeued state (state.step operation).2 c capability operation := by
  obtain ⟨ready, boots, outcome, _⟩ := step_outcome invariant operation
  have start : ready.Queued c capability := (queued_congr capability boots.channels_eq c).mpr queued
  generalize (state.step operation).1 = reply at outcome ⊢
  cases outcome with
  | refused | peerClosed | nothing => exact .inl start
  | uncreated _ churned | unspawned churned => exact .inl ((queued_congr capability churned.channels c).mpr start)
  | created _ created => exact .inl ((created.queued_iff capability c).mpr start)
  | sent _ _ sent => exact .inl ((sent.queued_iff capability c).mpr (.inl start))
  | received found received =>
    rcases (received.queued_iff capability c).mp start with kept | ⟨_, delivered⟩
    · exact .inl kept
    · refine .inr ?_
      obtain rfl := boots.eq_of_entry invariant.roster received.registered received.received.found
      obtain ⟨_, _, k, _, _, held⟩ :=
        Table.exists_of_forall₂ (received.received.installs.named smallTable) delivered
      refine .delivered (k := k) found ?_
      rw [holds_of_update received.processes_eq]
      exact .inr ⟨rfl, _, rfl, held⟩
  | waited _ same | cancelled same | blocked same =>
    exact .inl ((queued_congr capability same.unchanged.2.2 c).mpr start)
  | spawned spawned => exact .inl ((queued_congr capability spawned.channels_eq c).mpr start)
  | closed _ _ _ _ same collected | exited _ _ same collected =>
    have middle := (queued_congr capability same.channels_eq c).mpr start
    exact (collected.queued_or middle).imp id (.collected rfl)

/-- Authority over endpoints is never duplicated and never grows. A capability
that cannot be transferred stays in the table that holds it until the handle is
closed or the process ends; one in a queue stays there until it is received or
the channel is collected. -/
theorem authority_confined (operations : List Operation) :
    let state := run operations
    (∀ object, state.namedCount object ≤ 1) ∧
    (∀ capability ∈ state.capabilities, endpointRights.contains capability.rights = true) ∧
    (∀ operation, ∀ capability ∈ state.capabilities, ∀ later ∈ (state.step operation).2.capabilities,
      later.object = capability.object → capability.rights.contains later.rights = true) ∧
    (∀ i k capability later, state.Holds i k capability → capability.rights.contains .transfer = false →
      Runs.EachStep step (fun state operation => ¬Relinquishes i k state operation) state later →
      Kept state (run (operations ++ later)) i k capability) ∧
    ∀ operation c capability, state.Queued c capability →
      (state.step operation).2.Queued c capability ∨
        Dequeued state (state.step operation).2 c capability operation := by
  have invariant := run_invariant operations
  refine ⟨invariant.named_le_one, run_rightsBounded operations, ?_, ?_, ?_⟩
  · intro operation capability held later member same
    exact step_rights invariant operation held member same
  · intro i k capability later holds fixed retained
    rw [run_append]
    exact run_kept fixed later invariant holds retained
  · intro operation c capability queued
    exact step_queued invariant operation queued

/-- Send an endpoint of the second channel over the first one, with no right
but to read; then give the receiving endpoint to a new process. -/
def sendReadOnly : List Operation :=
  [.createPair bootstrapProcessId, .createPair bootstrapProcessId,
    .send bootstrapProcessId (Handle.new 0 1).raw (.ofTransfers [⟨(Handle.new 3 1).raw, Rights.read.bits, 0⟩]),
    .registerSpawnedProcess bootstrapProcessId 2 (Handle.new 1 1).raw endpointRights]

def readOnlyEndpoint : Capability := ⟨⟨6, 1, .channelEndpoint⟩, .read⟩

/-- A capability without the transfer right that is in no table: it is still in
a queue, and from there it gets into the table of the new process. -/
theorem readOnlyEndpoint_delivered :
    let state := run sendReadOnly
    readOnlyEndpoint.rights.contains .transfer = false ∧ state.Queued 0 readOnlyEndpoint ∧
      (∀ i k, ¬state.Holds i k readOnlyEndpoint) ∧
      (state.step (.tryReceive 2 (Handle.new 0 1).raw)).2.Holds 1 1 readOnlyEndpoint := by
  decide +kernel

/-- The process that makes the call; only the bootstrap process spawns. -/
def Operation.caller : Operation → Option Nat
  | createPair processId | send processId _ _ | tryReceive processId _ | waitReadable processId _ _ _
  | close processId _ | exitProcess processId => some processId
  | registerSpawnedProcess .. => some bootstrapProcessId
  | cancelWaiter _ => none

theorem step_others {process : Process handleCapacity} (invariant : Invariant state) {operation : Operation}
    (registered : state.processes i = some process) (other : operation.caller ≠ some process.id) :
    ∃ process', (state.step operation).2.processes i = some process' ∧ SameProcess process process' := by
  have roster := invariant.roster
  obtain ⟨ready, boots, outcome, -⟩ := step_outcome invariant operation
  obtain rfl | ⟨_, booted⟩ := boots
  case inr =>
    have none := roster.rooted (by rw [ids, booted.vacant]; rfl) i
    cases none.symm.trans (ids_of_process registered)
  have apart {processId j caller} (found : ready.processRef processId = .ok (j, caller))
      (calls : operation.caller = some processId) : i ≠ j := by
    rintro rfl
    cases (processRef_eq_ok.mp found).2.symm.trans registered
    exact other (roster.id_eq found ▸ calls)
  generalize (ready.step operation).1 = reply, (ready.step operation).2 = after at outcome ⊢
  have unchanged (same : after.processes i = ready.processes i) :
      ∃ process', after.processes i = some process' ∧ SameProcess process process' :=
    ⟨process, same.trans registered, .refl process⟩
  cases outcome with
  | refused | peerClosed | nothing => exact unchanged rfl
  | uncreated _ churned | unspawned churned =>
    have same := churned.processes i
    rw [registered] at same
    generalize after.processes i = slot at same ⊢
    cases same with
    | some same => exact ⟨_, rfl, same⟩
  | created found own | sent found _ own | received found own =>
    exact unchanged (by rw [own.processes_eq, update_of_ne (apart found rfl)])
  | waited _ same | cancelled same | blocked same => exact unchanged (by rw [same.unchanged.2.1])
  | closed found _ _ _ own collected | exited _ found own collected =>
    exact unchanged (by rw [collected.processes, own.processes_eq, update_of_ne (apart found rfl)])
  | spawned spawned =>
    refine unchanged ?_
    rw [spawned.processes_eq, update_of_ne, update_of_ne]
    · rintro rfl
      exact other (congrArg some (roster.bootstrap _ (ids_of_process registered)).symm)
    · rintro rfl
      cases registered.symm.trans spawned.vacant

/-- A process keeps its capabilities, each in its slot, over any calls that others make. -/
theorem tables_isolated (operations later : List Operation) (i : Fin maxUserProcesses)
    (process : Process handleCapacity) (registered : (run operations).processes i = some process)
    (others : ∀ operation ∈ later, operation.caller ≠ some process.id) :
    ∃ process', (run (operations ++ later)).processes i = some process' ∧ SameProcess process process' := by
  rw [run_append]
  have invariant := run_invariant operations
  generalize run operations = state at invariant registered ⊢
  induction later generalizing state process with
  | nil => exact ⟨process, registered, .refl process⟩
  | cons operation rest ih =>
    obtain ⟨first, others⟩ := List.forall_mem_cons.mp others
    obtain ⟨middle, there, same⟩ := step_others invariant registered first
    obtain ⟨process', here, later⟩ :=
      ih middle (same.id ▸ others) _ (step_invariant state operation invariant) there
    exact ⟨process', here, later.id.trans same.id, later.addressSpace.trans same.addressSpace,
      fun k => (later.capability k).trans (same.capability k)⟩

theorem tables_isolated_spawned : ∃ process process', (run sendReadOnly).processes 1 = some process ∧
    (run (sendReadOnly ++ sendReadOnly)).processes 1 = some process' ∧ SameProcess process process' := by
  obtain ⟨process, registered⟩ := Option.isSome_iff_exists.mp
    (by decide +kernel : ((run sendReadOnly).processes 1).isSome)
  have above := (run_invariant sendReadOnly).roster.isolated 1 process.id (by decide) (ids_of_process registered)
  obtain ⟨process', kept⟩ := tables_isolated sendReadOnly sendReadOnly 1 process registered
    (by simpa [sendReadOnly, Operation.caller] using Nat.ne_of_lt above)
  exact ⟨process, process', registered, kept⟩

end Nagi.Kernel.UserIpcState
