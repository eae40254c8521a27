import Nagi.Kernel.UserIpc.Authority

/-! The two ends of a channel over time. -/

namespace Nagi.Kernel

open Lib Function

theorem ChannelPair.peerOf_congr {pair pair' : ChannelPair} (same : pair'.owned = pair.owned)
    (endpoint : ObjectId) : pair'.peerOf endpoint = pair.peerOf endpoint := by
  simp only [owned, endpoints, List.cons.injEq, and_true] at same
  simp only [peerOf, same.2]

theorem ChannelPair.peer_mem (pair : ChannelPair) (endpoint : ObjectId) : pair.peerOf endpoint ∈ pair.endpoints := by
  unfold peerOf endpoints
  split <;> simp

namespace UserIpcState

variable {before after : UserIpcState} {endpoint peer : ObjectId}

def Linked (state : UserIpcState) (endpoint peer : ObjectId) : Prop :=
  ∃ c pair, (state.channels c).pair = some pair ∧ endpoint ∈ pair.endpoints ∧ pair.peerOf endpoint = peer

theorem linked_congr (channels : after.channels = before.channels) (linked : before.Linked endpoint peer) :
    after.Linked endpoint peer := by
  simpa only [Linked, channels] using linked

variable {c : Fin channelCapacity}

theorem linked_of_update {pair : ChannelPair}
    (changed : after.channels = update before.channels c (.occupied pair))
    (same : ∀ other, (before.channels c).pair = some other → pair.owned = other.owned)
    (linked : before.Linked endpoint peer) : after.Linked endpoint peer := by
  obtain ⟨d, other, held, member, opposite⟩ := linked
  by_cases here : d = c
  · subst here
    have owned := same other held
    refine ⟨d, pair, by rw [changed, update_self]; rfl, ?_, ?_⟩
    · have endpoints : pair.endpoints = other.endpoints := congrArg List.tail owned
      rw [endpoints]
      exact member
    · rw [ChannelPair.peerOf_congr owned]
      exact opposite
  · exact ⟨d, other, by rw [changed, update_of_ne here]; exact held, member, opposite⟩

theorem Collected.spent (collected : Collected before after) (ledger : Ledger before) (confined : Confined before)
    (member : endpoint ∈ (before.channels c).endpoints) (emptied : after.channels c = .new) :
    after.registry.Spent endpoint := by
  refine (collected.evolves.live endpoint (ledger.live_of_endpoint member)).resolve_left fun alive => ?_
  -- nothing is left that could refer to the endpoint
  have fewer : ∀ d, (after.channels d).owned.count endpoint ≤ (before.channels d).owned.count endpoint := by
    intro d
    rw [collected.channels d]
    split
    · exact Nat.le_refl _
    · exact Nat.zero_le _
  have slots : after.slotCount endpoint < before.slotCount endpoint := by
    unfold slotCount
    refine Finset.sum_lt_sum (fun d _ => fewer d) ⟨c, Finset.mem_univ c, ?_⟩
    rw [emptied]
    exact Nat.lt_of_lt_of_le (List.count_pos_iff.mpr member) ((before.channels c).count_endpoints_le endpoint)
  have spaces : after.addressSpaceCount endpoint = before.addressSpaceCount endpoint := by
    simp only [addressSpaceCount, collected.processes]
  have single := ledger.single endpoint
  have balanced := collected.ledger.balanced endpoint
  have named := Nat.le_trans (collected.confined ledger confined endpoint) (after.endpointCount_le endpoint)
  unfold ownerCount at single balanced named
  omega

/-- A link lasts until the endpoint's identity is used up. -/
theorem Transition.linked (transition : Transition before after) (invariant : Invariant before)
    (linked : before.Linked endpoint peer) : after.Linked endpoint peer ∨ after.registry.Spent endpoint := by
  cases transition with
  | booted kept | dropped kept | spawned kept | exited kept => exact .inl (linked_congr kept.channels_eq linked)
  | churned churned => exact .inl (linked_congr churned.channels linked)
  | withdrawn kept | blocked kept => exact .inl (linked_congr kept.unchanged.2.2 linked)
  | created created => exact .inl (linked_of_update created.channels_eq (by simp [created.vacant]) linked)
  | sent sent =>
    obtain ⟨_, queued, _⟩ := sent.sent
    exact .inl (linked_of_update sent.channels_eq (by simp [sent.channel, queued.identities]) linked)
  | received received =>
    have queued := received.received
    exact .inl (linked_of_update received.channels_eq (by simp [received.channel, queued.identities]) linked)
  | collected collected =>
    obtain ⟨c, pair, held, member, opposite⟩ := linked
    by_cases kept : before.reachableChannels c = true
    · refine .inl ⟨c, pair, ?_, member, opposite⟩
      rw [collected.channels c, if_pos kept]
      exact held
    · refine .inr (collected.spent invariant.ledger invariant.confined ?_ (c := c) ?_)
      · rw [ChannelSlot.endpoints_of_pair held]
        exact member
      · rw [collected.channels c, if_neg kept]

def LinkedOrSpent (endpoint peer : ObjectId) (state : UserIpcState) : Prop :=
  state.Linked endpoint peer ∨ state.registry.Spent endpoint

theorem Transition.linkedOrSpent (transition : Transition before after) (invariant : Invariant before)
    (holds : LinkedOrSpent endpoint peer before) : LinkedOrSpent endpoint peer after := by
  rcases holds with linked | spent
  · exact transition.linked invariant linked
  · exact .inr (transition.evolves.spent endpoint spent)

/-- An object that exists or has existed, and that no handle or token names. -/
def Unnamed (object : ObjectId) (state : UserIpcState) : Prop :=
  state.namedCount object = 0 ∧ ¬state.Fresh object

variable {object : ObjectId}

theorem Transition.unnamed (transition : Transition before after) (unnamed : Unnamed object before) :
    Unnamed object after := by
  refine ⟨Nat.eq_zero_of_not_pos fun named => ?_, fun fresh => unnamed.2 (fresh.back transition.evolves)⟩
  obtain ⟨capability, member, rfl⟩ := mem_of_named named
  cases transition.origin member with
  | derived source object _ =>
    have earlier := named_of_mem source
    rw [object, unnamed.1] at earlier
    exact absurd earlier (Nat.lt_irrefl 0)
  | created fresh _ => exact unnamed.2 fresh

theorem step_invariant_and {P : UserIpcState → Prop}
    (keeps : ∀ before after, Transition before after → Invariant before → P before → P after)
    (state : UserIpcState) (operation : Operation) (invariant : Invariant state) (holds : P state) :
    P (state.step operation).2 := by
  refine (Runs.chain_invariant (P := fun state => Invariant state ∧ P state) ?_ (step_chain invariant operation)
    ⟨invariant, holds⟩).2
  intro before after link both
  exact ⟨link.invariant both.1, keeps before after link both.1 both.2⟩

variable {state : UserIpcState}

theorem endpointReachable_iff : state.endpointReachable object = true ↔ 0 < state.namedCount object := by
  have either : 0 < state.namedCount object ↔ 0 < state.handleCount object ∨ 0 < state.tokenCount object := by
    unfold namedCount
    omega
  rw [either, handleCount_pos, tokenCount_pos, ← mem_handleObjects]
  simp only [endpointReachable, Bool.or_eq_true, List.contains_iff_mem, List.any_eq_true, List.mem_finRange, true_and]
  refine or_congr_right (exists_congr fun c => ?_)
  unfold slotEscrow
  cases (state.channels c).pair <;> simp

variable {handle : BitVec 64} {request : ChannelSendRequest}

theorem send_refused (invariant : Invariant state) {processId : Nat}
    (refused : (state.send processId handle request).1 = .error .peerClosed) :
    ∃ c object pair, state.locateEndpoint processId ⟨handle⟩ = .ok (c, object) ∧
      (state.channels c).pair = some pair ∧ object ∈ pair.endpoints ∧ Unnamed (pair.peerOf object) state := by
  obtain ⟨ready, boots, ⟨_, _, answer, cause⟩ | ⟨_, _, _, _, _, _, _, _, _, _, _, _, answer, _⟩⟩ :=
    send_spec invariant.ledger processId handle request
  · rw [answer] at refused
    obtain ⟨c, object, pair, located, channel, member, closed⟩ := cause (Except.error.inj refused)
    obtain ⟨_, _, _, found, entry, _⟩ := locateEndpoint_spec located
    obtain rfl := boots.eq_of_entry invariant.roster (processRef_eq_ok.mp found).2 entry
    refine ⟨c, object, pair, located, channel, member, Nat.eq_zero_of_not_pos fun named => ?_, fun fresh => ?_⟩
    · rw [endpointReachable_iff.mpr named] at closed
      cases closed
    · have place : pair.peerOf object ∈ (ready.channels c).endpoints := by
        rw [ChannelSlot.endpoints_of_pair channel]
        exact pair.peer_mem object
      exact absurd fresh.1 (Nat.ne_of_gt (invariant.ledger.live_of_endpoint place))
  · rw [answer] at refused
    cases refused

theorem send_refused_of_unnamed (invariant : Invariant state) (unnamed : Unnamed peer state)
    (linked : LinkedOrSpent endpoint peer state) {processId : Nat} (checked : (outgoingMessage request).isOk = true)
    (located : state.locateEndpoint processId ⟨handle⟩ = .ok (c, endpoint)) :
    (state.send processId handle request).1 = .error .peerClosed := by
  obtain ⟨i, process, capability, found, entry, rfl, _, channelled⟩ := locateEndpoint_spec located
  obtain ⟨_, _, _, live⟩ := HandleTable.entry_eq_ok.mp entry
  obtain ⟨d, pair, channel, member, rfl⟩ := linked.resolve_right fun spent => by
    rw [spent.refs] at live
    exact absurd live (Nat.lt_irrefl 0)
  have place : capability.object ∈ (state.channels d).endpoints := by
    rw [ChannelSlot.endpoints_of_pair channel]
    exact member
  obtain rfl := invariant.ledger.endpoint_unique place (invariant.ledger.channelWith_eq.mp channelled)
  cases ready : outgoingMessage request with
  | error error =>
    rw [ready] at checked
    cases checked
  | ok message =>
    have closed : state.endpointReachable (pair.peerOf capability.object) = false := by
      rw [← Bool.not_eq_true, endpointReachable_iff, unnamed.1]
      exact Nat.lt_irrefl 0
    rw [send_peerClosed (processMut_of_ref invariant.roster found) ready located channel closed]

/-- A send is refused for a closed peer only when no handle or token names the
peer; and from then on none ever does, so that every further send on the
endpoint is refused for as long as the endpoint can be found. -/
theorem peerClosed_final (operations : List Operation) (processId : Nat) (handle : BitVec 64)
    (request : ChannelSendRequest) :
    let state := run operations
    let result := (state.send processId handle request).1
    (∀ c endpoint pair, state.locateEndpoint processId ⟨handle⟩ = .ok (c, endpoint) →
      (state.channels c).pair = some pair → 0 < state.namedCount (pair.peerOf endpoint) →
      result ≠ .error .peerClosed) ∧
    (result = .error .peerClosed → ∃ c endpoint pair,
      state.locateEndpoint processId ⟨handle⟩ = .ok (c, endpoint) ∧ (state.channels c).pair = some pair ∧
      ∀ later, let after := run (operations ++ .send processId handle request :: later)
        after.namedCount (pair.peerOf endpoint) = 0 ∧
        ∀ processId' handle' request' c', (outgoingMessage request').isOk = true →
          after.locateEndpoint processId' ⟨handle'⟩ = .ok (c', endpoint) →
          (after.send processId' handle' request').1 = .error .peerClosed) := by
  have invariant := run_invariant operations
  refine ⟨fun c endpoint pair located channel named refused => ?_, fun refused => ?_⟩
  · obtain ⟨c', endpoint', pair', located', channel', _, unnamed, _⟩ := send_refused invariant refused
    rw [located] at located'
    cases located'
    rw [channel] at channel'
    cases channel'
    omega
  · obtain ⟨c, endpoint, pair, located, channel, member, unnamed⟩ := send_refused invariant refused
    refine ⟨c, endpoint, pair, located, channel, fun later => ?_⟩
    have gone : Unnamed (pair.peerOf endpoint) (run (operations ++ .send processId handle request :: later)) := by
      rw [run_append]
      exact Runs.run_invariant_under step_invariant
        (step_invariant_and fun _ _ link _ => link.unnamed) invariant unnamed _
    have linked : LinkedOrSpent endpoint (pair.peerOf endpoint)
        (run (operations ++ .send processId handle request :: later)) := by
      rw [run_append]
      exact Runs.run_invariant_under step_invariant
        (step_invariant_and fun _ _ link => link.linkedOrSpent) invariant (.inl ⟨c, pair, channel, member, rfl⟩) _
    refine ⟨gone.1, fun processId' handle' request' c' checked found => ?_⟩
    exact send_refused_of_unnamed (run_invariant _) gone linked checked found

example : ((run [.createPair bootstrapProcessId, .close bootstrapProcessId (Handle.new 1 1).raw]).send
    bootstrapProcessId (Handle.new 0 1).raw (.ofTransfers [])).1 = .error .peerClosed := by
  decide +kernel

end UserIpcState
end Nagi.Kernel
