import Nagi.Kernel.UserIpc.Accounts

/-! The collector: which channels it keeps, and what it releases.

Every release it makes succeeds, in whatever order the channels are swept. -/

namespace Nagi.Kernel

open Lib ChannelSlot Function List

theorem ChannelPair.drain_spec {m : Nat} (pair : ChannelPair) (registry : ObjectRegistry m)
    (counted : ∀ object, pair.escrowObjects.count object ≤ registry.refs object) :
    ∃ drained next, pair.drain registry = (.ok (), drained, next) ∧
      (∀ object, next.refs object + pair.escrowObjects.count object = registry.refs object) ∧
      registry.Evolves next := by
  have contents : ∀ i, ((pair.queues i).popAll maxQueue).1 = (pair.queues i).toList :=
    fun i => (Ring.popAll_spec maxQueue (pair.queues i) (pair.queues i).length_toList_le).1
  have objects : ((((pair.queues 0).popAll maxQueue).1 ++ ((pair.queues 1).popAll maxQueue).1).flatMap
      (·.objects)).Perm pair.escrowObjects := by
    rw [contents, contents, flatMap_append]
    exact pair.escrowObjects_perm.symm
  obtain ⟨next, released, counts, evolves⟩ := registry.releaseAll_spec
    ((((pair.queues 0).popAll maxQueue).1 ++ ((pair.queues 1).popAll maxQueue).1).flatMap (·.objects))
    (fun object => by rw [objects.count_eq]; exact counted object)
  refine ⟨(pair.withQueue 0 ((pair.queues 0).popAll maxQueue).2).withQueue 1 ((pair.queues 1).popAll maxQueue).2,
    next, ?_, fun object => ?_, evolves⟩
  · simp only [drain, released]
  · rw [← objects.count_eq]
    exact counts object

namespace UserIpcState

variable {state : UserIpcState} {c : Fin channelCapacity} {pair : ChannelPair}

theorem Ledger.escrow_le (ledger : Ledger state) (held : (state.channels c).pair = some pair) (object : ObjectId) :
    pair.escrowObjects.count object + pair.owned.count object ≤ state.registry.refs object := by
  have tokens : pair.escrowObjects.count object ≤ state.tokenCount object := by
    rw [← slotEscrow_of_pair held, tokenCount]
    exact Table.le_sum (fun c => (slotEscrow (state.channels c)).count object) c
  have owners : pair.owned.count object ≤ state.slotCount object := by
    rw [← owned_of_pair held, slotCount]
    exact Table.le_sum (fun c => (state.channels c).owned.count object) c
  rw [ledger.balanced object]
  unfold namedCount ownerCount
  omega

theorem Ledger.clear {before after : UserIpcState} (ledger : Ledger before)
    (held : (before.channels c).pair = some pair) (channels : after.channels = update before.channels c .new)
    (processes : after.processes = before.processes)
    (counts : ∀ object, after.registry.refs object + pair.escrowObjects.count object + pair.owned.count object =
      before.registry.refs object) :
    Ledger after := by
  have changes : ∀ object, after.ownerCount object + pair.owned.count object = before.ownerCount object ∧
      after.namedCount object + pair.escrowObjects.count object = before.namedCount object := by
    intro object
    have tokens := tokenCount_of_update channels object
    have slots := slotCount_of_update channels object
    rw [slotEscrow_of_pair held, slotEscrow_new, count_nil] at tokens
    rw [owned_of_pair held, owned_new, count_nil] at slots
    simp only [ownerCount, addressSpaceCount, namedCount, handleCount, processes]
    omega
  refine ⟨fun object => ?_, fun object => ?_, fun d other => ?_⟩
  · have balanced := ledger.balanced object
    have change := counts object
    have := changes object
    omega
  · have single := ledger.single object
    have := changes object
    omega
  · rw [channels]
    by_cases same : d = c
    · subst same
      simp [ChannelSlot.new]
    · simpa only [update_of_ne same] using ledger.full d other

theorem collectChannel_spec (ledger : Ledger state) (held : (state.channels c).pair = some pair) :
    ∃ registry, state.collectChannel c =
        (.ok (), { state with registry := registry, channels := update state.channels c .new }) ∧
      state.registry.Evolves registry ∧
      ∀ object, registry.refs object + pair.escrowObjects.count object + pair.owned.count object =
        state.registry.refs object := by
  have enough := ledger.escrow_le held
  obtain ⟨drained, first, drain, drainCounts, drainEvolves⟩ := pair.drain_spec state.registry
    (fun object => Nat.le_trans (Nat.le_add_right _ _) (enough object))
  have rotated : ([pair.endpointA, pair.endpointB] ++ [pair.object]).Perm pair.owned := perm_append_comm
  have order : [pair.endpointA, pair.endpointB, pair.object].Perm pair.owned := rotated
  have bound : ∀ object, [pair.endpointA, pair.endpointB, pair.object].count object ≤ first.refs object := by
    intro object
    have := enough object
    have := drainCounts object
    rw [order.count_eq]
    omega
  obtain ⟨second, releaseA, boundA, countsA, evolvesA⟩ := ObjectRegistry.release_cons bound
  obtain ⟨third, releaseB, boundB, countsB, evolvesB⟩ := ObjectRegistry.release_cons boundA
  obtain ⟨fourth, releaseObject, _, countsObject, evolvesObject⟩ := ObjectRegistry.release_cons boundB
  refine ⟨fourth, ?_, drainEvolves.trans (evolvesA.trans (evolvesB.trans evolvesObject)), fun object => ?_⟩
  · rw [collectChannel, eq_of_pair held]
    simp only [ChannelSlot.occupied, drain, withPair, releaseA, releaseB, releaseObject, update_idem]
  have := drainCounts object
  have := countsA object
  have := countsB object
  have := countsObject object
  have := order.count_eq object
  rw [count_nil] at *
  omega

structure Collected (before after : UserIpcState) : Prop where
  processes : after.processes = before.processes
  waiters : after.waiters = before.waiters
  channels : ∀ c, after.channels c = if before.reachableChannels c = true then before.channels c else .new
  evolves : before.registry.Evolves after.registry
  ledger : Ledger after

theorem sweepChannels_spec (reachable : Fin channelCapacity → Bool) (indices : List (Fin channelCapacity))
    (state : UserIpcState) (ledger : Ledger state) :
    ∃ swept, sweepChannels reachable indices state = (.ok (), swept) ∧ Ledger swept ∧
      swept.processes = state.processes ∧ swept.waiters = state.waiters ∧
      state.registry.Evolves swept.registry ∧
      ∀ c, swept.channels c = if c ∈ indices ∧ reachable c = false then .new else state.channels c := by
  induction indices generalizing state with
  | nil => exact ⟨state, rfl, ledger, rfl, rfl, .refl _, by simp⟩
  | cons first rest ih =>
    unfold sweepChannels
    split
    · next skipped =>
      obtain ⟨swept, done, balanced, processes, waiters, evolves, channels⟩ := ih state ledger
      refine ⟨swept, done, balanced, processes, waiters, evolves, fun c => ?_⟩
      rw [channels c]
      by_cases same : c = first
      · subst same
        cases marked : reachable c with
        | true => simp
        | false =>
          have empty : (state.channels c).pair = none := by simpa [marked] using skipped
          simp [eq_new_of_pair empty]
      · simp [same]
    · next collected =>
      simp only [Bool.or_eq_true, not_or, Bool.not_eq_true, Option.isNone_eq_false_iff] at collected
      obtain ⟨unmarked, occupied⟩ := collected
      obtain ⟨pair, held⟩ := Option.isSome_iff_exists.mp occupied
      obtain ⟨registry, cleared, evolves, counts⟩ := collectChannel_spec ledger held
      obtain ⟨swept, done, balanced, processes, waiters, later, channels⟩ :=
        ih { state with registry := registry, channels := update state.channels first .new }
          (ledger.clear held rfl rfl counts)
      refine ⟨swept, ?_, balanced, processes, waiters, evolves.trans later, fun c => ?_⟩
      · simp only [cleared]
        exact done
      · rw [channels c]
        by_cases same : c = first
        · subst same
          simp [unmarked]
        · simp [same]

/-- The collector always succeeds on a balanced ledger, and keeps it balanced. -/
theorem collectUnreachableChannels_spec (ledger : Ledger state) :
    ∃ after, state.collectUnreachableChannels = (.ok (), after) ∧ Collected state after := by
  obtain ⟨after, done, balanced, processes, waiters, evolves, channels⟩ :=
    sweepChannels_spec state.reachableChannels (finRange channelCapacity) state ledger
  refine ⟨after, done, processes, waiters, fun c => ?_, evolves, balanced⟩
  rw [channels c]
  cases state.reachableChannels c <;> simp

/-! Reachability, in the words of the manager's documentation: a channel is
reachable if a handle names one of its endpoints, or a token queued in a
reachable channel does. -/

def Held (state : UserIpcState) (c : Fin channelCapacity) : Prop :=
  ∃ i process, state.processes i = some process ∧
    ∃ object ∈ process.handles.objects, object ∈ (state.channels c).endpoints

/-- A token queued in the first channel names an endpoint of the second. -/
def Escrows (state : UserIpcState) (c d : Fin channelCapacity) : Prop :=
  ∃ pair, (state.channels c).pair = some pair ∧
    ∃ object ∈ pair.escrowObjects, object ∈ (state.channels d).endpoints

def Reachable (state : UserIpcState) : Fin channelCapacity → Prop := Reach state.Held state.Escrows

theorem mem_handleObjects {object : ObjectId} : object ∈ state.handleObjects ↔
      ∃ i process, state.processes i = some process ∧ object ∈ process.handles.objects := by
  simp only [handleObjects, mem_flatMap, mem_finRange, true_and]
  refine exists_congr fun i => ?_
  cases state.processes i <;> simp

theorem rootChannels_iff (ledger : Ledger state) : state.rootChannels c = true ↔ state.Held c := by
  simp only [rootChannels, contains_iff_mem, mem_filterMap, ledger.channelOf_eq, mem_handleObjects]
  constructor
  · rintro ⟨object, ⟨i, process, held, member⟩, endpoint⟩
    exact ⟨i, process, held, object, member, endpoint⟩
  · rintro ⟨i, process, held, object, member, endpoint⟩
    exact ⟨object, ⟨i, process, held, member⟩, endpoint⟩

theorem escrowedChannels_iff (ledger : Ledger state) {d : Fin channelCapacity} :
    d ∈ state.escrowedChannels c ↔ state.Escrows c d := by
  simp only [escrowedChannels, mem_filterMap, ledger.channelOf_eq, slotEscrow, Escrows]
  cases (state.channels c).pair <;> simp

theorem reachableChannels_iff (ledger : Ledger state) : state.reachableChannels c = true ↔ state.Reachable c := by
  have marked := Marking.loop_eq_reach state.escrowedChannels (finRange channelCapacity)
    (mem_finRange ·) state.rootChannels (channelCapacity + 1) (by simp) c
  rw [reachableChannels, marked]
  simp only [rootChannels_iff ledger, escrowedChannels_iff ledger]
  rfl

end UserIpcState
end Nagi.Kernel
