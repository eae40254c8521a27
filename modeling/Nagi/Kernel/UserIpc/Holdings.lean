import Nagi.Kernel.UserIpc.Balance

/-! Where the capabilities are: in the slots of the process tables, and in the
queues of the channels. For every transition, what it makes of both. -/

namespace Nagi.Kernel

open Lib List

namespace HandleTable
variable {n : Nat}

variable {before after : HandleTable n} {capability : Capability}

theorem Filled.capability_iff {i : Fin n} (filled : Filled before after i capability) (j : Fin n) (held : Capability) :
    (after.slots j).capability = some held ↔
      (before.slots j).capability = some held ∨ j = i ∧ held = capability := by
  by_cases here : j = i
  · subst here
    simp [filled.free, filled.held, eq_comm]
  · simp [here, filled.others j here]

theorem Emptied.capability_iff {i : Fin n} (emptied : Emptied before after i capability) (j : Fin n)
    (held : Capability) :
    (after.slots j).capability = some held ↔ (before.slots j).capability = some held ∧ j ≠ i := by
  by_cases here : j = i
  · subst here
    simp [emptied.free]
  · simp [here, emptied.others j here]

end HandleTable

namespace ChannelPair

variable {pair : ChannelPair} {token : TransferToken}

theorem mem_escrow : token ∈ pair.escrow ↔ ∃ index, ∃ entry ∈ (pair.queues index).toList, token ∈ entry.escrow := by
  simp only [escrow, mem_append, mem_flatMap, Fin.exists_fin_two]

theorem escrow_objects (pair : ChannelPair) :
    (pair.escrow.map (·.capability.object)).Perm pair.escrowObjects := by
  refine .trans (.of_eq ?_) pair.escrowObjects_perm.symm
  simp only [escrow, map_append, map_flatMap, queueObjects]
  rfl

theorem mem_escrow_withQueue {index : Fin 2} {queue : Queue} :
    token ∈ (pair.withQueue index queue).escrow ↔ (∃ entry ∈ queue.toList, token ∈ entry.escrow) ∨
      ∃ other, other ≠ index ∧ ∃ entry ∈ (pair.queues other).toList, token ∈ entry.escrow := by
  rw [mem_escrow]
  exact Function.exists_update_iff pair.queues fun _ queue => ∃ entry ∈ queue.toList, token ∈ entry.escrow

theorem mem_escrow_split (index : Fin 2) :
    token ∈ pair.escrow ↔ (∃ entry ∈ (pair.queues index).toList, token ∈ entry.escrow) ∨
      ∃ other, other ≠ index ∧ ∃ entry ∈ (pair.queues other).toList, token ∈ entry.escrow := by
  rw [← mem_escrow_withQueue, withQueue, Function.update_eq_self]

section
variable {m n : Nat} {registry : ObjectRegistry m} {pair pair' : ChannelPair} {process process' : Process n}
  {endpoint : Handle} {capability : Capability} {index : Fin 2}

theorem Sent.mem_escrow {message : OutgoingMessage} {waiters waiters' : WaitRegistry} {tokens : List TransferToken}
    (sent : Sent registry pair process endpoint message waiters pair' process' waiters' capability index tokens) :
    token ∈ pair'.escrow ↔ token ∈ pair.escrow ∨ token ∈ tokens := by
  obtain ⟨entry, contents, _, _, _, _, carried⟩ := sent.queued
  have last : entry.escrow = tokens := by simp [QueuedMessage.escrow, carried]
  rw [sent.pair_eq, mem_escrow_withQueue, mem_escrow_split index, contents]
  simp only [mem_append, mem_singleton, or_and_right, exists_or, exists_eq_left, last]
  exact or_right_comm

theorem Received.mem_escrow {message : ReceivedMessage} {entry : QueuedMessage}
    (received : Received registry pair process endpoint message pair' process' capability index entry) :
    token ∈ pair.escrow ↔ token ∈ entry.escrow ∨ token ∈ pair'.escrow := by
  rw [received.pair_eq, mem_escrow_withQueue, mem_escrow_split index, received.dequeued]
  simp only [mem_cons, or_and_right, exists_or, exists_eq_left, or_assoc]

end

end ChannelPair

namespace UserIpcState

def Holds (state : UserIpcState) (i : Fin maxUserProcesses) (k : Fin handleCapacity) (capability : Capability) :
    Prop :=
  ∃ process, state.processes i = some process ∧ (process.handles.slots k).capability = some capability

instance (state : UserIpcState) (i : Fin maxUserProcesses) (k : Fin handleCapacity) (capability : Capability) :
    Decidable (state.Holds i k capability) :=
  decidable_of_iff ((state.processes i).bind (fun process => (process.handles.slots k).capability) = some capability)
    Option.bind_eq_some_iff

def slotTokens (slot : ChannelSlot) : List TransferToken :=
  match slot.pair with
  | none => []
  | some pair => pair.escrow

theorem slotTokens_of_pair {slot : ChannelSlot} {pair : ChannelPair} (held : slot.pair = some pair) :
    slotTokens slot = pair.escrow := by
  simp only [slotTokens, held]

@[simp] theorem slotTokens_new : slotTokens .new = [] := rfl
@[simp] theorem slotTokens_occupied (pair : ChannelPair) : slotTokens (.occupied pair) = pair.escrow := rfl

def Queued (state : UserIpcState) (c : Fin channelCapacity) (capability : Capability) : Prop :=
  ⟨capability⟩ ∈ slotTokens (state.channels c)

instance (state : UserIpcState) (c : Fin channelCapacity) (capability : Capability) :
    Decidable (state.Queued c capability) :=
  inferInstanceAs (Decidable (_ ∈ _))

def tableCapabilities (process : Option (Process handleCapacity)) : List Capability :=
  match process with
  | none => []
  | some process => (finRange handleCapacity).filterMap fun k => (process.handles.slots k).capability

def capabilities (state : UserIpcState) : List Capability :=
  ((finRange maxUserProcesses).flatMap fun i => tableCapabilities (state.processes i)) ++
    (finRange channelCapacity).flatMap fun c => (slotTokens (state.channels c)).map (·.capability)

variable {state : UserIpcState} {capability : Capability}

theorem mem_capabilities : capability ∈ state.capabilities ↔
      (∃ i k, state.Holds i k capability) ∨ ∃ c, state.Queued c capability := by
  have tables : ∀ i, capability ∈ tableCapabilities (state.processes i) ↔ ∃ k, state.Holds i k capability := by
    intro i
    unfold tableCapabilities Holds
    cases state.processes i <;> simp
  have queues : ∀ c, capability ∈ (slotTokens (state.channels c)).map (·.capability) ↔
      state.Queued c capability := by
    intro c
    rw [mem_map]
    constructor
    · rintro ⟨token, member, rfl⟩
      exact member
    · intro member
      exact ⟨⟨capability⟩, member, rfl⟩
  simp only [capabilities, mem_append, mem_flatMap, mem_finRange, true_and, tables, queues]

theorem tableCapabilities_objects (process : Option (Process handleCapacity)) :
    (tableCapabilities process).map (·.object) = tableObjects process := by
  cases process with
  | none => rfl
  | some process => simp only [tableCapabilities, tableObjects, HandleTable.objects, map_filterMap]

theorem slotTokens_objects (slot : ChannelSlot) :
    ((slotTokens slot).map (·.capability.object)).Perm (slotEscrow slot) := by
  unfold slotTokens slotEscrow
  cases slot.pair with
  | none => exact .nil
  | some pair => exact pair.escrow_objects

theorem count_capabilities (state : UserIpcState) (object : ObjectId) :
    (state.capabilities.map (·.object)).count object = state.namedCount object := by
  unfold namedCount handleCount tokenCount
  rw [capabilities, map_append, count_append, map_flatMap, map_flatMap, count_flatMap,
    count_flatMap, Fin.sum_univ_def, Fin.sum_univ_def]
  congr 3
  · funext i
    rw [Function.comp, tableCapabilities_objects]
  · funext c
    rw [Function.comp, map_map]
    exact (slotTokens_objects _).count_eq object

theorem named_of_mem (member : capability ∈ state.capabilities) : 0 < state.namedCount capability.object := by
  rw [← count_capabilities]
  exact count_pos_iff.mpr (mem_map.mpr ⟨capability, member, rfl⟩)

theorem mem_of_named {object : ObjectId} (named : 0 < state.namedCount object) :
    ∃ capability ∈ state.capabilities, capability.object = object := by
  rw [← count_capabilities] at named
  exact mem_map.mp (count_pos_iff.mp named)

section
variable {before after : UserIpcState} {i : Fin maxUserProcesses} {c : Fin channelCapacity}
  {process process' : Process handleCapacity} {pair pair' : ChannelPair}
  {handles : HandleTable handleCapacity} {k : Fin handleCapacity}
  (j : Fin maxUserProcesses) (l : Fin handleCapacity) (held : Capability)

theorem holds_congr (processes : after.processes = before.processes) :
    after.Holds j l held ↔ before.Holds j l held := by
  simp only [Holds, processes]

theorem queued_congr (channels : after.channels = before.channels) (d : Fin channelCapacity) :
    after.Queued d held ↔ before.Queued d held := by
  simp only [Queued, channels]

variable {j l held} in
theorem holds_of_update {entry : Option (Process handleCapacity)}
    (changed : after.processes = Function.update before.processes i entry) :
    after.Holds j l held ↔ j ≠ i ∧ before.Holds j l held ∨
      j = i ∧ ∃ process, entry = some process ∧ (process.handles.slots l).capability = some held := by
  unfold Holds
  rw [changed]
  by_cases here : j = i
  · subst here
    simp
  · simp [here]

variable {l held} in
theorem holds_of_registered (registered : before.processes i = some process) :
    before.Holds i l held ↔ (process.handles.slots l).capability = some held := by
  simp [Holds, registered]

theorem Dropped.holds_iff (dropped : Dropped before after i process handles k capability) :
    after.Holds j l held ↔ before.Holds j l held ∧ ¬(j = i ∧ l = k) := by
  rw [holds_of_update dropped.processes_eq]
  by_cases here : j = i
  · subst here
    rw [holds_of_registered dropped.registered]
    simp [dropped.emptied.capability_iff]
  · simp [here]

theorem Exited.holds_iff (exited : Exited before after i process) :
    after.Holds j l held ↔ before.Holds j l held ∧ j ≠ i := by
  rw [holds_of_update exited.processes_eq]
  simp [and_comm]

theorem Booted.holds_iff {addressSpace : ObjectId} (booted : Booted before after addressSpace) :
    after.Holds j l held ↔ before.Holds j l held := by
  rw [holds_of_update booted.processes_eq]
  by_cases here : j = 0
  · subst here
    simp [Holds, booted.vacant, Process.new, HandleTable.new, HandleSlot.empty]
  · simp [here]

theorem Churned.holds_iff (churned : Churned before after) : after.Holds j l held ↔ before.Holds j l held := by
  have related := churned.processes j
  unfold Holds
  generalize before.processes j = first at related ⊢
  generalize after.processes j = second at related ⊢
  cases related with
  | none => simp
  | some same => simp [same.capability]

variable {middle : HandleTable handleCapacity} {first second : Fin handleCapacity}

theorem Created.holds_iff (created : Created before after i c process pair middle handles first second) :
    after.Holds j l held ↔ before.Holds j l held ∨ j = i ∧
      (l = first ∧ held = ⟨pair.endpointA, endpointRights⟩ ∨ l = second ∧ held = ⟨pair.endpointB, endpointRights⟩) := by
  rw [holds_of_update created.processes_eq]
  by_cases here : j = i
  · subst here
    rw [holds_of_registered created.registered]
    simp [created.second.capability_iff, created.first.capability_iff, or_assoc]
  · simp [here]

theorem Spawned.holds_iff {child parent addressSpace childHandles first rights}
    (spawned : Spawned before after i child parent addressSpace handles childHandles k first capability rights) :
    after.Holds j l held ↔ before.Holds j l held ∧ ¬(j = 0 ∧ l = k) ∨
      j = i ∧ l = first ∧ held = ⟨capability.object, rights⟩ := by
  unfold Holds
  rw [spawned.processes_eq]
  by_cases here : j = i
  · subst here
    simp [spawned.vacant, spawned.filled.capability_iff, HandleTable.new, HandleSlot.empty]
  · by_cases root : j = 0
    · subst root
      simp [here, spawned.registered, spawned.emptied.capability_iff]
    · simp [here, root]

section
variable {endpoint : Handle} {message : OutgoingMessage} {index : Fin 2} {tokens : List TransferToken}
  {woken : List Nat}
variable (sent : Sent before after i c process process' pair pair' endpoint message capability index tokens woken)
include sent

theorem Sent.holds_iff : after.Holds j l held ↔ before.Holds j l held ∧
      ¬(j = i ∧ ∃ disposition ∈ message.transfers, process.handles.slot disposition.source = .ok l) := by
  obtain ⟨_, queued, _⟩ := sent.sent
  rw [holds_of_update sent.processes_eq]
  by_cases here : j = i
  · subst here
    rw [holds_of_registered sent.registered]
    simp only [ne_eq, not_true_eq_false, false_and, true_and, false_or, Option.some.injEq, exists_eq_left']
    constructor
    · intro present
      constructor
      · rcases queued.moves.slots l with same | ⟨_, _, free⟩
        · rw [← same]; exact present
        · rw [free] at present; cases present
      · rintro ⟨disposition, member, named⟩
        rw [queued.moves.emptied member named] at present
        cases present
    · rintro ⟨present, kept⟩
      rcases queued.moves.slots l with same | ⟨named, _⟩
      · rw [same]; exact present
      · exact absurd named kept
  · simp [here]

theorem Sent.queued_iff (d : Fin channelCapacity) :
    after.Queued d held ↔ before.Queued d held ∨ d = c ∧ ⟨held⟩ ∈ tokens := by
  obtain ⟨_, queued, _⟩ := sent.sent
  unfold Queued
  rw [sent.channels_eq]
  by_cases here : d = c
  · subst here
    simp [slotTokens_of_pair sent.channel, queued.mem_escrow]
  · simp [here]

end

section
variable {endpoint : Handle} {message : ReceivedMessage} {index : Fin 2} {entry : QueuedMessage}
variable (received : Received before after i c process process' pair pair' endpoint message capability index entry)
include received

theorem Received.holds_of (holds : after.Holds j l held) : before.Holds j l held ∨ ⟨held⟩ ∈ entry.escrow := by
  rw [holds_of_update received.processes_eq] at holds
  rcases holds with ⟨_, same⟩ | ⟨rfl, _, entered, present⟩
  · exact .inl same
  · cases entered
    rcases received.received.installs.slots l with same | ⟨_, token, member, filled⟩
    · rw [same] at present
      exact .inl ((holds_of_registered received.registered).mpr present)
    · rw [filled] at present
      cases present
      exact .inr member

theorem Received.holds (holds : before.Holds j l held) : after.Holds j l held := by
  rw [holds_of_update received.processes_eq]
  by_cases here : j = i
  · subst here
    rw [holds_of_registered received.registered] at holds
    rcases received.received.installs.slots l with same | ⟨free, _⟩
    · exact .inr ⟨rfl, _, rfl, by rw [same]; exact holds⟩
    · rw [free] at holds
      cases holds
  · exact .inl ⟨here, holds⟩

theorem Received.queued_iff (d : Fin channelCapacity) :
    before.Queued d held ↔ after.Queued d held ∨ d = c ∧ ⟨held⟩ ∈ entry.escrow := by
  unfold Queued
  rw [received.channels_eq]
  by_cases here : d = c
  · subst here
    simp [slotTokens_of_pair received.channel, received.received.mem_escrow, or_comm]
  · simp [here]

end

theorem Created.queued_iff (created : Created before after i c process pair middle handles first second)
    (d : Fin channelCapacity) : after.Queued d held ↔ before.Queued d held := by
  unfold Queued
  rw [created.channels_eq]
  by_cases here : d = c
  · subst here
    simp [ChannelSlot.eq_new_of_pair created.vacant, ChannelPair.escrow, created.empty]
  · simp [here]

end

end UserIpcState
end Nagi.Kernel
