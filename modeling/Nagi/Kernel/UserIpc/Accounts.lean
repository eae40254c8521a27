import Nagi.Kernel.UserIpc.State

/-! Who refers to an object: the channel slot or process that owns it, handles
in process tables, and tokens in channel queues. Each account is a sum over a
table, so each operation changes it by the cells it writes. -/

namespace Nagi.Kernel

open Lib Table List

namespace ChannelPair

def endpoints (pair : ChannelPair) : List ObjectId := [pair.endpointA, pair.endpointB]

def owned (pair : ChannelPair) : List ObjectId := pair.object :: pair.endpoints

def queueObjects (queue : Queue) : List ObjectId := queue.toList.flatMap (·.objects)

variable {pair : ChannelPair} {endpoint : ObjectId}

theorem sender_mem {index : Fin 2} (sends : pair.queueForSender endpoint = .ok index) : endpoint ∈ pair.endpoints := by
  rcases queueForSender_eq_ok.mp sends with ⟨same, _⟩ | ⟨same, _⟩ <;> simp [endpoints, same]

theorem receiver_mem {index : Fin 2} (receives : pair.queueForReceiver endpoint = .ok index) :
    endpoint ∈ pair.endpoints := by
  rcases queueForReceiver_eq_ok.mp receives with ⟨same, _⟩ | ⟨same, _⟩ <;> simp [endpoints, same]

theorem endpoint_kind {object : ObjectId} (member : object ∈ pair.endpoints) : object.kind = .channelEndpoint := by
  simp only [endpoints, mem_cons, not_mem_nil, or_false] at member
  rcases member with rfl | rfl
  · exact pair.endpointA_kind
  · exact pair.endpointB_kind

theorem count_endpoints_le (pair : ChannelPair) (object : ObjectId) :
    pair.endpoints.count object ≤ pair.owned.count object :=
  count_le_count_cons

theorem escrowObjects_perm (pair : ChannelPair) :
    pair.escrowObjects.Perm (queueObjects (pair.queues 0) ++ queueObjects (pair.queues 1)) := by
  have scanned : ∀ i, ((pair.queues i).scan.flatMap (·.objects)).Perm (queueObjects (pair.queues i)) :=
    fun i => (pair.queues i).scan_perm.flatMap_right _
  have order : finRange 2 = [0, 1] := by decide
  simp only [escrowObjects, order, flatMap_cons, flatMap_nil, append_nil]
  exact (scanned 0).append (scanned 1)

theorem mem_escrowObjects {object : ObjectId} : object ∈ pair.escrowObjects ↔
      ∃ index, ∃ entry ∈ (pair.queues index).toList, object ∈ entry.objects := by
  rw [pair.escrowObjects_perm.mem_iff, mem_append]
  simp only [queueObjects, mem_flatMap, Fin.exists_fin_two]

theorem count_escrow_withQueue (pair : ChannelPair) (index : Fin 2) (queue : Queue) (object : ObjectId) :
    (pair.withQueue index queue).escrowObjects.count object + (queueObjects (pair.queues index)).count object =
      pair.escrowObjects.count object + (queueObjects queue).count object := by
  rw [(escrowObjects_perm _).count_eq, (escrowObjects_perm pair).count_eq, count_append, count_append]
  match index with
  | 0 =>
    rw [withQueue_self, withQueue_of_ne pair queue (by decide : (1 : Fin 2) ≠ 0)]
    omega
  | 1 =>
    rw [withQueue_self, withQueue_of_ne pair queue (by decide : (0 : Fin 2) ≠ 1)]
    omega

end ChannelPair

namespace ChannelSlot

def endpoints (slot : ChannelSlot) : List ObjectId :=
  match slot.pair with
  | none => []
  | some pair => pair.endpoints

def owned (slot : ChannelSlot) : List ObjectId :=
  match slot.pair with
  | none => []
  | some pair => pair.owned

variable {slot : ChannelSlot} {pair : ChannelPair}

theorem endpoints_of_pair (held : slot.pair = some pair) : slot.endpoints = pair.endpoints := by
  simp only [endpoints, held]

theorem owned_of_pair (held : slot.pair = some pair) : slot.owned = pair.owned := by
  simp only [owned, held]

@[simp] theorem endpoints_new : new.endpoints = [] := rfl
@[simp] theorem owned_new : new.owned = [] := rfl
@[simp] theorem endpoints_occupied (pair : ChannelPair) : (occupied pair).endpoints = pair.endpoints := rfl
@[simp] theorem owned_occupied (pair : ChannelPair) : (occupied pair).owned = pair.owned := rfl

theorem count_endpoints_le (slot : ChannelSlot) (object : ObjectId) :
    slot.endpoints.count object ≤ slot.owned.count object := by
  unfold endpoints owned
  split
  · exact Nat.le_refl _
  · next pair _ => exact pair.count_endpoints_le object

theorem containsEndpoint_iff {object : ObjectId} : slot.containsEndpoint object = true ↔ object ∈ slot.endpoints := by
  unfold containsEndpoint endpoints
  rw [slot.endpointA_eq, slot.endpointB_eq]
  cases slot.pair with
  | none => simp
  | some pair =>
    simp only [Option.map_some, Bool.or_eq_true, beq_iff_eq, Option.some.injEq, ChannelPair.endpoints,
      mem_cons, not_mem_nil, or_false, @eq_comm _ object]

theorem pair_injective : Function.Injective ChannelSlot.pair := by
  rintro ⟨pair, _, _, _, rfl, rfl, rfl⟩ ⟨_, _, _, _, rfl, rfl, rfl⟩ rfl
  rfl

theorem eq_of_pair (held : slot.pair = some pair) : slot = .occupied pair := pair_injective held

theorem eq_new_of_pair (empty : slot.pair = none) : slot = .new := pair_injective empty

end ChannelSlot

namespace UserIpcState

theorem slotEscrow_of_pair {slot : ChannelSlot} {pair : ChannelPair} (held : slot.pair = some pair) :
    slotEscrow slot = pair.escrowObjects := by
  simp only [slotEscrow, held]

@[simp] theorem slotEscrow_new : slotEscrow .new = [] := rfl
@[simp] theorem slotEscrow_occupied (pair : ChannelPair) : slotEscrow (.occupied pair) = pair.escrowObjects := rfl

def tableObjects (process : Option (Process handleCapacity)) : List ObjectId :=
  match process with
  | none => []
  | some process => process.handles.objects

def addressSpaces (process : Option (Process handleCapacity)) : List ObjectId :=
  match process with
  | none => []
  | some process => [process.addressSpace]

@[simp] theorem tableObjects_none : tableObjects none = [] := rfl
@[simp] theorem tableObjects_some (process : Process handleCapacity) :
    tableObjects (some process) = process.handles.objects := rfl
@[simp] theorem addressSpaces_none : addressSpaces none = [] := rfl
@[simp] theorem addressSpaces_some (process : Process handleCapacity) :
    addressSpaces (some process) = [process.addressSpace] := rfl

variable (state : UserIpcState) (object : ObjectId)

@[irreducible] def handleCount : Nat :=
  ∑ i, (tableObjects (state.processes i)).count object

@[irreducible] def tokenCount : Nat :=
  ∑ c, (slotEscrow (state.channels c)).count object

/-- Capabilities that name the object, held or in transit. -/
def namedCount : Nat :=
  state.handleCount object + state.tokenCount object

/-- Channel slots that own the object, as their channel or as an endpoint. -/
@[irreducible] def slotCount : Nat :=
  ∑ c, (state.channels c).owned.count object

@[irreducible] def addressSpaceCount : Nat :=
  ∑ i, (addressSpaces (state.processes i)).count object

def ownerCount : Nat :=
  state.slotCount object + state.addressSpaceCount object

@[irreducible] def endpointCount : Nat :=
  ∑ c, (state.channels c).endpoints.count object

section
variable {before after : UserIpcState} {i : Fin maxUserProcesses} {c : Fin channelCapacity}
  {process : Option (Process handleCapacity)} {slot : ChannelSlot}

section
variable (changed : after.processes = Function.update before.processes i process)
include changed

theorem handleCount_of_update (object : ObjectId) :
    after.handleCount object + (tableObjects (before.processes i)).count object =
      before.handleCount object + (tableObjects process).count object := by
  unfold handleCount
  rw [changed]
  exact sum_update before.processes (fun process => (tableObjects process).count object) i process

theorem addressSpaceCount_of_update (object : ObjectId) :
    after.addressSpaceCount object + (addressSpaces (before.processes i)).count object =
      before.addressSpaceCount object + (addressSpaces process).count object := by
  unfold addressSpaceCount
  rw [changed]
  exact sum_update before.processes (fun process => (addressSpaces process).count object) i process

end

section
variable (changed : after.channels = Function.update before.channels c slot)
include changed

theorem tokenCount_of_update (object : ObjectId) :
    after.tokenCount object + (slotEscrow (before.channels c)).count object =
      before.tokenCount object + (slotEscrow slot).count object := by
  unfold tokenCount
  rw [changed]
  exact sum_update before.channels (fun slot => (slotEscrow slot).count object) c slot

theorem slotCount_of_update (object : ObjectId) : after.slotCount object + (before.channels c).owned.count object =
      before.slotCount object + slot.owned.count object := by
  unfold slotCount
  rw [changed]
  exact sum_update before.channels (fun slot => slot.owned.count object) c slot

theorem endpointCount_of_update (object : ObjectId) :
    after.endpointCount object + (before.channels c).endpoints.count object =
      before.endpointCount object + slot.endpoints.count object := by
  unfold endpointCount
  rw [changed]
  exact sum_update before.channels (fun slot => slot.endpoints.count object) c slot

end

end

theorem endpointCount_le : state.endpointCount object ≤ state.ownerCount object := by
  have slots : state.endpointCount object ≤ state.slotCount object := by
    unfold endpointCount slotCount
    exact Finset.sum_le_sum fun c _ => (state.channels c).count_endpoints_le object
  exact Nat.le_trans slots (Nat.le_add_right _ _)

variable {state} {object : ObjectId}

theorem handleCount_pos : 0 < state.handleCount object ↔
      ∃ i process, state.processes i = some process ∧ object ∈ process.handles.objects := by
  unfold handleCount
  simp only [Finset.sum_pos_iff, Finset.mem_univ, true_and, count_pos_iff]
  refine exists_congr fun i => ?_
  cases state.processes i <;> simp

theorem tokenCount_pos : 0 < state.tokenCount object ↔
      ∃ c pair, (state.channels c).pair = some pair ∧ object ∈ pair.escrowObjects := by
  unfold tokenCount slotEscrow
  simp only [Finset.sum_pos_iff, Finset.mem_univ, true_and, count_pos_iff]
  refine exists_congr fun c => ?_
  cases (state.channels c).pair <;> simp

theorem endpointCount_pos : 0 < state.endpointCount object ↔ ∃ c, object ∈ (state.channels c).endpoints := by
  unfold endpointCount
  simp only [Finset.sum_pos_iff, Finset.mem_univ, true_and, count_pos_iff]

/-- Every reference is accounted for, and no object has two owners. -/
structure Ledger (state : UserIpcState) : Prop where
  balanced : ∀ object, state.registry.refs object = state.ownerCount object + state.namedCount object
  single : ∀ object, state.ownerCount object ≤ 1
  full : ∀ c pair, (state.channels c).pair = some pair → pair.Full

namespace Ledger
variable {c : Fin channelCapacity}

theorem endpoint_unique (ledger : Ledger state) {d : Fin channelCapacity}
    (left : object ∈ (state.channels c).endpoints) (right : object ∈ (state.channels d).endpoints) : c = d := by
  have bound := Nat.le_trans (state.endpointCount_le object) (ledger.single object)
  unfold endpointCount at bound
  exact eq_of_sum_le_one bound (count_pos_iff.mpr left) (count_pos_iff.mpr right)

theorem channelWith_eq (ledger : Ledger state) :
    state.channelWith object = some c ↔ object ∈ (state.channels c).endpoints := by
  have occupied : ∀ d, ((state.channels d).pair.isSome && (state.channels d).containsEndpoint object) = true ↔
      object ∈ (state.channels d).endpoints := by
    intro d
    rw [Bool.and_eq_true, ChannelSlot.containsEndpoint_iff]
    refine ⟨And.right, fun member => ⟨?_, member⟩⟩
    cases held : (state.channels d).pair with
    | none => simp [ChannelSlot.endpoints, held] at member
    | some pair => rfl
  constructor
  · intro found
    exact (occupied c).mp (Fin.eq_true_of_find?_eq_some found)
  · intro member
    cases found : state.channelWith object with
    | none =>
      have missing := Fin.eq_false_of_find?_eq_none found c
      rw [(occupied c).mpr member] at missing
      cases missing
    | some d =>
      rw [ledger.endpoint_unique member ((occupied d).mp (Fin.eq_true_of_find?_eq_some found))]

theorem endpoint_kind {state : UserIpcState} (member : object ∈ (state.channels c).endpoints) :
    object.kind = .channelEndpoint := by
  unfold ChannelSlot.endpoints at member
  split at member
  · cases member
  · exact ChannelPair.endpoint_kind member

section
variable (ledger : Ledger state)
include ledger

theorem channelOf_eq : state.channelOf object = some c ↔ object ∈ (state.channels c).endpoints := by
  unfold channelOf
  split
  · exact ledger.channelWith_eq
  · next kind =>
    simp only [reduceCtorEq, false_iff]
    exact fun member => kind (endpoint_kind member)

theorem live_of_owned (owned : 0 < state.ownerCount object) : 0 < state.registry.refs object := by
  rw [ledger.balanced object]
  omega

theorem live_of_endpoint (member : object ∈ (state.channels c).endpoints) : 0 < state.registry.refs object :=
  ledger.live_of_owned (Nat.lt_of_lt_of_le (endpointCount_pos.mpr ⟨c, member⟩) (state.endpointCount_le object))

theorem live_of_named (named : 0 < state.namedCount object) : 0 < state.registry.refs object := by
  rw [ledger.balanced object]
  omega

end

end Ledger

end UserIpcState
end Nagi.Kernel
