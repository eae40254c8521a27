import Nagi.Kernel.Handles.Registry

/-! Process-local handle tables of `kernel/src/handles.rs`.

A raw handle packs a table slot and the slot's generation. Every operation that
takes a capability out of a slot advances the slot's generation. -/

namespace Nagi.Kernel

open Function

structure Handle where
  raw : BitVec 64
  deriving DecidableEq

namespace Handle

def new (slot generation : Nat) : Handle :=
  ⟨(BitVec.ofNat 64 generation <<< 32) ||| BitVec.ofNat 64 slot⟩

def slot (handle : Handle) : Nat := (handle.raw &&& 0xFFFFFFFF#64).toNat

def generation (handle : Handle) : Nat := (handle.raw >>> 32).toNat

theorem slot_eq (handle : Handle) : handle.slot = handle.raw.toNat % 2 ^ 32 := by
  unfold slot
  exact Nat.and_two_pow_sub_one_eq_mod _ 32

theorem generation_eq (handle : Handle) : handle.generation = handle.raw.toNat / 2 ^ 32 := by
  unfold generation
  rw [BitVec.toNat_ushiftRight, Nat.shiftRight_eq_div_pow]

section
variable {slot generation : Nat} (slotSmall : slot < 2 ^ 32)
include slotSmall
variable (generationSmall : generation < 2 ^ 32)
include generationSmall

theorem raw_new : (new slot generation).raw.toNat = generation * 2 ^ 32 + slot := by
  unfold new
  rw [BitVec.toNat_or, BitVec.toNat_shiftLeft, BitVec.toNat_ofNat, BitVec.toNat_ofNat,
    Nat.mod_eq_of_lt (show generation < 2 ^ 64 by omega), Nat.mod_eq_of_lt (show slot < 2 ^ 64 by omega),
    Nat.shiftLeft_eq, Nat.mod_eq_of_lt (show generation * 2 ^ 32 < 2 ^ 64 by omega), Nat.mul_comm]
  exact (Nat.two_pow_add_eq_or_of_lt slotSmall generation).symm

theorem slot_new : (new slot generation).slot = slot := by
  rw [slot_eq, raw_new slotSmall generationSmall]
  omega

theorem generation_new : (new slot generation).generation = generation := by
  rw [generation_eq, raw_new slotSmall generationSmall]
  omega

end

theorem ext_of_parts {first second : Handle} (slots : first.slot = second.slot)
    (generations : first.generation = second.generation) : first = second := by
  rw [slot_eq, slot_eq] at slots
  rw [generation_eq, generation_eq] at generations
  have same : first.raw.toNat = second.raw.toNat := by omega
  exact congrArg Handle.mk (BitVec.eq_of_toNat_eq same)

end Handle

structure Capability where
  object : ObjectId
  rights : Rights
  deriving DecidableEq

/-- A capability in transit between two tables; it carries the reference that
the source handle held. -/
structure TransferToken where
  capability : Capability
  deriving DecidableEq

/-- A table slot. A slot at the last generation holds nothing, so a live handle
can always be closed. -/
structure HandleSlot where
  generation : Nat
  capability : Option Capability
  generation_pos : 0 < generation
  generation_le : generation ≤ u32Max
  live : capability.isSome = true → generation < u32Max

namespace HandleSlot

def empty : HandleSlot where
  generation := 1
  capability := none
  generation_pos := Nat.one_pos
  generation_le := one_le_u32Max
  live := by simp

def fill (slot : HandleSlot) (capability : Capability) (room : slot.generation ≠ u32Max) : HandleSlot :=
  { slot with
    capability := some capability
    live := fun _ => Nat.lt_of_le_of_ne slot.generation_le room }

/-- Drop the capability and advance by `saturating_add(1)`. Callers that have
excluded the last generation advance by exactly one. -/
def vacate (slot : HandleSlot) : HandleSlot where
  generation := if slot.generation = u32Max then u32Max else slot.generation + 1
  capability := none
  generation_pos := by split <;> [decide; exact Nat.succ_pos _]
  generation_le := by
    have := slot.generation_le
    split <;> omega
  live := by simp

end HandleSlot

structure HandleTable (n : Nat) where
  slots : Fin n → HandleSlot

namespace HandleTable
variable {n m : Nat}

def new : HandleTable n := ⟨fun _ => .empty⟩

/-- `slot` and `slot_mut`: the index a handle names, if its generation is current. -/
def slot (table : HandleTable n) (handle : Handle) : Except HandleError (Fin n) :=
  if bound : handle.slot < n then
    let i : Fin n := ⟨handle.slot, bound⟩
    if handle.generation = 0 ∨ (table.slots i).generation ≠ handle.generation then .error .stale
    else .ok i
  else .error .invalid

variable (table : HandleTable n) (registry : ObjectRegistry m) (handle : Handle)

def entry : Except HandleError Capability :=
  match table.slot handle with
  | .error error => .error error
  | .ok i =>
    match (table.slots i).capability with
    | none => .error .closed
    | some capability =>
      match registry.validate capability.object capability.object.kind with
      | .error error => .error error
      | .ok _ => .ok capability

def resolve : Except HandleError ObjectId :=
  (table.entry registry handle).map (·.object)

def rights (table : HandleTable n) (registry : ObjectRegistry m) (handle : Handle) :
    Except HandleError Rights :=
  (table.entry registry handle).map (·.rights)

def objects : List ObjectId :=
  (List.finRange n).filterMap fun i => (table.slots i).capability.map (·.object)

def require (expected : ObjectKind) (required : Rights) : Except HandleError ObjectId :=
  match table.entry registry handle with
  | .error error => .error error
  | .ok entry =>
    if entry.object.kind ≠ expected then .error .wrongType
    else if !entry.rights.contains required then .error .rightsMissing
    else .ok entry.object

def installCapability (object : ObjectId) (rights : Rights) : Except HandleError (Handle × HandleTable n) :=
  match found : Fin.find? fun i =>
      (table.slots i).capability.isNone && decide ((table.slots i).generation ≠ u32Max) with
  | none =>
    if (List.finRange n).any fun i => (table.slots i).capability.isNone then .error .generationExhausted
    else .error .tableFull
  | some i =>
    have room : (table.slots i).generation ≠ u32Max := by
      simpa using (Bool.and_eq_true_iff.mp (Fin.eq_true_of_find?_eq_some found)).2
    .ok (.new i.val (table.slots i).generation,
      ⟨update table.slots i ((table.slots i).fill ⟨object, rights⟩ room)⟩)

def insert (object : ObjectId) (rights : Rights) : Except HandleError Handle × HandleTable n × ObjectRegistry m :=
  match registry.retain object with
  | .error error => (.error error, table, registry)
  | .ok retained =>
    match table.installCapability object rights with
    | .ok (handle, table) => (.ok handle, table, retained)
    | .error error => (.error error, table, retained.discard object)

def close : Except HandleError (HandleTable n × ObjectRegistry m) :=
  match table.slot handle with
  | .error error => .error error
  | .ok i =>
    match (table.slots i).capability with
    | none => .error .closed
    | some capability =>
      if (table.slots i).generation = u32Max then .error .generationExhausted
      else
        match registry.release capability.object with
        | .error error => .error error
        | .ok registry => .ok (⟨update table.slots i (table.slots i).vacate⟩, registry)

def closeSlot (state : HandleTable n × ObjectRegistry m) (i : Fin n) : HandleTable n × ObjectRegistry m :=
  match (state.1.slots i).capability with
  | none => state
  | some capability =>
    (⟨update state.1.slots i (state.1.slots i).vacate⟩, state.2.discard capability.object)

def closeAll : HandleTable n × ObjectRegistry m :=
  (List.finRange n).foldl closeSlot (table, registry)

def checkMove (requested : Rights) : Except HandleError Unit :=
  match table.entry registry handle with
  | .error error => .error error
  | .ok capability =>
    if !capability.rights.contains .transfer || !requested.isSubsetOf capability.rights then
      .error .rightsMissing
    else
      match table.slot handle with
      | .error error => .error error
      | .ok i => if (table.slots i).generation = u32Max then .error .generationExhausted else .ok ()

def beginMove (requested : Rights) : Except HandleError (TransferToken × HandleTable n) :=
  match table.checkMove registry handle requested with
  | .error error => .error error
  | .ok _ =>
    match table.slot handle with
    | .error error => .error error
    | .ok i =>
      match (table.slots i).capability with
      | none => .error .closed
      | some capability =>
        if (table.slots i).generation = u32Max then .error .generationExhausted
        else .ok (⟨⟨capability.object, requested⟩⟩,
          ⟨update table.slots i (table.slots i).vacate⟩)

/-- Install a token; success takes it out of `token`. -/
def installToken (token : Option TransferToken) : Except HandleError (Handle × HandleTable n) :=
  match token with
  | none => .error .stale
  | some token =>
    match registry.validate token.capability.object token.capability.object.kind with
    | .error error => .error error
    | .ok _ => table.installCapability token.capability.object token.capability.rights

def rollbackInstall : Option (TransferToken × HandleTable n) :=
  match table.slot handle with
  | .error _ => none
  | .ok i =>
    match (table.slots i).capability with
    | none => none
    | some capability =>
      if (table.slots i).generation = u32Max then none
      else some (⟨capability⟩, ⟨update table.slots i (table.slots i).vacate⟩)

def hasCapacity (additional : Nat) : Bool :=
  additional ≤ (List.finRange n).countP fun i =>
    (table.slots i).capability.isNone && decide ((table.slots i).generation ≠ u32Max)

end HandleTable

structure Process (n : Nat) where
  id : Nat
  addressSpace : ObjectId
  handles : HandleTable n

def Process.new {n : Nat} (id : Nat) (addressSpace : ObjectId) : Process n := ⟨id, addressSpace, .new⟩

end Nagi.Kernel
