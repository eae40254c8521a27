import Nagi.Kernel.Memory
import Nagi.Lib.Paging

/-! Page tables, and the check that an address is mapped to itself. -/

namespace Nagi.Kernel

open Function BitVec

def pageTableEntries : Nat := 512
def pageTableAddressMask : BitVec 64 := Lib.Paging.addressMask
def hugePageFlag : BitVec 64 := 0x80#64

abbrev PageTableEntry := BitVec 64

theorem place_aligned {address : Nat} (aligned : address % pageSize = 0) (position : Nat) :
    (address + position * pageSize) % pageSize = 0 := by
  rw [Nat.add_mul_mod_self_right]
  exact aligned

theorem place_bounded {address pages position : Nat} (placed : address + pages * pageSize ≤ 2 ^ 52)
    (inside : position < pages) : address + position * pageSize < 2 ^ 52 := by
  have below : (position + 1) * pageSize ≤ pages * pageSize := Nat.mul_le_mul_right _ inside
  have positive : 0 < pageSize := by decide
  rw [Nat.add_mul, Nat.one_mul] at below
  omega

namespace PageTableEntry

def present : BitVec 64 := 0x1#64
def writable : BitVec 64 := 0x2#64
def user : BitVec 64 := 0x4#64
def noExecute : BitVec 64 := 0x8000000000000000#64

def new (physicalAddress : Nat) (flags : BitVec 64) : Option PageTableEntry :=
  if physicalAddress % pageSize ≠ 0 ∨ physicalAddress ≥ 2 ^ 52 then none
  else some (BitVec.ofNat 64 physicalAddress ||| flags)

def address (entry : PageTableEntry) : Nat := (entry &&& pageTableAddressMask).toNat

def flags (entry : PageTableEntry) : BitVec 64 := entry &&& ~~~pageTableAddressMask

theorem getLsbD_addressMask (bit : Nat) : pageTableAddressMask.getLsbD bit = decide (12 ≤ bit ∧ bit < 52) := by
  rcases Nat.lt_or_ge bit 64 with within | beyond
  · have each : ∀ bit : Fin 64, pageTableAddressMask.getLsbD bit = decide (12 ≤ bit.val ∧ bit.val < 52) := by decide
    exact each ⟨bit, within⟩
  · rw [getLsbD_of_ge _ _ beyond]
    symm
    rw [decide_eq_false_iff_not]
    omega

theorem ofNat_and_addressMask {physicalAddress : Nat} (aligned : physicalAddress % pageSize = 0)
    (bounded : physicalAddress < 2 ^ 52) :
    BitVec.ofNat 64 physicalAddress &&& pageTableAddressMask = BitVec.ofNat 64 physicalAddress := by
  apply eq_of_getLsbD_eq
  intro bit within
  rw [getLsbD_and, getLsbD_addressMask, getLsbD_ofNat]
  by_cases inside : 12 ≤ bit ∧ bit < 52
  · simp [inside]
  -- below the page size and above the address width there are no bits
  have clear : physicalAddress.testBit bit = false := by
    rcases Nat.lt_or_ge bit 12 with low | high
    · obtain ⟨page, rfl⟩ := Nat.dvd_of_mod_eq_zero aligned
      have shifted : pageSize * page = page <<< 12 := by
        rw [Nat.shiftLeft_eq, Nat.mul_comm]
        rfl
      rw [shifted, Nat.testBit_shiftLeft]
      simp [Nat.not_le.mpr low]
    · have wide : 2 ^ 52 ≤ 2 ^ bit := Nat.pow_le_pow_right (by decide) (by omega)
      exact Nat.testBit_lt_two_pow (Nat.lt_of_lt_of_le bounded wide)
  simp [clear]

theorem of_new {physicalAddress : Nat} {flags : BitVec 64} {entry : PageTableEntry}
    (made : new physicalAddress flags = some entry) (apart : flags &&& pageTableAddressMask = 0#64) :
    entry.address = physicalAddress ∧ entry.flags = flags := by
  unfold new at made
  split_ifs at made with bad
  cases made
  obtain ⟨aligned, bounded⟩ := not_or.mp bad
  have kept := ofNat_and_addressMask (not_not.mp aligned) (Nat.not_le.mp bounded)
  have small : physicalAddress < 2 ^ 64 := by omega
  constructor
  · unfold address
    rw [and_or_distrib_right, kept, apart, or_zero, toNat_ofNat, Nat.mod_eq_of_lt small]
  · unfold PageTableEntry.flags
    have outside : BitVec.ofNat 64 physicalAddress &&& ~~~pageTableAddressMask = 0#64 := by
      rw [← kept, BitVec.and_assoc, BitVec.and_not_self]
      exact and_zero
    have inside : flags &&& ~~~pageTableAddressMask = flags := by
      calc flags &&& ~~~pageTableAddressMask
          = (flags &&& pageTableAddressMask) ||| (flags &&& ~~~pageTableAddressMask) := by rw [apart, zero_or]
        _ = flags &&& (pageTableAddressMask ||| ~~~pageTableAddressMask) := by rw [and_or_distrib_left]
        _ = flags := by rw [or_not_self, and_allOnes]
    rw [and_or_distrib_right, outside, inside]
    exact zero_or

end PageTableEntry

structure PageTable where
  entries : Nat → BitVec 64

namespace PageTable

def empty : PageTable := ⟨fun _ => 0⟩

variable (table : PageTable)

def rawEntry (index : Nat) : Option (BitVec 64) :=
  if index < pageTableEntries ∧ table.entries index ≠ 0 then some (table.entries index) else none

def set (index : Nat) (raw : BitVec 64) : PageTable := ⟨update table.entries index raw⟩

theorem entries_set_self (index : Nat) (raw : BitVec 64) : (table.set index raw).entries index = raw :=
  update_self ..

theorem entries_set_of_ne {index other : Nat} (different : other ≠ index) (raw : BitVec 64) :
    (table.set index raw).entries other = table.entries other := update_of_ne different ..

def replaceEmpty (index : Nat) (raw : BitVec 64) : Option PageTable :=
  if index ≥ pageTableEntries ∨ table.entries index ≠ 0 ∨ raw = 0 then none else some (table.set index raw)

def replace (index : Nat) (raw : BitVec 64) : Option PageTable :=
  if index ≥ pageTableEntries ∨ raw = 0 ∨ table.entries index = 0 then none else some (table.set index raw)

def unmap (index : Nat) : PageTable :=
  if index < pageTableEntries then table.set index 0 else table

end PageTable

section IdentityMapping
variable (readPageTableEntry : Nat → Nat → BitVec 64)

/-- A walk through the four levels; `readPageTableEntry` is what memory holds at an index of a table. -/
def pageIsIdentityMapped (cr3 virtualAddress : Nat) : Bool :=
  let pml4 := readPageTableEntry cr3 (virtualAddress / 2 ^ 39 % 512)
  if pml4 &&& 1 = 0 then false
  else
    let pdpt := readPageTableEntry (pml4 &&& pageTableAddressMask).toNat (virtualAddress / 2 ^ 30 % 512)
    if pdpt &&& 1 = 0 then false
    else if pdpt &&& hugePageFlag ≠ 0 then
      (pdpt &&& 0x000fffffc0000000#64).toNat + virtualAddress % 2 ^ 30 = virtualAddress
    else
      let pd := readPageTableEntry (pdpt &&& pageTableAddressMask).toNat (virtualAddress / 2 ^ 21 % 512)
      if pd &&& 1 = 0 then false
      else if pd &&& hugePageFlag ≠ 0 then
        (pd &&& 0x000fffffffe00000#64).toNat + virtualAddress % 2 ^ 21 = virtualAddress
      else
        let pt := readPageTableEntry (pd &&& pageTableAddressMask).toNat (virtualAddress / 2 ^ 12 % 512)
        if pt &&& 1 = 0 then false
        else (pt &&& pageTableAddressMask).toNat + virtualAddress % pageSize = virtualAddress

def identityMapped (cr3 address length : Nat) : Bool :=
  if cr3 % pageSize ≠ 0 ∨ cr3 ≥ 2 ^ 52 ∨ length = 0 ∨ address + length ≥ 2 ^ 64 then false
  else
    let first := address / pageSize
    let last := (address + length - 1) / pageSize
    (List.range (last + 1 - first)).all fun i =>
      pageIsIdentityMapped readPageTableEntry cr3 ((first + i) * pageSize)

end IdentityMapping
end Nagi.Kernel
