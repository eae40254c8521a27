import Mathlib.Data.List.GetD
import Mathlib.Data.Nat.ModEq
import Mathlib.Tactic.Ring

/-! Numbers as bytes, the least significant one first, and blocks of a fixed number of bytes. -/

namespace Nagi.Lib

open List

def leBytes (width value : Nat) : List UInt8 := (range width).map fun i => UInt8.ofNat (value / 256 ^ i)

def leValue (bytes : List UInt8) : Nat := bytes.foldr (fun byte rest => byte.toNat + 256 * rest) 0

@[simp] theorem length_leBytes (width value : Nat) : (leBytes width value).length = width := by
  simp [leBytes]

theorem leBytes_succ (width value : Nat) :
    leBytes (width + 1) value = UInt8.ofNat value :: leBytes width (value / 256) := by
  simp only [leBytes, range_succ_eq_map, map_cons, map_map, pow_zero, Nat.div_one]
  congr 1
  apply map_congr_left
  intro i _
  simp only [Function.comp_apply, Nat.succ_eq_add_one, pow_succ', Nat.div_div_eq_div_mul]

theorem leValue_leBytes (width value : Nat) : leValue (leBytes width value) = value % 256 ^ width := by
  induction width generalizing value with
  | zero => simp [leBytes, leValue, Nat.mod_one]
  | succ width ih =>
    have low : (UInt8.ofNat value).toNat = value % 256 := by simp
    calc leValue (leBytes (width + 1) value)
        = (UInt8.ofNat value).toNat + 256 * leValue (leBytes width (value / 256)) := by
          rw [leBytes_succ]
          rfl
      _ = value % 256 + 256 * (value / 256 % 256 ^ width) := by rw [ih, low]
      _ = value % 256 ^ (width + 1) := by rw [pow_succ', Nat.mod_mul]

theorem leValue_lt (bytes : List UInt8) : leValue bytes < 256 ^ bytes.length := by
  induction bytes with
  | nil => exact Nat.one_pos
  | cons byte rest ih =>
    have small := byte.toNat_lt
    have value : leValue (byte :: rest) = byte.toNat + 256 * leValue rest := rfl
    rw [value, length_cons, pow_succ']
    omega

theorem leBytes_leValue (bytes : List UInt8) : leBytes bytes.length (leValue bytes) = bytes := by
  induction bytes with
  | nil => rfl
  | cons byte rest ih =>
    have small := byte.toNat_lt
    have value : leValue (byte :: rest) = byte.toNat + 256 * leValue rest := rfl
    have low : UInt8.ofNat (leValue (byte :: rest)) = byte := by
      apply UInt8.toNat_inj.mp
      rw [value, UInt8.toNat_ofNat', Nat.add_mul_mod_self_left, Nat.mod_eq_of_lt small]
    have high : leValue (byte :: rest) / 256 = leValue rest := by omega
    rw [length_cons, leBytes_succ, low, high, ih]

theorem take_drop_eq_map {bytes : List UInt8} {start count : Nat} (inside : start + count ≤ bytes.length) :
    (bytes.drop start).take count = (range count).map fun i => bytes.getD (start + i) 0 := by
  apply ext_getElem
  · simp
    omega
  · intro i within _
    simp at within
    simp [getElem?_eq_getElem (show start + i < bytes.length by omega)]

abbrev ByteBlock (size : Nat) := Fin size → UInt8

namespace ByteBlock

variable {size : Nat}

def zero : ByteBlock size := fun _ => 0

variable (block : ByteBlock size)

/-- The byte at an offset, and zero behind the end. -/
def byte (offset : Nat) : UInt8 :=
  if inside : offset < size then block ⟨offset, inside⟩ else 0

def slice (offset count : Nat) : List UInt8 :=
  (range count).map fun i => block.byte (offset + i)

def number (offset width : Nat) : Nat := leValue (block.slice offset width)

def put (offset : Nat) (source : List UInt8) : ByteBlock size := fun i =>
  if offset ≤ i.val ∧ i.val < offset + source.length then source.getD (i.val - offset) 0 else block i

def putAll (parts : List (Nat × List UInt8)) : ByteBlock size :=
  parts.foldl (fun block part => block.put part.1 part.2) block

variable {block} {source : List UInt8} {offset other count : Nat} {parts : List (Nat × List UInt8)}

theorem ext_byte {first second : ByteBlock size} (same : ∀ i < size, first.byte i = second.byte i) :
    first = second := by
  funext i
  have here := same i.val i.isLt
  simpa only [byte, i.isLt, dif_pos, Fin.eta] using here

theorem byte_zero (offset : Nat) : (zero : ByteBlock size).byte offset = 0 := by
  unfold byte zero
  split <;> rfl

theorem byte_put : (block.put offset source).byte other =
    if offset ≤ other ∧ other < offset + source.length ∧ other < size then source.getD (other - offset) 0
    else block.byte other := by
  unfold byte put
  by_cases inside : other < size <;> simp [inside]

theorem length_slice : (block.slice offset count).length = count := by
  simp [slice]

theorem getD_slice {i : Nat} (within : i < count) : (block.slice offset count).getD i 0 = block.byte (offset + i) := by
  rw [getD_eq_getElem _ _ (by rwa [length_slice])]
  simp [slice]

theorem slice_congr {first second : ByteBlock size}
    (same : ∀ i, offset ≤ i → i < offset + count → first.byte i = second.byte i) :
    first.slice offset count = second.slice offset count := by
  apply map_congr_left
  intro i member
  exact same (offset + i) (by omega) (by simpa using member)

theorem slice_put (block : ByteBlock size) (source : List UInt8) (inside : offset + source.length ≤ size) :
    (block.put offset source).slice offset source.length = source := by
  apply ext_getElem
  · rw [length_slice]
  · intro i _ within
    simp only [slice, getElem_map, getElem_range, byte_put]
    rw [if_pos (by omega), Nat.add_sub_cancel_left, getD_eq_getElem _ _ within]

/-- Bytes that no part covers stay as they are. -/
theorem byte_putAll (apart : ∀ part ∈ parts, other < part.1 ∨ part.1 + part.2.length ≤ other) (block : ByteBlock size) :
    (block.putAll parts).byte other = block.byte other := by
  induction parts generalizing block with
  | nil => rfl
  | cons part rest ih =>
    have later := ih (fun part member => apart part (mem_cons_of_mem _ member)) (block.put part.1 part.2)
    have here := apart part mem_cons_self
    refine later.trans ?_
    rw [byte_put, if_neg (by omega)]

theorem slice_putAll_of_disjoint
    (apart : ∀ part ∈ parts, other + count ≤ part.1 ∨ part.1 + part.2.length ≤ other) (block : ByteBlock size) :
    (block.putAll parts).slice other count = block.slice other count := by
  apply slice_congr
  intro i above below
  apply byte_putAll
  intro part member
  have either := apart part member
  omega

theorem slice_putAll (order : parts.Pairwise fun part next => part.1 + part.2.length ≤ next.1)
    (member : (offset, source) ∈ parts) (inside : offset + source.length ≤ size) (block : ByteBlock size) :
    (block.putAll parts).slice offset source.length = source := by
  induction parts generalizing block with
  | nil => cases member
  | cons part rest ih =>
    obtain ⟨later, order⟩ := pairwise_cons.mp order
    rcases mem_cons.mp member with rfl | inRest
    · refine (slice_putAll_of_disjoint (fun next within => .inl (later next within)) _).trans ?_
      exact slice_put block source inside
    · exact ih order inRest (block.put part.1 part.2)

theorem ordered_of_extents (extents : List (Nat × Nat))
    (shape : parts.map (fun part => (part.1, part.2.length)) = extents)
    (order : extents.Pairwise fun extent next => extent.1 + extent.2 ≤ next.1) :
    parts.Pairwise fun part next => part.1 + part.2.length ≤ next.1 := by
  rw [← shape] at order
  exact pairwise_map.mp order

theorem number_putAll_of_disjoint {width : Nat}
    (apart : ∀ part ∈ parts, other + width ≤ part.1 ∨ part.1 + part.2.length ≤ other) (block : ByteBlock size) :
    (block.putAll parts).number other width = block.number other width :=
  congrArg leValue (slice_putAll_of_disjoint apart block)

theorem number_putAll {width value : Nat} (order : parts.Pairwise fun part next => part.1 + part.2.length ≤ next.1)
    (member : (offset, leBytes width value) ∈ parts) (inside : offset + width ≤ size) (fits : value < 256 ^ width)
    (block : ByteBlock size) : (block.putAll parts).number offset width = value := by
  have whole := slice_putAll order member (by rwa [length_leBytes]) block
  rw [length_leBytes] at whole
  rw [number, whole, leValue_leBytes, Nat.mod_eq_of_lt fits]

end ByteBlock
end Nagi.Lib
