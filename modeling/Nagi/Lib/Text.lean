import Mathlib.Data.List.Basic

/-! Texts as lists of characters or bytes: Unicode classes, hashes, the first occurrence of a
separator, and what splitting at a character says about prefixes. -/

namespace Nagi.Lib.Text

open List

/-- The characters of the Unicode category Cc. -/
def isControl (char : Char) : Bool :=
  let code := char.toNat
  code < 0x20 ∨ 0x7f ≤ code ∧ code < 0xa0

/-- The characters with the Unicode property White_Space. -/
def isWhitespace (char : Char) : Bool :=
  let code := char.toNat
  0x09 ≤ code ∧ code ≤ 0x0d ∨ code = 0x20 ∨ code = 0x85 ∨ code = 0xa0 ∨ code = 0x1680 ∨
    0x2000 ≤ code ∧ code ≤ 0x200a ∨ code = 0x2028 ∨ code = 0x2029 ∨ code = 0x202f ∨ code = 0x205f ∨ code = 0x3000

def asciiBytes (text : String) : List UInt8 := text.toList.map fun char => UInt8.ofNat char.toNat

/-- The hash FNV-1a of 64 bits, with its multiplier open. -/
def fnv1a (multiplier : UInt64) (bytes : List UInt8) : UInt64 :=
  bytes.foldl (fun hash byte => (hash ^^^ byte.toUInt64) * multiplier) 0xcbf29ce484222325

/-- The text before and behind the first occurrence of a separator. -/
def splitOnce (separator : List Char) : List Char → Option (List Char × List Char)
  | [] => if separator = [] then some ([], []) else none
  | char :: rest =>
    if separator.isPrefixOf (char :: rest) then some ([], (char :: rest).drop separator.length)
    else (splitOnce separator rest).map fun parts => (char :: parts.1, parts.2)

theorem intercalate_append {α : Type} (separator : List α) {first : List (List α)} (nonempty : first ≠ [])
    (part : List α) (later : List (List α)) :
    separator.intercalate (first ++ part :: later) =
      separator.intercalate first ++ separator ++ separator.intercalate (part :: later) := by
  induction first with
  | nil => exact absurd rfl nonempty
  | cons head rest ih =>
    cases rest with
    | nil => simp
    | cons next rest =>
      have tail := ih (cons_ne_nil next rest)
      simp only [cons_append, intercalate_cons_cons] at tail ⊢
      rw [tail]
      simp

section
variable {α : Type} [BEq α] [LawfulBEq α]

theorem splitOn_append_cons (first rest : List α) (separator : α) :
    (first ++ separator :: rest).splitOn separator = first.splitOn separator ++ rest.splitOn separator :=
  splitOnP_append_cons first rest (by simp)

/-- The parts of one text start with those of another exactly if a whole number of parts is added. -/
theorem splitOn_prefix_iff (first second : List α) (separator : α) :
    first.splitOn separator <+: second.splitOn separator ↔
      second = first ∨ ∃ rest, second = first ++ separator :: rest := by
  constructor
  · rintro ⟨parts, split⟩
    have joined : [separator].intercalate (second.splitOn separator) = second := intercalate_splitOn separator
    rw [← split] at joined
    cases parts with
    | nil =>
      rw [append_nil, intercalate_splitOn] at joined
      exact .inl joined.symm
    | cons part later =>
      rw [intercalate_append [separator] (splitOn_ne_nil separator first), intercalate_splitOn] at joined
      refine .inr ⟨[separator].intercalate (part :: later), ?_⟩
      rw [← joined, append_assoc, singleton_append]
  · rintro (rfl | ⟨rest, rfl⟩)
    · exact prefix_rfl
    · rw [splitOn_append_cons]
      exact prefix_append ..

theorem prefix_then_iff (first second : List α) (separator : α) :
    first.isPrefixOf second = true ∧ (second.drop first.length).head? = some separator ↔
      ∃ rest, second = first ++ separator :: rest := by
  rw [List.isPrefixOf_iff_prefix]
  constructor
  · rintro ⟨⟨tail, rfl⟩, next⟩
    rw [drop_left] at next
    obtain ⟨rest, rfl⟩ := head?_eq_some_iff.mp next
    exact ⟨rest, rfl⟩
  · rintro ⟨rest, rfl⟩
    exact ⟨prefix_append .., by rw [drop_left, head?_cons]⟩

end
end Nagi.Lib.Text
