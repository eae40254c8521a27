import Mathlib.Data.List.Induction

/-! Chains of items that name the hash of the item before them.

`Chained` runs through the chain from front to back. If an item is determined by
its place and its hash, a chain is determined by its length and its last hash. -/

namespace Nagi.Lib

open List

/-- Every item fits its index and the hash in front of it; `last` is the hash behind the items. -/
inductive Chained {α H : Type} (fits : Nat → Option H → α → Prop) (hash : α → H) :
    Nat → Option H → List α → Option H → Prop where
  | nil {index : Nat} {previous : Option H} : Chained fits hash index previous [] previous
  | cons {index : Nat} {previous last : Option H} {item : α} {rest : List α} (fit : fits index previous item)
      (more : Chained fits hash (index + 1) (some (hash item)) rest last) :
      Chained fits hash index previous (item :: rest) last

namespace Chained

variable {α H : Type} {fits : Nat → Option H → α → Prop} {hash : α → H} {index : Nat}

theorem nil_iff {previous last : Option H} : Chained fits hash index previous [] last ↔ last = previous := by
  constructor
  · intro chained
    cases chained
    rfl
  · rintro rfl
    exact .nil

theorem cons_iff {previous last : Option H} {item : α} {rest : List α} :
    Chained fits hash index previous (item :: rest) last ↔
      fits index previous item ∧ Chained fits hash (index + 1) (some (hash item)) rest last := by
  constructor
  · intro chained
    cases chained with
    | cons fit more => exact ⟨fit, more⟩
  · exact fun ⟨fit, more⟩ => .cons fit more

theorem concat_iff {previous last : Option H} {items : List α} {item : α} :
    Chained fits hash index previous (items ++ [item]) last ↔
      ∃ middle, Chained fits hash index previous items middle ∧ fits (index + items.length) middle item ∧
        last = some (hash item) := by
  induction items generalizing index previous with
  | nil => simp [nil_iff, cons_iff]
  | cons head rest ih => simp [cons_iff, ih, Nat.add_right_comm, Nat.add_assoc, and_assoc]

theorem fits_of_mem {previous last : Option H} {items : List α} {item : α}
    (chained : Chained fits hash index previous items last) (member : item ∈ items) :
    ∃ place before, place < index + items.length ∧ fits place before item := by
  induction chained with
  | nil => cases member
  | @cons index _ _ head rest fit _ ih =>
    rcases mem_cons.mp member with rfl | later
    · exact ⟨index, _, Nat.lt_add_of_pos_right (Nat.succ_pos _), fit⟩
    · obtain ⟨place, before, within, fits⟩ := ih later
      refine ⟨place, before, ?_, fits⟩
      rw [length_cons]
      omega

/-- Two chains of one length that end in the same hash are the same. -/
theorem eq_of_last {first second : List α} {previous other last : Option H}
    (names : ∀ index previous other item, fits index previous item → fits index other item → previous = other)
    (determined : ∀ one ∈ first, ∀ two ∈ second, ∀ index previous other, fits index previous one →
      fits index other two → hash one = hash two → one = two)
    (left : Chained fits hash index previous first last) (right : Chained fits hash index other second last)
    (lengths : first.length = second.length) : first = second := by
  induction first using reverseRecOn generalizing second last with
  | nil => exact (length_eq_zero_iff.mp lengths.symm).symm
  | append_singleton items item ih =>
    rcases eq_nil_or_concat second with rfl | ⟨others, twin, rfl⟩
    · simp at lengths
    rw [concat_eq_append] at right lengths determined ⊢
    obtain ⟨middle, chained, fit, rfl⟩ := concat_iff.mp left
    obtain ⟨between, chained', fit', same⟩ := concat_iff.mp right
    have shorter : items.length = others.length := by simpa using lengths
    rw [← shorter] at fit'
    have equal : item = twin := determined item (by simp) twin (by simp) _ _ _ fit fit' (Option.some.inj same)
    subst equal
    have joined : middle = between := names _ _ _ _ fit fit'
    subst joined
    have rest : items = others := by
      refine ih (fun one member two member' => ?_) chained chained' shorter
      exact determined one (mem_append_left _ member) two (mem_append_left _ member')
    rw [rest]

end Chained
end Nagi.Lib
