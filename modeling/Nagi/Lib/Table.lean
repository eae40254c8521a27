import Mathlib.Algebra.BigOperators.Fin
import Mathlib.Algebra.Order.BigOperators.Group.Finset

/-! Fixed tables as functions on a finite index type. A weight of a table is a sum over its cells, so one equation
per write is enough. -/

namespace Nagi.Lib.Table

open Function List

theorem update_cases {ι α : Type} [DecidableEq ι] {table : ι → α} {i j : ι} {value found : α}
    (there : update table i value j = found) : j = i ∧ value = found ∨ j ≠ i ∧ table j = found := by
  by_cases here : j = i
  · subst here
    rw [update_self] at there
    exact .inl ⟨rfl, there⟩
  · rw [update_of_ne here] at there
    exact .inr ⟨here, there⟩

section
variable {ι α : Type} [Fintype ι]

theorem sum_update [DecidableEq ι] (table : ι → α) (weight : α → Nat) (index : ι) (value : α) :
    (∑ i, weight (update table index value i)) + weight (table index) = (∑ i, weight (table i)) + weight value := by
  have rewritten : (fun i => weight (update table index value i)) = _ := comp_update weight table index value
  rw [rewritten, Finset.sum_update_of_mem (Finset.mem_univ index), Finset.sdiff_singleton_eq_erase]
  have split := Finset.sum_erase_add Finset.univ (weight ∘ table) (Finset.mem_univ index)
  simp only [comp_apply] at split ⊢
  omega

theorem le_sum (weight : ι → Nat) (index : ι) : weight index ≤ ∑ i, weight i :=
  Finset.single_le_sum (fun _ _ => Nat.zero_le _) (Finset.mem_univ index)

theorem eq_of_sum_le_one [DecidableEq ι] {weight : ι → Nat} (bound : ∑ i, weight i ≤ 1) {i j : ι}
    (left : 0 < weight i) (right : 0 < weight j) : i = j := by
  by_contra different
  have pair := Finset.sum_le_sum_of_subset (f := weight) (Finset.subset_univ ({i, j} : Finset ι))
  rw [Finset.sum_pair different] at pair
  omega

end

section
variable {n : Nat}

theorem countP_finRange (accept : Fin n → Bool) :
    (finRange n).countP accept = ∑ i, if accept i then 1 else 0 := by
  induction n with
  | zero => simp
  | succ n ih =>
    have rest := ih (fun i => accept i.succ)
    rw [finRange_succ, Fin.sum_univ_succ, ← rest, countP_cons, countP_map, Nat.add_comm]
    rfl

theorem exists_free {α : Type} {table : Fin n → Option α} (room : (∑ i, if (table i).isSome = true then 1 else 0) < n) :
    ∃ free, (Fin.find? fun i => (table i).isNone) = some free ∧ table free = none := by
  cases found : Fin.find? fun i => (table i).isNone with
  | some free => exact ⟨free, rfl, Option.isNone_iff_eq_none.mp (Fin.eq_true_of_find?_eq_some found)⟩
  | none =>
    have full (i : Fin n) : (table i).isSome = true := by simpa using Fin.eq_false_of_find?_eq_none found i
    simp [full] at room

theorem count_filterMap_finRange {β : Type} [DecidableEq β] (read : Fin n → Option β) (value : β) :
    ((finRange n).filterMap read).count value = ∑ i, if read i = some value then 1 else 0 := by
  rw [count_eq_countP, countP_filterMap, countP_finRange]
  apply Finset.sum_congr rfl
  intro i _
  cases read i <;> simp

end

theorem eq_of_count_map_le_one {α β : Type} [DecidableEq β] {f : α → β} {items : List α} {value : β}
    (bound : (items.map f).count value ≤ 1) {a b : α} (left : a ∈ items) (right : b ∈ items)
    (imageA : f a = value) (imageB : f b = value) : a = b := by
  induction items with
  | nil => cases left
  | cons first rest ih =>
    rw [map_cons, count_cons] at bound
    have absent : f first = value → ∀ item ∈ rest, f item ≠ value := by
      intro here item member image
      have : 0 < (rest.map f).count value := count_pos_iff.mpr (mem_map.mpr ⟨item, member, image⟩)
      rw [if_pos (by simpa using here)] at bound
      omega
    rcases mem_cons.mp left with rfl | leftRest <;> rcases mem_cons.mp right with rfl | rightRest
    · rfl
    · exact absurd imageB (absent imageA b rightRest)
    · exact absurd imageA (absent imageB a leftRest)
    · exact ih (Nat.le_trans (Nat.le_add_right _ _) bound) leftRest rightRest

theorem exists_of_forall₂ {α β : Type} {R : α → β → Prop} {left : List α} {right : List β}
    (related : List.Forall₂ R left right) {a : α} (member : a ∈ left) : ∃ b ∈ right, R a b := by
  induction related with
  | nil => cases member
  | cons first _ ih =>
    rcases mem_cons.mp member with rfl | later
    · exact ⟨_, mem_cons_self, first⟩
    · obtain ⟨b, present, here⟩ := ih later
      exact ⟨b, mem_cons_of_mem _ present, here⟩

theorem map_eq_of_forall₂ {α β γ : Type} {R : α → β → Prop} {f : α → γ} {g : β → γ} {left : List α} {right : List β}
    (related : List.Forall₂ R left right) (same : ∀ a b, R a b → f a = g b) : left.map f = right.map g := by
  induction related with
  | nil => rfl
  | cons head _ ih => rw [map_cons, map_cons, same _ _ head, ih]

/-- The cells at the items' keys hold the items' values, all others what they held before. -/
structure Filled {ι κ α : Type} (key : ι → κ) (value : ι → α) (before : κ → α) (items : List ι) (cells : κ → α) :
    Prop where
  at_key : ∀ item ∈ items, cells (key item) = value item
  elsewhere : ∀ k, (∀ item ∈ items, key item ≠ k) → cells k = before k

namespace Filled
variable {ι κ α : Type} {key : ι → κ} {value : ι → α} {before : κ → α} {items : List ι} {cells : κ → α}

theorem nil : Filled key value before [] before := ⟨nofun, fun _ _ => rfl⟩

theorem snoc [DecidableEq κ] (filled : Filled key value before items cells) {item : ι}
    (fresh : ∀ other ∈ items, key other ≠ key item) :
    Filled key value before (items ++ [item]) (update cells (key item) (value item)) := by
  constructor
  · intro other member
    rcases mem_append.mp member with earlier | last
    · rw [update_of_ne (fresh other earlier)]
      exact filled.at_key other earlier
    · rw [mem_singleton.mp last, update_self]
  · intro k away
    have notLast : k ≠ key item := (away item (mem_append_right _ mem_cons_self)).symm
    rw [update_of_ne notLast]
    exact filled.elsewhere k fun other member => away other (mem_append_left _ member)

end Filled

section Replay
variable {κ α : Type} [DecidableEq κ]

def replay (writes : List (κ × α)) (cells : κ → α) : κ → α :=
  writes.foldl (fun cells write => update cells write.1 write.2) cells

theorem replay_of_notMem {writes : List (κ × α)} {key : κ} (unwritten : key ∉ writes.map Prod.fst) (cells : κ → α) :
    replay writes cells key = cells key := by
  induction writes generalizing cells with
  | nil => rfl
  | cons write rest ih =>
    rw [map_cons, mem_cons, not_or] at unwritten
    exact (ih unwritten.2 _).trans (update_of_ne unwritten.1 ..)

theorem replay_of_mem {writes : List (κ × α)} (once : (writes.map Prod.fst).Nodup) {key : κ} {value : α}
    (member : (key, value) ∈ writes) (cells : κ → α) : replay writes cells key = value := by
  induction writes generalizing cells with
  | nil => cases member
  | cons write rest ih =>
    obtain ⟨unwritten, later⟩ := nodup_cons.mp once
    rcases mem_cons.mp member with rfl | inRest
    · exact (replay_of_notMem unwritten _).trans (update_self ..)
    · exact ih later inRest _

end Replay
end Nagi.Lib.Table
