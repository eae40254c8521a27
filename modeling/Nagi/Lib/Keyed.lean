import Mathlib.Data.List.Sort

/-! Lists that are strictly ascending in a key: the values of an ordered map, in its order. -/

namespace Nagi.Lib

variable {α κ : Type} [Preorder κ] {key : α → κ} {items others : List α}

def Ascending (key : α → κ) (items : List α) : Prop := items.Pairwise fun first second => key first < key second

instance [DecidableLT κ] : Decidable (Ascending key items) :=
  inferInstanceAs (Decidable (items.Pairwise fun first second => key first < key second))

namespace Ascending

section
variable (ascending : Ascending key items)
include ascending

theorem filter (keep : α → Bool) : Ascending key (items.filter keep) :=
  List.Pairwise.filter keep ascending

theorem map {f : α → α} (keeps : ∀ item, key (f item) = key item) : Ascending key (items.map f) := by
  refine List.pairwise_map.mpr (List.Pairwise.imp ?_ ascending)
  intro first second below
  rwa [keeps, keeps]

theorem ext (other : Ascending key others) (same : ∀ item, item ∈ items ↔ item ∈ others) : items = others := by
  exact List.Pairwise.eq_of_mem_iff ascending other same

theorem find?_filter [DecidableEq κ] (keep : α → Bool) (wanted : κ) :
    (items.filter keep).find? (key · = wanted) = (items.find? (key · = wanted)).filter keep := by
  induction items with
  | nil => rfl
  | cons head rest ih =>
    obtain ⟨least, later⟩ := List.pairwise_cons.mp ascending
    by_cases named : key head = wanted
    · have absent : rest.find? (key · = wanted) = none := by
        simp only [List.find?_eq_none, decide_eq_true_eq]
        intro item member same
        exact absurd (least item member) (by rw [named, same]; exact lt_irrefl _)
      have rest := ih later
      rw [absent] at rest
      by_cases kept : keep head <;> simp [named, kept, Option.filter, rest]
    · by_cases kept : keep head <;> simp [named, kept, ih later]

end

end Ascending

end Nagi.Lib
