import Mathlib.Data.List.Nodup
import Mathlib.Data.List.ReduceOption

/-! Tables of slots, each empty or with one entry. -/

namespace Nagi.Lib.Slots

variable {α : Type}

def replaceFirst (suitable : Option α → Bool) (new : Option α) : List (Option α) → Option (List (Option α))
  | [] => none
  | slot :: rest =>
    if suitable slot then some (new :: rest) else (replaceFirst suitable new rest).map (slot :: ·)

def clear (gone : α → Bool) (table : List (Option α)) : List (Option α) := table.map (·.filter (!gone ·))

variable {suitable : Option α → Bool} {new : Option α} {table after : List (Option α)}

theorem replaceFirst_perm (replaced : replaceFirst suitable new table = some after) :
    ∃ slot rest, suitable slot ∧ table.reduceOption.Perm (slot.toList ++ rest) ∧
      after.reduceOption.Perm (new.toList ++ rest) := by
  induction table generalizing after with
  | nil => cases replaced
  | cons slot table ih =>
    have shown (entry : Option α) (others : List (Option α)) :
        (entry :: others).reduceOption = entry.toList ++ others.reduceOption := by cases entry <;> rfl
    rw [replaceFirst] at replaced
    split at replaced
    · next fits =>
      cases replaced
      exact ⟨slot, table.reduceOption, fits, shown .. ▸ .refl _, shown .. ▸ .refl _⟩
    · obtain ⟨later, found, rfl⟩ := Option.map_eq_some_iff.mp replaced
      obtain ⟨other, rest, fits, before, behind⟩ := ih found
      refine ⟨other, slot.toList ++ rest, fits, ?_, ?_⟩
      · exact shown .. ▸ (before.append_left _).trans (List.perm_append_comm_assoc ..)
      · exact shown .. ▸ (behind.append_left _).trans (List.perm_append_comm_assoc ..)

theorem emptied_sublist (emptied : replaceFirst suitable none table = some after) :
    after.reduceOption.Sublist table.reduceOption := by
  induction table generalizing after with
  | nil => cases emptied
  | cons slot table ih =>
    rw [replaceFirst] at emptied
    split at emptied
    · cases emptied
      cases slot <;> simp
    · obtain ⟨later, found, rfl⟩ := Option.map_eq_some_iff.mp emptied
      cases slot <;> simpa using ih found

theorem replaceFirst_eq_none (missed : replaceFirst suitable new table = none) : ∀ slot ∈ table, ¬suitable slot := by
  induction table with
  | nil => exact nofun
  | cons slot table ih =>
    rw [replaceFirst] at missed
    split at missed
    · cases missed
    · next unfit => exact List.forall_mem_cons.mpr ⟨unfit, ih (Option.map_eq_none_iff.mp missed)⟩

theorem length_replaceFirst (replaced : replaceFirst suitable new table = some after) :
    after.length = table.length := by
  induction table generalizing after with
  | nil => cases replaced
  | cons slot table ih =>
    rw [replaceFirst] at replaced
    split at replaced
    · cases replaced
      rfl
    · obtain ⟨later, found, rfl⟩ := Option.map_eq_some_iff.mp replaced
      rw [List.length_cons, List.length_cons, ih found]

theorem place_perm {entry : α} (placed : replaceFirst Option.isNone (some entry) table = some after) :
    after.reduceOption.Perm (entry :: table.reduceOption) := by
  obtain ⟨slot, rest, free, before, behind⟩ := replaceFirst_perm placed
  cases slot with
  | none => exact behind.trans (before.symm.cons entry)
  | some other => cases free

/-- With no free slot in front of an entry, a new one comes last. -/
theorem place_last {entry : α} (gapless : table.Pairwise fun first second => second.isSome → first.isSome)
    (placed : replaceFirst Option.isNone (some entry) table = some after) :
    after.reduceOption = table.reduceOption ++ [entry] := by
  induction gapless generalizing after with
  | nil => cases placed
  | @cons slot table front _ ih =>
    cases slot with
    | none =>
      cases placed
      have free : table.reduceOption = [] := List.filterMap_eq_nil_iff.mpr fun slot member => by
        simpa using front slot member
      simp [free]
    | some held =>
      obtain ⟨later, found, rfl⟩ := Option.map_eq_some_iff.mp placed
      simp [ih found]

theorem exchange_missed {isThis : α → Bool} (missed : replaceFirst (·.any isThis) new table = none) :
    ∀ entry ∈ table.reduceOption, ¬isThis entry :=
  fun entry member => replaceFirst_eq_none missed (some entry) (List.reduceOption_mem_iff.mp member)

theorem filter_missed {isThis : α → Bool} (missed : replaceFirst (·.any isThis) new table = none) :
    table.reduceOption.filter (!isThis ·) = table.reduceOption :=
  List.filter_eq_self.mpr fun entry member => by simpa using exchange_missed missed entry member

section
variable {κ : Type} {key : α → κ} {wanted : κ} {isThis : α → Bool} (named : ∀ entry, isThis entry ↔ key entry = wanted)
include named

/-- A key that names at most one entry names the entry found with it. -/
theorem find?_eq_some_iff {entries : List α} (distinct : (entries.map key).Nodup) {entry : α} :
    entries.find? isThis = some entry ↔ entry ∈ entries ∧ key entry = wanted := by
  constructor
  · exact fun found => ⟨List.mem_of_find?_eq_some found, (named entry).mp (List.find?_some found)⟩
  · rintro ⟨member, same⟩
    obtain ⟨first, found⟩ := Option.isSome_iff_exists.mp (List.find?_isSome.mpr ⟨entry, member, (named entry).mpr same⟩)
    have here := (named first).mp (List.find?_some found)
    rw [found, List.inj_on_of_nodup_map distinct (List.mem_of_find?_eq_some found) member (here.trans same.symm)]

theorem exchange_perm (distinct : (table.reduceOption.map key).Nodup)
    (replaced : replaceFirst (·.any isThis) new table = some after) :
    (∃ entry, table.reduceOption.find? isThis = some entry) ∧
      after.reduceOption.Perm (new.toList ++ table.reduceOption.filter (!isThis ·)) := by
  obtain ⟨slot, rest, found, before, behind⟩ := replaceFirst_perm replaced
  cases slot with
  | none => cases found
  | some entry =>
    have here := (named entry).mp found
    have others := (List.nodup_cons.mp ((before.map key).nodup_iff.mp distinct)).1
    refine ⟨⟨entry, (find?_eq_some_iff named distinct).mpr ⟨before.mem_iff.mpr List.mem_cons_self, here⟩⟩,
      behind.trans (.append_left _ (.symm ((before.filter _).trans (.of_eq ?_))))⟩
    rw [Option.toList_some, List.singleton_append, List.filter_cons_of_neg (by simpa using found)]
    refine List.filter_eq_self.mpr fun other member => ?_
    rw [Bool.not_eq_true', Bool.eq_false_iff, ne_eq, named]
    exact fun same => others (List.mem_map.mpr ⟨other, member, same.trans here.symm⟩)

theorem removed_perm (distinct : (table.reduceOption.map key).Nodup) :
    ((replaceFirst (·.any isThis) none table).getD table).reduceOption.Perm
      (table.reduceOption.filter (!isThis ·)) := by
  cases removed : replaceFirst (·.any isThis) none table with
  | none => exact .of_eq (filter_missed removed).symm
  | some after => exact (exchange_perm named distinct removed).2

end

theorem reduceOption_clear (gone : α → Bool) (table : List (Option α)) :
    (clear gone table).reduceOption = table.reduceOption.filter (!gone ·) := by
  simp only [clear, List.reduceOption, List.filterMap_map, List.filter_filterMap]
  rfl

end Nagi.Lib.Slots
