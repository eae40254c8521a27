import Nagi.Kernel.UserMmap.Storage

/-! The check of user pointers into the window of anonymous mappings. -/

namespace Nagi.Kernel.UserMmap

open List

def mappedRange (table : PageTable) (base limit address length : Nat) (requiredFlags : BitVec 64) : Bool :=
  if length = 0 ∨ address < base then false
  else if address + length ≥ 2 ^ 64 then false
  else if address + length > limit then false
  else
    let first := (address - base) / pageSize
    let last := (address + length - 1 - base) / pageSize
    (range' first (last + 1 - first)).all fun index =>
      (table.rawEntry index).any fun entry => entry &&& requiredFlags = requiredFlags

section
variable (tables : Nat → PageTable) (requiredFlags : BitVec 64)

def mappedMmapPages (last page : Nat) : Bool :=
  if page ≤ last then
    let tableIndex := page / pageTableEntries
    let tableEnd := min ((tableIndex + 1) * pageTableEntries) (last + 1)
    let tableBase := userMmapBase + tableIndex * pageTableEntries * pageSize
    let partAddress := tableBase + page % pageTableEntries * pageSize
    let partLength := (tableEnd - page) * pageSize
    if ¬mappedRange (tables tableIndex) tableBase (tableBase + pageTableEntries * pageSize) partAddress partLength
        requiredFlags then
      false
    else mappedMmapPages last tableEnd
  else true
termination_by last + 1 - page
decreasing_by
  unfold pageTableEntries
  omega

def mappedMmapRange (window : Window) (address length : Nat) : Bool :=
  if length = 0 ∨ address < userMmapBase then false
  else if address + length ≥ 2 ^ 64 then false
  else if address + length > window.limit then false
  else
    mappedMmapPages tables requiredFlags ((address + length - 1 - userMmapBase) / pageSize)
      ((address - userMmapBase) / pageSize)

def Mapped (page : Nat) : Prop :=
  ∃ entry, (tables (page / pageTableEntries)).rawEntry (page % pageTableEntries) = some entry ∧
    entry &&& requiredFlags = requiredFlags

end

variable {tables : Nat → PageTable} {requiredFlags : BitVec 64}

theorem mappedRange_iff {table : PageTable} {base limit address length : Nat} (small : limit < 2 ^ 64) :
    mappedRange table base limit address length requiredFlags = true ↔
      0 < length ∧ base ≤ address ∧ address + length ≤ limit ∧
        ∀ index, (address - base) / pageSize ≤ index → index ≤ (address + length - 1 - base) / pageSize →
          ∃ entry, table.rawEntry index = some entry ∧ entry &&& requiredFlags = requiredFlags := by
  unfold mappedRange
  split_ifs with outside overflow beyond
  · exact ⟨nofun, fun inside => by omega⟩
  · exact ⟨nofun, fun inside => by omega⟩
  · exact ⟨nofun, fun inside => by omega⟩
  · have order : (address - base) / pageSize ≤ (address + length - 1 - base) / pageSize :=
      Nat.div_le_div_right (by omega)
    simp only [all_eq_true, mem_range'_1, Option.any_eq_true, decide_eq_true_eq, and_imp]
    constructor
    · intro each
      exact ⟨by omega, by omega, by omega, fun index above below => each index above (by omega)⟩
    · intro inside index above below
      exact inside.2.2.2 index above (by omega)

theorem mappedRange_part {page tableEnd : Nat} (below : page < tableEnd)
    (within : tableEnd ≤ (page / pageTableEntries + 1) * pageTableEntries) (small : tableEnd ≤ 2 ^ 20) :
    let tableBase := userMmapBase + page / pageTableEntries * pageTableEntries * pageSize
    mappedRange (tables (page / pageTableEntries)) tableBase (tableBase + pageTableEntries * pageSize)
        (tableBase + page % pageTableEntries * pageSize) ((tableEnd - page) * pageSize) requiredFlags = true ↔
      ∀ other, page ≤ other → other < tableEnd → Mapped tables requiredFlags other := by
  intro tableBase
  have entries : pageTableEntries = 512 := rfl
  have size : pageSize = 4096 := rfl
  have base : tableBase = userMmapBase + page / pageTableEntries * pageTableEntries * pageSize := rfl
  have start : userMmapBase = 0x400020800000 := rfl
  rw [entries] at within base ⊢
  rw [size] at base
  rw [mappedRange_iff (by omega), size]
  have first : (tableBase + page % 512 * 4096 - tableBase) / 4096 = page % 512 := by omega
  have last : (tableBase + page % 512 * 4096 + (tableEnd - page) * 4096 - 1 - tableBase) / 4096 =
      page % 512 + (tableEnd - page) - 1 := by omega
  rw [first, last]
  constructor
  · intro inside other above under
    have same : other / 512 = page / 512 := by omega
    rw [Mapped, entries, same]
    exact inside.2.2.2 _ (by omega) (by omega)
  · intro each
    refine ⟨by omega, by omega, by omega, fun index above under => ?_⟩
    have mapped := each (page / 512 * 512 + index) (by omega) (by omega)
    rw [Mapped, entries, show (page / 512 * 512 + index) / 512 = page / 512 by omega,
      show (page / 512 * 512 + index) % 512 = index by omega] at mapped
    exact mapped

theorem mappedMmapPages_iff {last page : Nat} (small : last < 2 ^ 20) :
    mappedMmapPages tables requiredFlags last page = true ↔
      ∀ other, page ≤ other → other ≤ last → Mapped tables requiredFlags other := by
  fun_induction mappedMmapPages tables requiredFlags last page with
  | case1 page inside tableIndex tableEnd _ _ _ unmapped =>
    have below : page < tableEnd := by unfold tableEnd tableIndex pageTableEntries; omega
    refine ⟨nofun, fun each => absurd ((mappedRange_part below (Nat.min_le_left ..) (by omega)).mpr ?_) unmapped⟩
    exact fun other above under => each other above (by omega)
  | case2 page inside tableIndex tableEnd _ _ _ mapped ih =>
    have below : page < tableEnd := by unfold tableEnd tableIndex pageTableEntries; omega
    have part := (mappedRange_part below (Nat.min_le_left ..) (by omega)).mp (not_not.mp mapped)
    rw [ih]
    constructor
    · intro later other above under
      by_cases here : other < tableEnd
      · exact part other above here
      · exact later other (by omega) under
    · exact fun each other above => each other (by omega)
  | case3 page beyond => exact ⟨fun _ other above below => by omega, fun _ => rfl⟩

/-- A range is accepted if it has a byte, lies in the window and all the pages with a byte of it have their flags. -/
theorem mappedMmapRange_iff (window : Window) (tables : Nat → PageTable) (requiredFlags : BitVec 64)
    (address length : Nat) : mappedMmapRange tables requiredFlags window address length = true ↔
      0 < length ∧ userMmapBase ≤ address ∧ address + length < 2 ^ 64 ∧ address + length ≤ window.limit ∧
        ∀ page byte, address ≤ byte → byte < address + length → (byte - userMmapBase) / pageSize = page →
          Mapped tables requiredFlags page := by
  have start : userMmapBase = 0x400020800000 := rfl
  have size : pageSize = 4096 := rfl
  have top : window.limit ≤ userMmapBase + 2 ^ 20 * 4096 := by
    have tables := window.tables_bound
    rw [Window.limit, Window.pages, size, pageTableEntries]
    omega
  unfold mappedMmapRange
  split_ifs with outside overflow beyond
  · exact ⟨nofun, fun inside => by omega⟩
  · exact ⟨nofun, fun inside => by omega⟩
  · exact ⟨nofun, fun inside => by omega⟩
  rw [size, mappedMmapPages_iff (by omega)]
  constructor
  · intro each
    refine ⟨by omega, by omega, by omega, by omega, fun page byte above below named => ?_⟩
    exact each page (by omega) (by omega)
  · intro inside page above below
    -- the first byte of the page, or of the range
    exact inside.2.2.2.2 page (max address (userMmapBase + page * 4096)) (by omega) (by omega) (by omega)

end Nagi.Kernel.UserMmap
