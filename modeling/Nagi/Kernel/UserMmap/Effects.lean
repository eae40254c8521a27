import Mathlib.Data.List.Range
import Mathlib.Order.Lattice.Nat
import Nagi.Kernel.UserMmap.Storage

/-! What each loop over a range of pages does to the arrays, in closed form. -/

namespace Nagi.Kernel.UserMmap

open PageTableEntry Function List

variable (storage : Storage)

def Storage.entry (page : Nat) : BitVec 64 :=
  (storage.tables (page / pageTableEntries)).entries (page % pageTableEntries)

def Storage.setEntry (page : Nat) (raw : BitVec 64) : Storage :=
  { storage with
    tables := update storage.tables (page / pageTableEntries)
      ((storage.tables (page / pageTableEntries)).set (page % pageTableEntries) raw) }

@[simp] theorem Storage.entry_setEntry (page other : Nat) (raw : BitVec 64) :
    (storage.setEntry page raw).entry other = if other = page then raw else storage.entry other := by
  unfold setEntry Storage.entry
  dsimp only
  by_cases table : other / pageTableEntries = page / pageTableEntries
  · rw [table, update_self]
    by_cases index : other % pageTableEntries = page % pageTableEntries
    · have same : other = page := by
        rw [← Nat.div_add_mod other pageTableEntries, table, index, Nat.div_add_mod]
      simp [same, PageTable.set]
    · have distinct : other ≠ page := fun same => index (congrArg (· % pageTableEntries) same)
      simp [distinct, PageTable.set, index]
  · have distinct : other ≠ page := fun same => table (congrArg (· / pageTableEntries) same)
    rw [update_of_ne table, if_neg distinct]

/-- Nothing but the page tables differs. -/
structure TablesOnly (before after : Storage) : Prop where
  frames : after.frames = before.frames
  freeFrames : after.freeFrames = before.freeFrames
  owners : after.owners = before.owners
  reservations : after.reservations = before.reservations
  memory : after.memory = before.memory

theorem TablesOnly.refl : TablesOnly storage storage := ⟨rfl, rfl, rfl, rfl, rfl⟩

/-- Nothing but the frames and what they hold differs. -/
structure FramesOnly (before after : Storage) : Prop where
  tables : after.tables = before.tables
  owners : after.owners = before.owners
  reservations : after.reservations = before.reservations

theorem FramesOnly.entry {before after : Storage} (frames : FramesOnly before after) (page : Nat) :
    after.entry page = before.entry page := by
  rw [Storage.entry, frames.tables]
  rfl

def Usable (frame : Nat) : Prop := frame ≠ 0 ∧ frame % pageSize = 0 ∧ frame < 2 ^ 52

instance (frame : Nat) : Decidable (Usable frame) := inferInstanceAs (Decidable (_ ∧ _))

def pageEntry (frame protection : Nat) : BitVec 64 := BitVec.ofNat 64 frame ||| mmapPageFlags protection

theorem flags_and_mask (protection : Nat) : mmapPageFlags protection &&& pageTableAddressMask = 0#64 := by
  unfold mmapPageFlags
  split_ifs <;> decide

theorem flags_and_user (protection : Nat) : mmapPageFlags protection &&& user = user := by
  unfold mmapPageFlags
  split_ifs <;> decide

theorem pageEntry_ne_zero (frame protection : Nat) : pageEntry frame protection ≠ 0#64 := by
  intro zero
  have user : pageEntry frame protection &&& user ≠ 0#64 := by
    rw [pageEntry, BitVec.and_or_distrib_right, flags_and_user]
    intro none
    have bit := congrArg (fun bits => bits.getLsbD 2) none
    simp [user] at bit
  rw [zero, BitVec.zero_and] at user
  exact user rfl

theorem pageEntry_spec {frame : Nat} (usable : Usable frame) (protection : Nat) :
    address (pageEntry frame protection) = frame ∧ flags (pageEntry frame protection) = mmapPageFlags protection := by
  refine of_new ?_ (flags_and_mask protection)
  unfold new
  rw [if_neg (not_or.mpr ⟨not_not.mpr usable.2.1, Nat.not_le.mpr usable.2.2⟩)]
  rfl

section
variable {window : Window}

theorem mmapPageLocation_eq {page : Nat} (inside : page < window.pages) :
    mmapPageLocation window page = some (page / pageTableEntries, page % pageTableEntries) := by
  unfold mmapPageLocation
  rw [if_pos]
  exact Nat.div_lt_of_lt_mul inside

theorem putEntry_eq {table : PageTable} {index : Nat} {raw : BitVec 64} (within : index < pageTableEntries)
    (nonzero : raw ≠ 0#64) : putEntry table index raw = some (table.set index raw) := by
  unfold putEntry PageTable.rawEntry PageTable.replace PageTable.replaceEmpty
  by_cases empty : table.entries index = 0#64
  · simp [empty, within, nonzero]
  · simp [empty, within, nonzero]

theorem remapPage_eq {storage : Storage} {page : Nat} (inside : page < window.pages) (protection : Nat) :
    remapPage window protection storage page =
      if Usable (storage.frames page) then
        some (storage.setEntry page (pageEntry (storage.frames page) protection))
      else none := by
  have index : page % pageTableEntries < pageTableEntries := Nat.mod_lt _ (by decide)
  have nonzero := pageEntry_ne_zero (storage.frames page) protection
  by_cases usable : Usable (storage.frames page)
  · have made : new (storage.frames page) (mmapPageFlags protection) =
        some (pageEntry (storage.frames page) protection) := by
      unfold new
      rw [if_neg (not_or.mpr ⟨not_not.mpr usable.2.1, Nat.not_le.mpr usable.2.2⟩)]
      rfl
    simp only [remapPage, usable.1, made, mmapPageLocation_eq inside, if_false, if_pos usable, Option.bind_eq_bind,
      Option.bind_some, putEntry_eq index nonzero]
    rfl
  · rw [if_neg usable]
    by_cases none : storage.frames page = 0
    · simp [remapPage, none]
    have refused : new (storage.frames page) (mmapPageFlags protection) = Option.none := by
      unfold new
      rw [if_pos]
      by_contra good
      push Not at good
      exact usable ⟨none, good.1, good.2⟩
    simp [remapPage, none, refused]

/-- The page is in the range, and every page of the range up to it has a usable frame. -/
def Reached (frames : Nat → Nat) (startPage pageCount page : Nat) : Prop :=
  startPage ≤ page ∧ page < startPage + pageCount ∧
    ∀ other ∈ range' startPage (page + 1 - startPage), Usable (frames other)

instance (frames : Nat → Nat) (startPage pageCount page : Nat) : Decidable (Reached frames startPage pageCount page) :=
  inferInstanceAs (Decidable (_ ∧ _))

theorem reached_iff {frames : Nat → Nat} {startPage pageCount page : Nat} :
    Reached frames startPage pageCount page ↔ startPage ≤ page ∧ page < startPage + pageCount ∧
      ∀ other, startPage ≤ other → other ≤ page → Usable (frames other) := by
  refine and_congr_right fun low => and_congr_right fun _ => forall_congr' fun other => ?_
  rw [mem_range'_1]
  constructor
  · intro usable from_start to_page
    exact usable ⟨from_start, by omega⟩
  · rintro usable ⟨from_start, below⟩
    exact usable from_start (by omega)

theorem reached_succ {frames : Nat → Nat} {startPage pageCount page : Nat} (usable : Usable (frames startPage)) :
    Reached frames startPage (pageCount + 1) page ↔ page = startPage ∨
      Reached frames (startPage + 1) pageCount page := by
  rw [reached_iff, reached_iff]
  constructor
  · rintro ⟨low, high, all⟩
    rcases Nat.eq_or_lt_of_le low with first | later
    · exact .inl first.symm
    · exact .inr ⟨later, by omega, fun other above below => all other (by omega) below⟩
  · rintro (rfl | ⟨low, high, all⟩)
    · refine ⟨Nat.le_refl _, by omega, fun other above below => ?_⟩
      rw [Nat.le_antisymm below above]
      exact usable
    · refine ⟨by omega, by omega, fun other above below => ?_⟩
      rcases Nat.eq_or_lt_of_le above with rfl | later
      · exact usable
      · exact all other later below

theorem remapMmapPages_spec (protection : Nat) {startPage pageCount : Nat} {storage : Storage}
    (inside : startPage + pageCount ≤ window.pages) :
    let (done, after) := remapMmapPages window protection startPage pageCount storage
    (done = true ↔ ∀ page, startPage ≤ page → page < startPage + pageCount → Usable (storage.frames page)) ∧
      TablesOnly storage after ∧
      ∀ page, after.entry page = if Reached storage.frames startPage pageCount page
        then pageEntry (storage.frames page) protection else storage.entry page := by
  induction pageCount generalizing startPage storage with
  | zero =>
    refine ⟨iff_of_true rfl fun page low high => ?_, .refl storage, fun page => ?_⟩
    · omega
    · rw [if_neg]
      rintro ⟨low, high, _⟩
      omega
  | succ count ih =>
    unfold remapMmapPages
    rw [remapPage_eq (by omega)]
    by_cases usable : Usable (storage.frames startPage)
    · rw [if_pos usable]
      obtain ⟨done, same, entries⟩ :=
        @ih (startPage + 1) (storage.setEntry startPage (pageEntry (storage.frames startPage) protection)) (by omega)
      have frames : (storage.setEntry startPage (pageEntry (storage.frames startPage) protection)).frames =
          storage.frames := rfl
      rw [frames] at done entries
      refine ⟨done.trans ?_, ⟨same.1, same.2, same.3, same.4, same.5⟩, fun page => ?_⟩
      · constructor
        · intro rest page low high
          rcases Nat.eq_or_lt_of_le low with rfl | later
          · exact usable
          · exact rest page later (by omega)
        · intro all page low high
          exact all page (by omega) (by omega)
      · rw [entries, Storage.entry_setEntry]
        simp only [reached_succ usable]
        by_cases first : page = startPage
        · subst first
          have later : ¬Reached storage.frames (page + 1) count page := fun reached => by
            have low := reached.1
            omega
          simp [later]
        · simp [first]
    · rw [if_neg usable]
      refine ⟨iff_of_false nofun fun all => usable (all startPage (Nat.le_refl _) (by omega)), .refl storage,
        fun page => ?_⟩
      rw [if_neg]
      rw [reached_iff]
      rintro ⟨low, _, all⟩
      exact usable (all startPage (Nat.le_refl _) low)

theorem unmapPage_eq {storage : Storage} {page : Nat} (inside : page < window.pages) :
    unmapPage window storage page = storage.setEntry page 0 := by
  unfold unmapPage
  rw [mmapPageLocation_eq inside]
  simp only [PageTable.unmap, if_pos (Nat.mod_lt page (show 0 < pageTableEntries by decide))]
  rfl

theorem unmapMmapPages_spec {storage : Storage} {startPage pageCount : Nat}
    (inside : startPage + pageCount ≤ window.pages) :
    TablesOnly storage (unmapMmapPages window storage startPage pageCount) ∧
      ∀ page, (unmapMmapPages window storage startPage pageCount).entry page =
        if startPage ≤ page ∧ page < startPage + pageCount then 0 else storage.entry page := by
  induction pageCount generalizing startPage storage with
  | zero =>
    refine ⟨.refl storage, fun page => ?_⟩
    rw [if_neg (by omega)]
    rfl
  | succ count ih =>
    have first : unmapMmapPages window storage startPage (count + 1) =
        unmapMmapPages window (storage.setEntry startPage 0) (startPage + 1) count := by
      unfold unmapMmapPages
      rw [range'_succ, foldl_cons, unmapPage_eq (by omega)]
    obtain ⟨same, entries⟩ := @ih (storage.setEntry startPage 0) (startPage + 1) (by omega)
    rw [first]
    refine ⟨⟨same.1, same.2, same.3, same.4, same.5⟩, fun page => ?_⟩
    rw [entries, Storage.entry_setEntry]
    by_cases here : page = startPage
    · rw [if_neg (by omega), if_pos here, if_pos (by omega)]
    · rw [if_neg here]
      congr 1
      exact propext (by omega)

end

theorem releaseMmapFrames_spec (storage : Storage) (startPage pageCount : Nat) :
    let after := releaseMmapFrames storage startPage pageCount
    FramesOnly storage after ∧ after.memory = storage.memory ∧
      (∀ page, after.frames page = if startPage ≤ page ∧ page < startPage + pageCount then 0 else storage.frames page) ∧
      after.freeFrames = storage.freeFrames ++ ((range' startPage pageCount).map storage.frames).filter (· ≠ 0) := by
  induction pageCount generalizing startPage storage with
  | zero =>
    refine ⟨⟨rfl, rfl, rfl⟩, rfl, fun page => ?_, by simp [releaseMmapFrames]⟩
    rw [if_neg (by omega)]
    rfl
  | succ count ih =>
    have first : releaseMmapFrames storage startPage (count + 1) =
        releaseMmapFrames (releaseFrame storage startPage) (startPage + 1) count := by
      unfold releaseMmapFrames
      rw [range'_succ, foldl_cons]
    obtain ⟨same, memory, frames, pool⟩ := ih (releaseFrame storage startPage) (startPage + 1)
    intro after
    have last : after = releaseMmapFrames (releaseFrame storage startPage) (startPage + 1) count := first
    rw [last]
    refine ⟨⟨same.1, same.2, same.3⟩, memory, fun page => ?_, ?_⟩
    · have taken : (releaseFrame storage startPage).frames = update storage.frames startPage 0 := rfl
      rw [frames, taken]
      by_cases here : page = startPage
      · subst here
        rw [if_neg (by omega), if_pos (by omega), update_self]
      · rw [update_of_ne here]
        congr 1
        exact propext (by omega)
    · have others : (range' (startPage + 1) count).map (releaseFrame storage startPage).frames =
          (range' (startPage + 1) count).map storage.frames := by
        apply map_congr_left
        intro page member
        have later := (mem_range'_1.mp member).1
        exact update_of_ne (by omega) _ _
      rw [pool, others, range'_succ, map_cons, filter_cons]
      by_cases none : storage.frames startPage = 0
      · simp [releaseFrame, none]
      · simp [releaseFrame, none]

structure Assigned (storage after : Storage) (startPage pageCount : Nat) (taken : List Nat) : Prop where
  pool : storage.freeFrames = after.freeFrames ++ taken
  only : FramesOnly storage after
  frames : (range' startPage pageCount).map after.frames = taken.reverse
  others : ∀ page, ¬(startPage ≤ page ∧ page < startPage + pageCount) → after.frames page = storage.frames page
  zeroed : ∀ frame ∈ taken, ∀ offset < pageSize, after.memory (frame + offset) = 0
  zeros : ∀ address, storage.memory address = 0 → after.memory address = 0

theorem assigned_foldl {storage : Storage} {startPage pageCount : Nat}
    (enough : pageCount ≤ storage.freeFrames.length) :
    ∃ taken, Assigned storage ((range' startPage pageCount).foldl assignFrame storage) startPage pageCount taken := by
  induction pageCount generalizing startPage storage with
  | zero =>
    refine ⟨[], (append_nil _).symm, ⟨rfl, rfl, rfl⟩, rfl, fun _ _ => rfl, nofun, fun _ zero => zero⟩
  | succ count ih =>
    rw [range'_succ, foldl_cons]
    obtain ⟨init, last, split⟩ := (eq_nil_or_concat storage.freeFrames).resolve_left (by
      intro empty
      rw [empty] at enough
      exact Nat.not_succ_le_zero count enough)
    rw [concat_eq_append] at split
    have pool : (assignFrame storage startPage).freeFrames = init := by
      simp [assignFrame, split]
    have placed : (assignFrame storage startPage).frames = update storage.frames startPage last := by
      simp [assignFrame, split]
    have cleared (address : Nat) : (assignFrame storage startPage).memory address =
        if last ≤ address ∧ address < last + pageSize then 0 else storage.memory address := by
      simp [assignFrame, split]
    obtain ⟨taken, assigned⟩ := @ih (assignFrame storage startPage) (startPage + 1) (by
      rw [split, length_append, length_singleton] at enough
      rw [pool]
      omega)
    refine ⟨taken ++ [last], ?_, ?_, ?_, ?_, ?_, ?_⟩
    · rw [split, ← append_assoc, ← assigned.pool, pool]
    · exact ⟨assigned.only.1, assigned.only.2, assigned.only.3⟩
    · have here := assigned.others startPage (by omega)
      rw [placed, update_self] at here
      rw [range'_succ, map_cons, here, assigned.frames, reverse_concat]
    · intro page outside
      rw [assigned.others page (by omega), placed, update_of_ne (by omega)]
    · intro frame member offset within
      rcases mem_append.mp member with later | first
      · exact assigned.zeroed frame later offset within
      · apply assigned.zeros
        rw [cleared, mem_singleton.mp first, if_pos (by omega)]
    · intro address zero
      apply assigned.zeros
      rw [cleared]
      split_ifs
      · rfl
      · exact zero

theorem assignMmapFrames_spec {storage assigned : Storage} {startPage pageCount : Nat}
    (done : assignMmapFrames storage startPage pageCount = some assigned) :
    ∃ taken, Assigned storage assigned startPage pageCount taken := by
  unfold assignMmapFrames at done
  split_ifs at done with short
  cases done
  exact assigned_foldl (Nat.not_lt.mp short)

section
variable {owners : Nat → Nat} {pageCount found : Nat}

/-- The scan finds the first run. The pages in front of the current run are the start of none. -/
theorem findRun_eq_some {left page runStart runLength : Nat} (short : runLength < pageCount)
    (begins : runLength ≠ 0 → runStart + runLength = page)
    (free : ∀ other, other < page → page ≤ other + runLength → owners other = 0)
    (none : ∀ start, start + runLength < page →
      ¬∀ other, start ≤ other → other < start + pageCount → owners other = 0) :
    findRun owners pageCount left page runStart runLength = some found ↔
      IsLeast {start | start + pageCount ≤ page + left ∧
        ∀ other, start ≤ other → other < start + pageCount → owners other = 0} found := by
  induction left generalizing page runStart runLength with
  | zero =>
    refine ⟨nofun, fun least => absurd least.1.2 (none found ?_)⟩
    have fits : found + pageCount ≤ page + 0 := least.1.1
    omega
  | succ left ih =>
    unfold findRun
    rw [show page + (left + 1) = page + 1 + left by omega]
    split
    · next here =>
      -- the run with this page
      generalize begin : (if runLength = 0 then page else runStart) = newStart
      have ends : newStart + runLength = page := by
        rw [← begin]
        split_ifs with fresh
        · omega
        · exact begins fresh
      have free' : ∀ other, other < page + 1 → page + 1 ≤ other + (runLength + 1) → owners other = 0 := by
        intro other below above
        by_cases last : other = page
        · exact last ▸ here
        · exact free other (by omega) (by omega)
      dsimp only
      split_ifs with complete
      · have least : IsLeast {start | start + pageCount ≤ page + 1 + left ∧
            ∀ other, start ≤ other → other < start + pageCount → owners other = 0} newStart := by
          refine ⟨⟨by omega, fun other above below => free' other (by omega) (by omega)⟩, fun start run => ?_⟩
          by_contra earlier
          exact none start (by omega) run.2
        rw [Option.some.injEq]
        exact ⟨fun same => same ▸ least, fun other => least.unique other⟩
      · exact ih (by omega) (fun _ => by omega) free' fun start earlier => none start (by omega)
    · next owned =>
      refine ih (by omega) (fun nonzero => absurd rfl nonzero)
        (fun other below above => by omega) fun start earlier run => ?_
      by_cases before : start + runLength < page
      · exact none start before run
      · exact owned (run page (by omega) (by omega))

theorem findMmapStartPage_eq_some {window : Window} : findMmapStartPage window owners pageCount = some found ↔
    0 < pageCount ∧ IsLeast {start | start + pageCount ≤ window.pages ∧
      ∀ page, start ≤ page → page < start + pageCount → owners page = 0} found := by
  unfold findMmapStartPage
  split_ifs with bad
  · refine ⟨nofun, fun ⟨positive, least⟩ => ?_⟩
    have fits : found + pageCount ≤ window.pages := least.1.1
    omega
  · rw [findRun_eq_some (by omega) (fun nonzero => absurd rfl nonzero) (fun other below _ => by omega)
      (fun start earlier => by omega), Nat.zero_add, and_iff_right (by omega)]

end

theorem findMmapStartPage_first (window : Window) (owners : Nat → Nat) (pageCount : Nat) :
    let runs := {start | start + pageCount ≤ window.pages ∧
      ∀ page, start ≤ page → page < start + pageCount → owners page = 0}
    ((∃ startPage, findMmapStartPage window owners pageCount = some startPage) ↔ 0 < pageCount ∧ runs.Nonempty) ∧
      ∀ startPage, findMmapStartPage window owners pageCount = some startPage → IsLeast runs startPage := by
  refine ⟨⟨?_, ?_⟩, fun startPage run => (findMmapStartPage_eq_some.mp run).2⟩
  · rintro ⟨startPage, run⟩
    obtain ⟨positive, least⟩ := findMmapStartPage_eq_some.mp run
    exact ⟨positive, startPage, least.1⟩
  · rintro ⟨positive, nonempty⟩
    exact ⟨_, findMmapStartPage_eq_some.mpr ⟨positive, Nat.sInf_mem nonempty, fun _ => Nat.sInf_le⟩⟩

/-- Nothing is asked for, and the first of the free pages is no answer. -/
theorem empty_request_finds_no_run :
    let window : Window := ⟨1, 1, by decide, by decide, by decide⟩
    let owners : Nat → Nat := fun _ => 0
    findMmapStartPage window owners 0 = none ∧
      IsLeast {start | start + 0 ≤ window.pages ∧ ∀ page, start ≤ page → page < start + 0 → owners page = 0} 0 :=
  ⟨rfl, ⟨Nat.zero_le _, fun _ _ _ => rfl⟩, fun _ _ => Nat.zero_le _⟩

end Nagi.Kernel.UserMmap
