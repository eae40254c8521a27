import Nagi.Kernel.UserMmap.Ownership

/-! The page tables follow the ownership and the protections that were applied.

A call that stops at a page without a usable frame has been applied to the pages in
front of it, so the history of a page also counts calls that were refused. -/

namespace Nagi.Kernel.UserMmap

open Lib Runs List

section
variable {window : Window} {protection : Nat} {storage : Storage} {startPage pageCount : Nat}

theorem giveBack_spec (inside : startPage + pageCount ≤ window.pages) :
    let after := giveBack window storage startPage pageCount
    after.owners = storage.owners ∧ after.reservations = storage.reservations ∧
      (∀ page, after.frames page = if startPage ≤ page ∧ page < startPage + pageCount then 0 else storage.frames page) ∧
      after.freeFrames =
        storage.freeFrames ++ ((range' startPage pageCount).map storage.frames).filter (· ≠ 0) ∧
      ∀ page, after.entry page =
        if startPage ≤ page ∧ page < startPage + pageCount then 0 else storage.entry page := by
  obtain ⟨tables, entries⟩ := @unmapMmapPages_spec window storage startPage pageCount inside
  obtain ⟨only, _, frames, pool⟩ :=
    releaseMmapFrames_spec (unmapMmapPages window storage startPage pageCount) startPage pageCount
  rw [tables.frames] at frames pool
  rw [tables.freeFrames] at pool
  refine ⟨only.owners.trans tables.owners, only.reservations.trans tables.reservations, frames, pool, fun page => ?_⟩
  exact (only.entry page).trans (entries page)

theorem mapRange_spec (protection : Nat) (inside : startPage + pageCount ≤ window.pages) :
    let (done, after) := mapRange window protection startPage pageCount storage
    TablesOnly storage after ∧
      (done = true → protection ≠ 0 →
        ∀ page, startPage ≤ page → page < startPage + pageCount → Usable (storage.frames page)) ∧
      ∀ page, after.entry page = if protection ≠ 0 ∧ Reached storage.frames startPage pageCount page
        then pageEntry (storage.frames page) protection else storage.entry page := by
  unfold mapRange
  by_cases none : protection = protNone
  · rw [if_pos none]
    exact ⟨.refl storage, fun _ some => absurd none some, fun page => by rw [if_neg fun both => both.1 none]⟩
  rw [if_neg none]
  obtain ⟨done, only, entries⟩ := @remapMmapPages_spec window protection startPage pageCount storage inside
  refine ⟨only, fun succeeded _ => done.mp succeeded, fun page => ?_⟩
  have some : protection ≠ 0 := none
  rw [entries]
  simp [some]

inductive MmapOutcome (window : Window) (storage : Storage) (length protection : Nat) :
    Except Failure Nat → Storage → Prop where
  | refused {failure : Failure} : MmapOutcome window storage length protection (.error failure) storage
  | undone {failure : Failure} {startPage pageCount : Nat} {taken : List Nat} {assigned after : Storage}
      (inside : startPage + pageCount ≤ window.pages)
      (free : ∀ page, startPage ≤ page → page < startPage + pageCount → storage.owners page = 0)
      (gave : Assigned storage assigned startPage pageCount taken)
      (owners : after.owners = storage.owners) (reservations : after.reservations = storage.reservations)
      (frames : ∀ page, after.frames page =
        if startPage ≤ page ∧ page < startPage + pageCount then 0 else storage.frames page)
      (pool : after.freeFrames = assigned.freeFrames ++ taken.reverse.filter (· ≠ 0))
      (entries : ∀ page, after.entry page =
        if startPage ≤ page ∧ page < startPage + pageCount then 0 else storage.entry page) :
      MmapOutcome window storage length protection (.error failure) after
  | mapped {slot startPage pageCount : Nat} {taken : List Nat} {assigned after : Storage}
      (size : length = pageCount * pageSize) (positive : 0 < pageCount)
      (inside : startPage + pageCount ≤ window.pages)
      (free : ∀ page, startPage ≤ page → page < startPage + pageCount → storage.owners page = 0)
      (within : slot < window.maxReservations) (empty : storage.reservations slot = none)
      (gave : Assigned storage assigned startPage pageCount taken)
      (usable : protection ≠ 0 →
        ∀ page, startPage ≤ page → page < startPage + pageCount → Usable (assigned.frames page))
      (owners : after.owners = fill storage.owners startPage pageCount (slot + 1))
      (reservations : after.reservations = Function.update storage.reservations slot (some pageCount))
      (frames : after.frames = assigned.frames) (pool : after.freeFrames = assigned.freeFrames)
      (memory : after.memory = assigned.memory)
      (entries : ∀ page, after.entry page =
        if protection ≠ 0 ∧ startPage ≤ page ∧ page < startPage + pageCount
        then pageEntry (assigned.frames page) protection else storage.entry page) :
      MmapOutcome window storage length protection (.ok (userMmapBase + startPage * pageSize)) after

variable {length : Nat}

theorem validateMmapRequest_some (valid : validateMmapRequest window length protection = some pageCount) :
    length = pageCount * pageSize ∧ 0 < pageCount ∧ pageCount ≤ window.pages ∧ protection ≤ 7 := by
  unfold validateMmapRequest at valid
  split_ifs at valid with bad
  push Not at bad
  cases valid
  obtain ⟨nonzero, whole, small, fits⟩ := bad
  have exact : length = length / pageSize * pageSize := (Nat.div_mul_cancel (Nat.dvd_of_mod_eq_zero whole)).symm
  refine ⟨exact, ?_, ?_, by omega⟩
  · exact Nat.pos_of_ne_zero fun zero => nonzero (by rw [exact, zero, Nat.zero_mul])
  · exact Nat.div_le_of_le_mul (by rw [Nat.mul_comm]; omega)

theorem registerMmapReservation_eq {slot : Nat} (positive : 0 < pageCount)
    (inside : startPage + pageCount ≤ window.pages) (within : slot < window.maxReservations)
    (empty : storage.reservations slot = none)
    (free : ∀ page, startPage ≤ page → page < startPage + pageCount → storage.owners page = 0) :
    registerMmapReservation window storage slot startPage pageCount = some { storage with
      owners := fill storage.owners startPage pageCount (slot + 1)
      reservations := Function.update storage.reservations slot (some pageCount) } := by
  have small : (slot + 1) % 256 = slot + 1 := by
    have bound := window.slots_bound
    unfold Window.maxReservations at within
    exact Nat.mod_eq_of_lt (by omega)
  have unowned : (range' startPage pageCount).any (storage.owners · ≠ 0) = false := by
    apply any_eq_false.mpr
    intro page member
    have range := mem_range'_1.mp member
    simp [free page range.1 range.2]
  unfold registerMmapReservation
  rw [if_neg, small]
  rw [empty, unowned]
  simp
  omega

theorem reached_of_usable {frames : Nat → Nat} {page : Nat}
    (all : ∀ page, startPage ≤ page → page < startPage + pageCount → Usable (frames page)) :
    Reached frames startPage pageCount page ↔ startPage ≤ page ∧ page < startPage + pageCount := by
  rw [reached_iff]
  refine ⟨fun whole => ⟨whole.1, whole.2.1⟩, fun range => ⟨range.1, range.2, fun other low high => ?_⟩⟩
  exact all other low (by omega)

theorem mmapUser_outcome (storage : Storage) (length protection : Nat) :
    MmapOutcome window storage length protection (mmapUserInStorage window storage length protection).1
      (mmapUserInStorage window storage length protection).2 := by
  unfold mmapUserInStorage
  split
  · exact .refused
  next pageCount valid =>
  split
  · exact .refused
  next slot found =>
  split
  · exact .refused
  next startPage run =>
  split
  · exact .refused
  next assigned frames =>
  obtain ⟨size, _⟩ := validateMmapRequest_some valid
  obtain ⟨positive, ⟨inside, free⟩, _⟩ := findMmapStartPage_eq_some.mp run
  have within : slot < window.maxReservations := mem_range.mp (mem_of_find?_eq_some found)
  have empty : storage.reservations slot = none := by simpa using find?_some found
  obtain ⟨taken, gave⟩ := assignMmapFrames_spec frames
  have mapping := @mapRange_spec window assigned startPage pageCount protection inside
  split
  · next mapped failed =>
    rw [failed] at mapping
    obtain ⟨only, _, entries⟩ := mapping
    obtain ⟨owners, reservations, backFrames, pool, backEntries⟩ :=
      @giveBack_spec window mapped startPage pageCount inside
    refine .undone inside free gave (owners.trans (only.owners.trans gave.only.owners))
      (reservations.trans (only.reservations.trans gave.only.reservations)) ?_ ?_ ?_
    · intro page
      rw [backFrames, only.frames]
      split_ifs with range
      · rfl
      · exact gave.others page range
    · rw [pool, only.frames, only.freeFrames, gave.frames]
    · intro page
      rw [backEntries, entries, gave.only.entry]
      split_ifs with range reached
      · rfl
      · exact absurd ⟨reached.2.1, reached.2.2.1⟩ range
      · rfl
  · next mapped done =>
    rw [done] at mapping
    obtain ⟨only, usable, entries⟩ := mapping
    have owners := only.owners.trans gave.only.owners
    have reservations := only.reservations.trans gave.only.reservations
    rw [registerMmapReservation_eq positive inside within (reservations ▸ empty) (owners ▸ free), owners, reservations]
    refine .mapped size positive inside free within empty gave (usable rfl) rfl rfl only.frames only.freeFrames
      only.memory fun page => ?_
    show mapped.entry page = _
    rw [entries, gave.only.entry]
    by_cases some : protection = 0
    · simp [some]
    simp only [reached_of_usable (usable rfl some)]

/-- A page of the window lies in a range of addresses. -/
def Covers (address length page : Nat) : Prop :=
  address ≤ userMmapBase + page * pageSize ∧ userMmapBase + page * pageSize < address + length

instance (address length page : Nat) : Decidable (Covers address length page) := inferInstanceAs (Decidable (_ ∧ _))

theorem covers_iff {page : Nat} : Covers (userMmapBase + startPage * pageSize) (pageCount * pageSize) page ↔
      startPage ≤ page ∧ page < startPage + pageCount := by
  unfold Covers pageSize
  omega

theorem mmapRange_some {address : Nat}
    (range : mmapRange window address length protection = some (startPage, pageCount)) :
    address = userMmapBase + startPage * pageSize ∧ length = pageCount * pageSize ∧ 0 < pageCount ∧
      startPage + pageCount ≤ window.pages := by
  simp only [mmapRange, Option.bind_eq_bind, Option.bind_eq_some_iff, Option.bind_none,
    Option.ite_none_left_eq_some] at range
  obtain ⟨count, valid, placed, _, ends, same⟩ := range
  cases same
  obtain ⟨size, positive, _⟩ := validateMmapRequest_some valid
  push Not at placed
  have start : address = userMmapBase + (address - userMmapBase) / pageSize * pageSize := by
    have aligned : pageSize ∣ address - userMmapBase :=
      Nat.dvd_sub (Nat.dvd_of_mod_eq_zero placed.1) (by decide)
    rw [Nat.div_mul_cancel aligned]
    exact (Nat.add_sub_of_le placed.2).symm
  refine ⟨start, size, positive, ?_⟩
  have fits : (address - userMmapBase) / pageSize * pageSize + pageCount * pageSize ≤ window.pages * pageSize := by
    unfold Window.limit at ends
    omega
  rw [← Nat.add_mul] at fits
  exact Nat.le_of_mul_le_mul_right fits (by decide)

/-- What an entry shows of the last protection of its page. -/
def shown (frame : Nat) : Option Nat → BitVec 64
  | some protection => if protection = 0 then 0#64 else pageEntry frame protection
  | none => 0#64

def Applied (frames : Nat → Nat) (protection startPage pageCount page : Nat) : Prop :=
  if protection = 0 then startPage ≤ page ∧ page < startPage + pageCount else Reached frames startPage pageCount page

instance (frames : Nat → Nat) (protection startPage pageCount page : Nat) :
    Decidable (Applied frames protection startPage pageCount page) := by
  unfold Applied
  infer_instance

theorem Applied.inRange {frames : Nat → Nat} {page : Nat}
    (applied : Applied frames protection startPage pageCount page) :
    startPage ≤ page ∧ page < startPage + pageCount := by
  unfold Applied at applied
  split_ifs at applied
  · exact applied
  · exact ⟨applied.1, applied.2.1⟩

theorem protectRange_spec (protection : Nat) (inside : startPage + pageCount ≤ window.pages) :
    TablesOnly storage (protectRange window storage startPage pageCount protection).2 ∧
      ((protectRange window storage startPage pageCount protection).1 = true →
        ∀ page, Applied storage.frames protection startPage pageCount page ↔
          startPage ≤ page ∧ page < startPage + pageCount) ∧
      ∀ page, (protectRange window storage startPage pageCount protection).2.entry page =
        if Applied storage.frames protection startPage pageCount page
        then shown (storage.frames page) (some protection) else storage.entry page := by
  unfold protectRange
  by_cases none : protection = protNone
  · have zero : protection = 0 := none
    rw [if_pos none]
    obtain ⟨only, entries⟩ := @unmapMmapPages_spec window storage startPage pageCount inside
    refine ⟨only, fun _ page => by rw [Applied, if_pos zero], fun page => ?_⟩
    rw [entries]
    simp only [Applied, zero, if_true, shown]
    rfl
  · have some : ¬protection = 0 := none
    rw [if_neg none]
    obtain ⟨done, only, entries⟩ := @remapMmapPages_spec window protection startPage pageCount storage inside
    refine ⟨only, fun succeeded page => ?_, fun page => ?_⟩
    · rw [Applied, if_neg some, reached_of_usable (done.mp succeeded)]
    · rw [entries]
      simp only [Applied, some, if_false, shown]

/-- The entry of a page shows its last protection, and only an owned page has one. -/
structure TrackedPage (owner frame : Nat) (entry : BitVec 64) (last : Option Nat) : Prop where
  entry : entry = shown frame last
  usable : ∀ protection ≠ 0, last = some protection → Usable frame
  owned : owner ≠ 0 ↔ last.isSome
  frameless : owner = 0 → frame = 0

theorem TrackedPage.free : TrackedPage 0 0 0 none :=
  ⟨rfl, nofun, iff_of_false (fun owned => owned rfl) (by simp), fun _ => rfl⟩

theorem TrackedPage.unowned {frame : Nat} {entry : BitVec 64} {last : Option Nat}
    (tracked : TrackedPage 0 frame entry last) : last = none := by
  cases last with
  | none => rfl
  | some protection => exact absurd rfl (tracked.owned.mpr rfl)

def Tracked (window : Window) (storage : Storage) (last : Nat → Option Nat) : Prop :=
  ∀ page < window.pages, TrackedPage (storage.owners page) (storage.frames page) (storage.entry page) (last page)

variable {last : Nat → Option Nat}

section
variable (tracked : Tracked window storage last)
include tracked

theorem Tracked.congr {last' : Nat → Option Nat}
    (same : ∀ page < window.pages, last' page = last page) : Tracked window storage last' := by
  intro page within
  rw [same page within]
  exact tracked page within

theorem Tracked.protected (protection : Nat) (inside : startPage + pageCount ≤ window.pages)
    (held : ∀ page, startPage ≤ page → page < startPage + pageCount → storage.owners page ≠ 0) :
    Tracked window (protectRange window storage startPage pageCount protection).2 fun page =>
      if Applied storage.frames protection startPage pageCount page then some protection else last page := by
  obtain ⟨only, _, entries⟩ := @protectRange_spec window storage startPage pageCount protection inside
  intro page within
  beta_reduce
  rw [entries, only.frames, only.owners]
  split_ifs with applied
  · have owned := held page applied.inRange.1 applied.inRange.2
    refine ⟨rfl, fun other some known => ?_, iff_of_true owned rfl, fun unowned => absurd unowned owned⟩
    cases known
    rw [Applied, if_neg some, reached_iff] at applied
    exact applied.2.2 page applied.1 (Nat.le_refl _)
  · exact tracked page within

theorem Tracked.released {released : Storage} (tables : ∀ page, released.entry page =
      if startPage ≤ page ∧ page < startPage + pageCount then 0 else storage.entry page)
    (frames : ∀ page, released.frames page =
      if startPage ≤ page ∧ page < startPage + pageCount then 0 else storage.frames page)
    (owners : released.owners = fill storage.owners startPage pageCount 0) :
    Tracked window released fun page =>
      if startPage ≤ page ∧ page < startPage + pageCount then none else last page := by
  intro page within
  beta_reduce
  rw [tables, frames, owners, fill]
  split_ifs
  · exact .free
  · exact tracked page within

end

theorem fill_same {owners : Nat → Nat} {owner : Nat}
    (all : ∀ page, startPage ≤ page → page < startPage + pageCount → owners page = owner) :
    fill owners startPage pageCount owner = owners := by
  funext page
  unfold fill
  split_ifs with range
  · exact (all page range.1 range.2).symm
  · rfl

/-- The last protection of a page after a request for a new range. -/
def afterMmap (length protection page : Nat) (last : Option Nat) : Except Failure Nat → Option Nat
  | .ok address => if Covers address length page then some protection else last
  | .error _ => last

section
variable {storage after : Storage} {result : Except Failure Nat}
  (outcome : MmapOutcome window storage length protection result after)
include outcome

theorem MmapOutcome.tracked {last : Nat → Option Nat} (tracked : Tracked window storage last) :
    Tracked window after fun page => afterMmap length protection page (last page) result := by
  cases outcome with
  | refused => exact tracked
  | undone inside free gave owners reservations frames pool entries =>
    refine (tracked.released entries frames (owners.trans (fill_same free).symm)).congr fun page within => ?_
    split_ifs with range
    · exact (free page range.1 range.2 ▸ tracked page within).unowned
    · rfl
  | @mapped slot startPage pageCount _ assigned _ size positive inside free within empty gave usable owners _ frames
      _ _ entries =>
    subst size
    simp only [afterMmap, covers_iff]
    intro page bound
    beta_reduce
    rw [entries, frames, owners, fill]
    by_cases range : startPage ≤ page ∧ page < startPage + pageCount
    · rw [if_pos range, if_pos range]
      refine ⟨?_, fun other some known => ?_, by simp, by simp⟩
      · by_cases some : protection = 0
        · have old := free page range.1 range.2 ▸ tracked page bound
          rw [if_neg fun both => both.1 some, old.entry, old.unowned]
          simp [shown, some]
        · rw [if_pos ⟨some, range⟩]
          simp [shown, some]
      · cases known
        exact usable some page range.1 range.2
    · rw [if_neg range, if_neg fun both => range both.2, if_neg range, gave.others page range]
      exact tracked page bound

theorem MmapOutcome.counted (counted : Counted window storage.owners storage.reservations) :
    Counted window after.owners after.reservations ∧
      ∀ failure, result = .error failure → after.owners = storage.owners ∧
        after.reservations = storage.reservations := by
  cases outcome with
  | refused => exact ⟨counted, fun _ _ => ⟨rfl, rfl⟩⟩
  | undone _ _ _ owners reservations =>
    rw [owners, reservations]
    exact ⟨counted, fun _ _ => ⟨rfl, rfl⟩⟩
  | mapped _ positive inside free within empty _ _ owners reservations =>
    rw [owners, reservations]
    exact ⟨counted.registered within empty positive inside free, by simp⟩

end

theorem mmapRangeIsOwned_iff (counted : Counted window storage.owners storage.reservations) (positive : 0 < pageCount)
    (inside : startPage + pageCount ≤ window.pages) :
    mmapRangeIsOwned window storage startPage pageCount = true ↔
      ∀ page, startPage ≤ page → page < startPage + pageCount → storage.owners page ≠ 0 := by
  unfold mmapRangeIsOwned
  rw [if_neg (by omega), all_eq_true]
  constructor
  · intro all page low high
    exact (of_decide_eq_true (all page (mem_range'_1.mpr ⟨low, high⟩))).1
  · intro held page member
    have range := mem_range'_1.mp member
    have nonzero := held page range.1 range.2
    obtain ⟨slot, known, live⟩ := counted.reservation (Nat.lt_of_lt_of_le range.2 inside) nonzero
    apply decide_eq_true
    refine ⟨nonzero, ?_⟩
    rw [reservation, if_pos slot, known]
    simpa using live

theorem findExact_owned {slot : Nat}
    (found : findExactMmapFragmentOwner window storage startPage pageCount = some slot) :
    ∀ page, startPage ≤ page → page < startPage + pageCount → storage.owners page ≠ 0 := by
  intro page low high
  unfold findExactMmapFragmentOwner at found
  dsimp only at found
  split at found
  · cases found
  split at found
  · cases found
  next good =>
  obtain ⟨nonzero, others⟩ := not_or.mp good
  have same := (not_or.mp others).1
  have equal : storage.owners page = storage.owners startPage := by
    by_contra other
    exact same (any_eq_true.mpr ⟨page, mem_range'_1.mpr ⟨low, high⟩, decide_eq_true other⟩)
  rw [equal]
  exact nonzero

theorem locations_inside (inside : startPage + pageCount ≤ window.pages) :
    ((range' startPage pageCount).all fun page => (mmapPageLocation window page).isSome) = true := by
  rw [all_eq_true]
  intro page member
  rw [mmapPageLocation_eq (Nat.lt_of_lt_of_le (mem_range'_1.mp member).2 inside)]
  rfl

theorem munmapUser_spec (counted : Counted window storage.owners storage.reservations) (address length : Nat) :
    munmapUser window storage address length = (false, storage) ∨
      ∃ startPage pageCount reservations, address = userMmapBase + startPage * pageSize ∧
        length = pageCount * pageSize ∧ startPage + pageCount ≤ window.pages ∧
        Counted window (fill storage.owners startPage pageCount 0) reservations ∧
        (∀ page, startPage ≤ page → page < startPage + pageCount → storage.owners page ≠ 0) ∧
        munmapUser window storage address length = (true, giveBack window
          { storage with owners := fill storage.owners startPage pageCount 0, reservations := reservations }
          startPage pageCount) := by
  unfold munmapUser
  split
  · exact .inl rfl
  next startPage pageCount range =>
  obtain ⟨starts, size, positive, inside⟩ := mmapRange_some range
  unfold munmapMmapRange
  by_cases held : mmapRangeIsOwned window storage startPage pageCount = true
  · have all := (mmapRangeIsOwned_iff counted positive inside).mp held
    obtain ⟨reservations, released, kept⟩ := releaseMmapRangeOwners_eq counted positive inside all
    refine .inr ⟨startPage, pageCount, reservations, starts, size, inside, kept, all, ?_⟩
    rw [if_neg, released]
    simp [held, locations_inside inside]
  · exact .inl (if_pos (.inl held))

/-- The call stopped at a page without a usable frame, and it had come past this page. -/
def Passed (before : Storage) (address length page : Nat) : Prop :=
  Covers address length page ∧ ∀ other ≤ page, Covers address length other → Usable (before.frames other)

instance (before : Storage) (address length page : Nat) : Decidable (Passed before address length page) :=
  inferInstanceAs (Decidable (_ ∧ _))

/-- The range of a call is one that `accepts` takes. -/
def Accepted (window : Window) (accepts : Nat → Nat → Bool) (address length protection : Nat) : Prop :=
  ∃ range ∈ mmapRange window address length protection, accepts range.1 range.2 = true

instance (accepts : Nat → Nat → Bool) (address length protection : Nat) :
    Decidable (Accepted window accepts address length protection) := by
  unfold Accepted
  infer_instance

/-- The last protection of a page after one more call. -/
def protectionAfter (window : Window) (page : Nat) (last : Option Nat) (event : Lib.Event Storage Call Reply) :
    Option Nat :=
  match event.action, event.result with
  | .mmapUser length protection, .mapped result => afterMmap length protection page last result
  | .mmapUserAt address length protection, .remapped (some _) =>
    if Covers address length page then some protection else last
  | .mmapUserAt address length protection, .remapped none =>
    if Accepted window (fun start count => (findExactMmapFragmentOwner window event.before start count).isSome)
        address length protection ∧ Passed event.before address length page then some protection else last
  | .mprotectUser address length protection, .done true =>
    if Covers address length page then some protection else last
  | .mprotectUser address length protection, .done false =>
    if Accepted window (mmapRangeIsOwned window event.before) address length protection ∧
        Passed event.before address length page then some protection else last
  | .munmapUser address length, .done true => if Covers address length page then none else last
  | _, _ => last

/-- The last protection that was applied to a page since it was reserved. -/
def lastProtection (window : Window) (history : List (Lib.Event Storage Call Reply)) (page : Nat) : Option Nat :=
  history.foldl (protectionAfter window page) none

def Reply.Refused : Reply → Prop
  | .mapped (.error _) | .remapped none | .done false => True
  | _ => False

theorem passed_iff {page : Nat} (some : protection ≠ 0) :
    Passed storage (userMmapBase + startPage * pageSize) (pageCount * pageSize) page ↔
      Applied storage.frames protection startPage pageCount page := by
  rw [Applied, if_neg some, reached_iff, Passed, covers_iff, and_assoc]
  refine and_congr_right fun _ => and_congr_right fun high => ?_
  constructor
  · intro all other from_start to_page
    exact all other to_page (covers_iff.mpr ⟨from_start, by omega⟩)
  · intro all other to_page covered
    exact all other (covers_iff.mp covered).1 to_page

theorem applied_iff (inside : startPage + pageCount ≤ window.pages) (page : Nat) :
    Applied storage.frames protection startPage pageCount page ↔
      if (protectRange window storage startPage pageCount protection).1
      then Covers (userMmapBase + startPage * pageSize) (pageCount * pageSize) page
      else Passed storage (userMmapBase + startPage * pageSize) (pageCount * pageSize) page := by
  obtain ⟨_, done, _⟩ := @protectRange_spec window storage startPage pageCount protection inside
  split_ifs with result
  · rw [done result, covers_iff]
  · have some : protection ≠ 0 := by
      rintro rfl
      exact result rfl
    exact (passed_iff some).symm

/-- The state in front of a call: what is counted, and what the history says of the pages. -/
structure Consistent (window : Window) (storage : Storage) (last : Nat → Option Nat) : Prop where
  counted : Counted window storage.owners storage.reservations
  tracked : Tracked window storage last

theorem Consistent.congr {last' : Nat → Option Nat} (consistent : Consistent window storage last)
    (same : ∀ page, last' page = last page) : Consistent window storage last' :=
  ⟨consistent.counted, consistent.tracked.congr fun page _ => same page⟩

/-- A call on an existing range is refused at once, or gives a protection to a range of owned pages. -/
inductive Protects (window : Window) (storage : Storage) (accepts : Nat → Nat → Bool)
    (address length protection : Nat) :
    Bool → Storage → Prop where
  | refused (unaccepted : ¬Accepted window accepts address length protection) :
      Protects window storage accepts address length protection false storage
  | applied {startPage pageCount : Nat} (starts : address = userMmapBase + startPage * pageSize)
      (size : length = pageCount * pageSize) (inside : startPage + pageCount ≤ window.pages)
      (held : ∀ page, startPage ≤ page → page < startPage + pageCount → storage.owners page ≠ 0)
      (accepted : Accepted window accepts address length protection) :
      Protects window storage accepts address length protection
        (protectRange window storage startPage pageCount protection).1
        (protectRange window storage startPage pageCount protection).2

theorem mmapUserAt_protects (storage : Storage) (address length protection : Nat) :
    ∃ done, (mmapUserAt window storage address length protection).1 = (if done then some address else none) ∧
      Protects window storage (fun start count => (findExactMmapFragmentOwner window storage start count).isSome)
        address length protection done (mmapUserAt window storage address length protection).2 := by
  unfold mmapUserAt
  split
  · next none => exact ⟨false, rfl, .refused (by simp [Accepted, none])⟩
  next startPage pageCount range =>
  obtain ⟨starts, size, _, inside⟩ := mmapRange_some range
  split
  · next unowned => exact ⟨false, rfl, .refused (by simp [Accepted, range, unowned])⟩
  · next slot found =>
    exact ⟨_, rfl, .applied starts size inside (findExact_owned found) (by simp [Accepted, range, found])⟩

theorem mprotectUser_protects (counted : Counted window storage.owners storage.reservations)
    (address length protection : Nat) :
    Protects window storage (mmapRangeIsOwned window storage) address length protection
      (mprotectUser window storage address length protection).1
      (mprotectUser window storage address length protection).2 := by
  unfold mprotectUser
  split
  · next none => exact .refused (by simp [Accepted, none])
  next startPage pageCount range =>
  obtain ⟨starts, size, positive, inside⟩ := mmapRange_some range
  unfold mprotectMmapRange
  by_cases held : mmapRangeIsOwned window storage startPage pageCount = true
  · rw [if_neg fun bad => bad.elim (fun unheld => unheld held) fun unplaced => unplaced (locations_inside inside)]
    exact .applied starts size inside ((mmapRangeIsOwned_iff counted positive inside).mp held) ⟨_, range, held⟩
  · rw [if_pos (.inl held)]
    exact .refused (by simp [Accepted, range, held])

theorem Consistent.protects {after : Storage}
    (consistent : Consistent window storage last) {accepts : Nat → Nat → Bool} {address : Nat}
    {done : Bool} (protects : Protects window storage accepts address length protection done after) :
    after.owners = storage.owners ∧ after.reservations = storage.reservations ∧
      Consistent window after fun page =>
        if (if done then Covers address length page
          else Accepted window accepts address length protection ∧ Passed storage address length page)
        then some protection else last page := by
  cases protects with
  | refused unaccepted =>
    exact ⟨rfl, rfl, consistent.congr fun page => if_neg (by simp [unaccepted])⟩
  | @applied startPage pageCount starts size inside held accepted =>
    subst starts size
    obtain ⟨only, _, _⟩ := @protectRange_spec window storage startPage pageCount protection inside
    refine ⟨only.owners, only.reservations, ?_,
      (consistent.tracked.protected protection inside held).congr fun page _ => ?_⟩
    · rw [only.owners, only.reservations]
      exact consistent.counted
    · simp only [accepted, true_and, applied_iff inside page]

theorem Consistent.perform (consistent : Consistent window storage last) (call : Call) :
    let event := event (perform window) storage call
    Consistent window event.after (fun page => protectionAfter window page (last page) event) ∧
      (event.result.Refused → event.after.owners = storage.owners ∧
        event.after.reservations = storage.reservations) := by
  cases call with
  | mmapUser length protection =>
    have outcome := @mmapUser_outcome window storage length protection
    obtain ⟨counted, unchanged⟩ := outcome.counted consistent.counted
    refine ⟨⟨counted, outcome.tracked consistent.tracked⟩, fun refused => ?_⟩
    cases result : (mmapUserInStorage window storage length protection).1 with
    | ok address => simp [event, UserMmap.perform, result, Reply.Refused] at refused
    | error failure => exact unchanged failure result
  | mmapUserAt address length protection =>
    obtain ⟨done, reply, protects⟩ := @mmapUserAt_protects window storage address length protection
    obtain ⟨owners, reservations, after⟩ := consistent.protects protects
    refine ⟨after.congr fun page => ?_, fun _ => ⟨owners, reservations⟩⟩
    simp only [event, UserMmap.perform, Prod.map_fst, reply]
    cases done <;> rfl
  | munmapUser address length =>
    rcases munmapUser_spec consistent.counted address length with
      refused | ⟨startPage, pageCount, reservations, rfl, rfl, inside, counted, _, does⟩
    · simp only [event, UserMmap.perform, refused]
      exact ⟨consistent, fun _ => ⟨rfl, rfl⟩⟩
    · obtain ⟨owners, kept, frames, _, entries⟩ := @giveBack_spec window { storage with
        owners := fill storage.owners startPage pageCount 0
        reservations := reservations } startPage pageCount inside
      simp only [event, UserMmap.perform, does]
      refine ⟨⟨?_, (consistent.tracked.released entries frames owners).congr fun page _ => ?_⟩, by simp [Reply.Refused]⟩
      · exact owners ▸ kept ▸ counted
      · simp only [protectionAfter, Prod.map_fst, covers_iff]
  | mprotectUser address length protection =>
    have protects := mprotectUser_protects consistent.counted address length protection
    obtain ⟨owners, reservations, after⟩ := consistent.protects protects
    refine ⟨after.congr fun page => ?_, fun _ => ⟨owners, reservations⟩⟩
    simp only [event, UserMmap.perform, Prod.map_fst]
    cases (mprotectUser window storage address length protection).1 <;> rfl
  | memoryBecomes memory =>
    exact ⟨⟨consistent.counted, consistent.tracked⟩, fun _ => ⟨rfl, rfl⟩⟩

theorem consistent_cleared (frames : List Nat) (memory : Nat → UInt8) :
    Consistent window (.cleared frames memory) fun _ => none := ⟨counted_cleared, fun _ _ => .free⟩

theorem consistent_run (frames : List Nat) (memory : Nat → UInt8) (calls : List Call) :
    Consistent window (run (perform window) (.cleared frames memory) calls)
      (lastProtection window (trace (perform window) (.cleared frames memory) calls)) := by
  refine trace_invariant
    (P := fun (storage : Storage) history => Consistent window storage (lastProtection window history)) ?_
    (consistent_cleared frames memory) calls
  intro storage past call consistent
  refine (consistent.perform call).1.congr fun page => ?_
  rw [lastProtection, foldl_append]
  rfl

theorem shown_present {frame : Nat} {last : Option Nat} (present : shown frame last &&& PageTableEntry.present ≠ 0#64) :
    ∃ protection ≠ 0, last = some protection ∧ shown frame last = pageEntry frame protection := by
  cases last with
  | none => simp [shown] at present
  | some protection =>
    by_cases none : protection = 0
    · simp [shown, none] at present
    · exact ⟨protection, none, rfl, by simp [shown, none]⟩

/-- In every run each reservation counts its pages, every present entry is that of an owned page with the page's
frame and its last protection, and a refused call leaves ownership as it was. -/
theorem window_accounted (window : Window) (frames : List Nat) (memory : Nat → UInt8) (calls : List Call) :
    let reached := Runs.run (perform window) (.cleared frames memory) calls
    let history := Runs.trace (perform window) (.cleared frames memory) calls
    (∀ slot < window.maxReservations, reached.reservations slot =
      if owned window reached.owners slot = 0 then none else some (owned window reached.owners slot)) ∧
    (∀ page < window.pages, reached.entry page &&& PageTableEntry.present ≠ 0 →
      reached.owners page ≠ 0 ∧ PageTableEntry.address (reached.entry page) = reached.frames page ∧
        ∃ protection, lastProtection window history page = some protection ∧
          PageTableEntry.flags (reached.entry page) = mmapPageFlags protection) ∧
    ∀ event ∈ history, event.result.Refused →
      event.after.owners = event.before.owners ∧ event.after.reservations = event.before.reservations := by
  intro reached history
  have consistent : Consistent window reached (lastProtection window history) := consistent_run frames memory calls
  refine ⟨consistent.counted.counts, fun page inside present => ?_, ?_⟩
  · have tracked := consistent.tracked page inside
    rw [tracked.entry] at present ⊢
    obtain ⟨protection, some, last, same⟩ := shown_present present
    obtain ⟨address, flags⟩ := pageEntry_spec (tracked.usable protection some last) protection
    rw [same]
    exact ⟨tracked.owned.mpr (by rw [last]; rfl), address, protection, last, flags⟩
  · refine forall_event (I := fun storage => ∃ last, Consistent window storage last) ?_ ?_
      ⟨_, consistent_cleared frames memory⟩ calls
    · rintro storage call ⟨last, consistent⟩
      exact ⟨_, (consistent.perform call).1⟩
    · rintro storage call ⟨last, consistent⟩
      exact (consistent.perform call).2

end
end Nagi.Kernel.UserMmap
