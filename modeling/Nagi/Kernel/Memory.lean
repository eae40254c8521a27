import Mathlib.Algebra.GroupWithZero.Nat
import Mathlib.Data.List.GetD
import Mathlib.Data.List.Perm.Basic
import Mathlib.Order.Basic
import Nagi.BootInfo.Handoff
import Nagi.Lib.Checks
import Nagi.Lib.Runs

/-! The physical page allocator of `kernel/src/memory.rs`.

Every page below the mark of a range is outstanding or in the list of freed
pages, and never both. -/

namespace Nagi.Kernel

open Nagi.BootInfo Lib Checks List

def pageSize : Nat := 4096
def conventionalMemoryType : Nat := 7
def maxRanges : Nat := 128
def maxFreedPages : Nat := 128

inductive AllocatorError where
  | invalidBootInfo
  | invalidMemoryMap
  | addressOverflow
  | tooManyRanges
  deriving DecidableEq

structure PageRange where
  start : Nat
  next : Nat
  limit : Nat
  start_aligned : pageSize ∣ start
  next_aligned : pageSize ∣ next
  limit_aligned : pageSize ∣ limit
  start_le_next : start ≤ next
  next_le_limit : next ≤ limit

namespace PageRange

def fresh (start pages : Nat) (aligned : start % pageSize = 0) : PageRange where
  start := start
  next := start
  limit := start + pages * pageSize
  start_aligned := Nat.dvd_of_mod_eq_zero aligned
  next_aligned := Nat.dvd_of_mod_eq_zero aligned
  limit_aligned := Nat.dvd_add (Nat.dvd_of_mod_eq_zero aligned) (Nat.dvd_mul_left _ _)
  start_le_next := Nat.le_refl _
  next_le_limit := Nat.le_add_right _ _

variable (range : PageRange)

theorem next_page_le (left : range.next < range.limit) : range.next + pageSize ≤ range.limit := by
  obtain ⟨_, next⟩ := range.next_aligned
  obtain ⟨_, limit⟩ := range.limit_aligned
  unfold pageSize at *
  omega

def advance (left : range.next < range.limit) : PageRange where
  start := range.start
  next := range.next + pageSize
  limit := range.limit
  start_aligned := range.start_aligned
  next_aligned := Nat.dvd_add range.next_aligned (Nat.dvd_refl _)
  limit_aligned := range.limit_aligned
  start_le_next := Nat.le_trans range.start_le_next (Nat.le_add_right _ _)
  next_le_limit := range.next_page_le left

def span : Nat × Nat := (range.start, range.limit)

def Passed (page : Nat) : Prop := pageSize ∣ page ∧ range.start ≤ page ∧ page < range.next

theorem passed_advance (left : range.next < range.limit) (page : Nat) :
    (range.advance left).Passed page ↔ page = range.next ∨ range.Passed page := by
  have marked := range.next_aligned
  have above := range.start_le_next
  constructor
  · rintro ⟨aligned, low, high⟩
    rcases Nat.lt_or_ge page range.next with before | after
    · exact .inr ⟨aligned, low, before⟩
    · obtain ⟨_, rfl⟩ := aligned
      obtain ⟨_, next⟩ := marked
      simp only [advance, pageSize] at high next after ⊢
      omega
  · rintro (rfl | ⟨aligned, low, high⟩)
    · exact ⟨marked, above, Nat.lt_add_of_pos_right (by decide)⟩
    · exact ⟨aligned, low, Nat.lt_add_right _ high⟩

theorem Passed.within {range : PageRange} {page : Nat} (passed : range.Passed page) :
    range.start ≤ page ∧ page + pageSize ≤ range.limit := by
  obtain ⟨aligned, low, high⟩ := passed
  obtain ⟨_, limit⟩ := range.limit_aligned
  have below := range.next_le_limit
  unfold pageSize at *
  omega

end PageRange

structure PageAllocator where
  ranges : List PageRange
  freed : List Nat
  ranges_bound : ranges.length ≤ maxRanges
  freed_bound : freed.length ≤ maxFreedPages

namespace PageAllocator

def empty : PageAllocator := ⟨[], [], Nat.zero_le _, Nat.zero_le _⟩

def pushRange (allocator : PageAllocator) (range : PageRange) : Except AllocatorError PageAllocator :=
  if full : allocator.ranges.length = maxRanges then
    .error .tooManyRanges
  else
    .ok { allocator with
      ranges := allocator.ranges ++ [range]
      ranges_bound := by
        have bound := allocator.ranges_bound
        rw [length_append, length_singleton]
        omega }

def addEntry (allocator : PageAllocator) (entry : MemoryMapEntry) : Except AllocatorError PageAllocator :=
  if entry.memoryType ≠ conventionalMemoryType ∨ entry.pageCount = 0 then
    .ok allocator
  else if aligned : entry.physicalStart % pageSize = 0 then
    if entry.pageCount * pageSize ≥ 2 ^ 64 ∨ entry.physicalStart + entry.pageCount * pageSize ≥ 2 ^ 64 then
      .error .addressOverflow
    else
      allocator.pushRange (.fresh entry.physicalStart entry.pageCount aligned)
  else
    .error .invalidMemoryMap

/-- The descriptor at an index of the map; `readEntry` is what the memory at an address holds. -/
def scanEntry (readEntry : Nat → MemoryMapEntry) (map : MemoryMapInfo) (allocator : PageAllocator) (index : Nat) :
    Except AllocatorError PageAllocator :=
  if index * map.entrySize ≥ 2 ^ 64 then .error .addressOverflow
  else allocator.addEntry (readEntry (map.address + index * map.entrySize))

def fromBootInfo (readEntry : Nat → MemoryMapEntry) (info : Info) : Except AllocatorError PageAllocator := do
  if ¬(info.validate matches .ok ()) then
    throw .invalidBootInfo
  if info.memoryMap.entrySize < memoryMapEntrySize ∨ info.memoryMap.entrySize % 8 ≠ 0 then
    throw .invalidMemoryMap
  let allocator ← (range info.memoryMap.entryCount).foldlM (scanEntry readEntry info.memoryMap) empty
  if allocator.ranges.isEmpty then
    throw .invalidMemoryMap
  return allocator

/-- The first range with a page left that is wanted gives its next page. -/
def takeFresh (wanted : Nat → Bool) : List PageRange → Option (Nat × List PageRange)
  | [] => none
  | range :: rest =>
    if left : range.next < range.limit ∧ wanted range.next then
      some (range.next, range.advance left.1 :: rest)
    else
      (takeFresh wanted rest).map fun (page, taken) => (page, range :: taken)

variable {wanted : Nat → Bool} {taken ranges : List PageRange}

theorem takeFresh_some {page : Nat} (found : takeFresh wanted ranges = some (page, taken)) :
    ∃ (earlier : List PageRange) (range : PageRange) (later : List PageRange) (left : range.next < range.limit),
      ranges = earlier ++ range :: later ∧ taken = earlier ++ range.advance left :: later ∧ page = range.next ∧
        wanted page := by
  induction ranges generalizing taken with
  | nil => cases found
  | cons range rest ih =>
    unfold takeFresh at found
    split at found
    · next left =>
      cases found
      exact ⟨[], range, rest, left.1, rfl, rfl, rfl, left.2⟩
    · obtain ⟨⟨page, later⟩, foundLater, same⟩ := Option.map_eq_some_iff.mp found
      cases same
      obtain ⟨earlier, other, later, left, rfl, rfl, same, isWanted⟩ := ih foundLater
      exact ⟨range :: earlier, other, later, left, rfl, rfl, same, isWanted⟩

theorem takeFresh_none (none : takeFresh wanted ranges = none) :
    ∀ range ∈ ranges, ¬(range.next < range.limit ∧ wanted range.next) := by
  induction ranges with
  | nil => exact nofun
  | cons range rest ih =>
    unfold takeFresh at none
    split at none
    · cases none
    · next nothing => exact forall_mem_cons.mpr ⟨nothing, ih (Option.map_eq_none_iff.mp none)⟩

theorem length_takeFresh {page : Nat} (found : takeFresh wanted ranges = some (page, taken)) :
    taken.length = ranges.length := by
  obtain ⟨earlier, range, later, left, rfl, rfl, _⟩ := takeFresh_some found
  simp

def allocateFresh (wanted : Nat → Bool) (allocator : PageAllocator) : Option Nat × PageAllocator :=
  match found : takeFresh wanted allocator.ranges with
  | none => (none, allocator)
  | some (page, ranges) =>
    (some page, { allocator with
      ranges := ranges
      ranges_bound := (length_takeFresh found).trans_le allocator.ranges_bound })

/-- The list without the page at a position, whose place the last page takes. -/
def swapRemove (freed : List Nat) (position : Nat) : List Nat :=
  (freed.set position (freed.getLastD 0)).dropLast

def allocatePage (allocator : PageAllocator) : Option Nat × PageAllocator :=
  match allocator.freed.getLast? with
  | some page =>
    (some page, { allocator with
      freed := allocator.freed.dropLast
      freed_bound := by
        have bound := allocator.freed_bound
        rw [length_dropLast]
        omega })
  | none => allocator.allocateFresh fun _ => true

def allocatePageBelow (upperExclusive : Nat) (allocator : PageAllocator) : Option Nat × PageAllocator :=
  match allocator.freed.findIdx? (· < upperExclusive) with
  | some position =>
    (some (allocator.freed.getD position 0), { allocator with
      freed := swapRemove allocator.freed position
      freed_bound := by
        have bound := allocator.freed_bound
        rw [swapRemove, length_dropLast, length_set]
        omega })
  | none => allocator.allocateFresh (· < upperExclusive)

def freePage (page : Nat) (allocator : PageAllocator) : Bool × PageAllocator :=
  if page % pageSize ≠ 0 ∨ ¬allocator.ranges.any fun range => page ≥ range.start ∧ page < range.next then
    (false, allocator)
  else if room : page ∈ allocator.freed ∨ allocator.freed.length = maxFreedPages then
    (false, allocator)
  else
    (true, { allocator with
      freed := allocator.freed ++ [page]
      freed_bound := by
        have bound := allocator.freed_bound
        rw [length_append, length_singleton]
        omega })

end PageAllocator

inductive PageRequest where
  | allocatePage
  | allocatePageBelow (upperExclusive : Nat)
  | freePage (page : Nat)

inductive PageReply where
  | page (page : Option Nat)
  | freed (done : Bool)

def PageAllocator.perform (allocator : PageAllocator) : PageRequest → PageReply × PageAllocator
  | .allocatePage => allocator.allocatePage.map .page id
  | .allocatePageBelow upperExclusive => (allocator.allocatePageBelow upperExclusive).map .page id
  | .freePage page => (allocator.freePage page).map .freed id

def outstandingAfter (outstanding : List Nat) (event : Lib.Event PageAllocator PageRequest PageReply) : List Nat :=
  match event.action, event.result with
  | _, .page (some page) => page :: outstanding
  | .freePage page, .freed true => outstanding.erase page
  | _, _ => outstanding

def outstanding (history : List (Lib.Event PageAllocator PageRequest PageReply)) : List Nat :=
  history.foldl outstandingAfter []

namespace PageAllocator

def Passed (allocator : PageAllocator) (page : Nat) : Prop := ∃ range ∈ allocator.ranges, range.Passed page

def Disjoint (spans : List (Nat × Nat)) : Prop :=
  spans.Pairwise fun first second => first.2 ≤ second.1 ∨ second.2 ≤ first.1

/-- Every page handed out is outstanding or freed, and is so once. -/
structure Accounts (allocator : PageAllocator) (outstanding : List Nat) : Prop where
  disjoint : Disjoint (allocator.ranges.map PageRange.span)
  once : (outstanding ++ allocator.freed).Nodup
  passed : ∀ page, page ∈ outstanding ++ allocator.freed ↔ allocator.Passed page

variable {allocator after : PageAllocator}

structure Continues (allocator after : PageAllocator) (now : List Nat) : Prop where
  accounts : after.Accounts now
  spans : after.ranges.map PageRange.span = allocator.ranges.map PageRange.span

theorem Accounts.moved {before now : List Nat} (accounts : allocator.Accounts before)
    (ranges : after.ranges = allocator.ranges) (same : (now ++ after.freed).Perm (before ++ allocator.freed)) :
    allocator.Continues after now := by
  refine ⟨⟨ranges ▸ accounts.disjoint, same.nodup_iff.mpr accounts.once, fun page => ?_⟩, by rw [ranges]⟩
  rw [same.mem_iff, accounts.passed, Passed, Passed, ranges]

theorem allocateFresh_cases (wanted : Nat → Bool) (allocator : PageAllocator) :
    (allocator.allocateFresh wanted = (none, allocator) ∧
      ∀ range ∈ allocator.ranges, ¬(range.next < range.limit ∧ wanted range.next)) ∨
    ∃ (after : PageAllocator) (earlier : List PageRange) (range : PageRange) (later : List PageRange)
      (left : range.next < range.limit),
      allocator.allocateFresh wanted = (some range.next, after) ∧ wanted range.next ∧ after.freed = allocator.freed ∧
        allocator.ranges = earlier ++ range :: later ∧ after.ranges = earlier ++ range.advance left :: later := by
  unfold allocateFresh
  split
  · next none => exact .inl ⟨rfl, takeFresh_none none⟩
  · next page ranges found =>
    obtain ⟨earlier, range, later, left, before, taken, rfl, isWanted⟩ := takeFresh_some found
    exact .inr ⟨_, earlier, range, later, left, rfl, isWanted, rfl, before, taken⟩

variable {earlier later : List PageRange} {range : PageRange}

section
variable {outstanding : List Nat} (accounts : allocator.Accounts outstanding)
include accounts

theorem Accounts.fresh (left : range.next < range.limit) (ranges : allocator.ranges = earlier ++ range :: later) :
    ¬allocator.Passed range.next := by
  rintro ⟨other, member, passed⟩
  have apart : other.limit ≤ range.start ∨ range.limit ≤ other.start ∨ other = range := by
    have disjoint := accounts.disjoint
    rw [ranges, Disjoint, pairwise_map, pairwise_append, pairwise_cons] at disjoint
    rw [ranges, mem_append, mem_cons] at member
    obtain ⟨_, ⟨after, _⟩, before⟩ := disjoint
    rcases member with early | rfl | late
    · exact (before other early range mem_cons_self).imp_right .inl
    · exact .inr (.inr rfl)
    · exact (after other late).elim (fun less => .inr (.inl less)) .inl
  have within := passed.within
  have low := range.start_le_next
  rcases apart with below | above | rfl
  · have positive : 0 < pageSize := by decide
    omega
  · omega
  · exact Nat.lt_irrefl _ passed.2.2

theorem Accounts.advanced (left : range.next < range.limit) (ranges : allocator.ranges = earlier ++ range :: later)
    (taken : after.ranges = earlier ++ range.advance left :: later) (freed : after.freed = allocator.freed) :
    allocator.Continues after (range.next :: outstanding) := by
  have same : after.ranges.map PageRange.span = allocator.ranges.map PageRange.span := by
    rw [ranges, taken, map_append, map_append]
    rfl
  refine ⟨⟨by rw [same]; exact accounts.disjoint, ?_, fun page => ?_⟩, same⟩
  · rw [freed, cons_append, nodup_cons, accounts.passed]
    exact ⟨accounts.fresh left ranges, accounts.once⟩
  · rw [freed, cons_append, mem_cons, accounts.passed, Passed, Passed, ranges, taken]
    simp only [mem_append, mem_cons, or_and_right, exists_or, exists_eq_left, PageRange.passed_advance]
    rw [or_left_comm, or_assoc]

theorem Accounts.allocateFresh (wanted : Nat → Bool) : allocator.Continues (allocator.allocateFresh wanted).2
      ((allocator.allocateFresh wanted).1.toList ++ outstanding) := by
  rcases allocateFresh_cases wanted allocator with
    ⟨same, _⟩ | ⟨after, earlier, range, later, left, same, _, freed, ranges, taken⟩
  · rw [same]
    exact ⟨accounts, rfl⟩
  · rw [same]
    exact accounts.advanced left ranges taken freed

end

theorem perm_swapRemove {freed : List Nat} {position : Nat} (within : position < freed.length) :
    freed.Perm (freed.getD position 0 :: swapRemove freed position) := by
  obtain ⟨init, last, rfl⟩ := (eq_nil_or_concat freed).resolve_left (by rintro rfl; cases within)
  rw [concat_eq_append] at within ⊢
  rcases Nat.lt_or_ge position init.length with inside | atEnd
  · have taken : (init ++ [last]).getD position 0 = init[position] := by
      rw [getD_eq_getElem _ _ within, getElem_append_left inside]
    have removed : swapRemove (init ++ [last]) position = init.set position last := by
      rw [swapRemove, getLastD_concat, set_append_left _ _ inside, dropLast_concat]
    rw [taken, removed]
    calc (init ++ [last]).Perm (last :: init) := perm_append_singleton last init
      List.Perm _ (last :: init[position] :: init.eraseIdx position) :=
        (getElem_cons_eraseIdx_perm inside).symm.cons last
      List.Perm _ (init[position] :: last :: init.eraseIdx position) := List.Perm.swap _ _ _
      List.Perm _ (init[position] :: init.set position last) := (set_perm_cons_eraseIdx inside last).symm.cons _
  · have here : position = init.length := by
      rw [length_append, length_singleton] at within
      omega
    subst here
    have taken : (init ++ [last]).getD init.length 0 = last := by simp
    have removed : swapRemove (init ++ [last]) init.length = init := by simp [swapRemove]
    rw [taken, removed]
    exact perm_append_singleton last init

section
variable {outstanding : List Nat} (accounts : allocator.Accounts outstanding)
include accounts

theorem Accounts.allocatePage :
    allocator.Continues allocator.allocatePage.2 (allocator.allocatePage.1.toList ++ outstanding) := by
  unfold PageAllocator.allocatePage
  split
  · next page last =>
    refine accounts.moved rfl ?_
    obtain ⟨init, same⟩ := getLast?_eq_some_iff.mp last
    simp only [same, dropLast_concat, Option.toList_some, cons_append]
    rw [← append_assoc]
    exact (perm_append_singleton page (outstanding ++ init)).symm
  · exact accounts.allocateFresh _

theorem Accounts.allocatePageBelow (upperExclusive : Nat) :
    allocator.Continues (allocator.allocatePageBelow upperExclusive).2
      ((allocator.allocatePageBelow upperExclusive).1.toList ++ outstanding) := by
  unfold PageAllocator.allocatePageBelow
  split
  · next position found =>
    refine accounts.moved rfl ?_
    obtain ⟨within, _⟩ := findIdx?_eq_some_iff_getElem.mp found
    have swapped := perm_swapRemove within
    exact perm_middle.symm.trans (swapped.symm.append_left outstanding)
  · exact accounts.allocateFresh _

theorem Accounts.freePage_refused {page : Nat}
    (foreign : page ∉ outstanding) : allocator.freePage page = (false, allocator) := by
  unfold PageAllocator.freePage
  split
  · rfl
  next known =>
  push Not at known
  obtain ⟨range, member, inside⟩ := any_eq_true.mp known.2
  have passed : allocator.Passed page :=
    ⟨range, member, Nat.dvd_of_mod_eq_zero known.1, (of_decide_eq_true inside).1, (of_decide_eq_true inside).2⟩
  have freed := (mem_append.mp ((accounts.passed page).mpr passed)).resolve_left foreign
  rw [dif_pos (.inl freed)]

end

theorem Accounts.freePage {outstanding : List Nat} (accounts : allocator.Accounts outstanding) (page : Nat) :
    allocator.Continues (allocator.freePage page).2
      (if (allocator.freePage page).1 then outstanding.erase page else outstanding) := by
  by_cases member : page ∈ outstanding
  · unfold PageAllocator.freePage
    split
    · exact ⟨accounts, rfl⟩
    split
    · exact ⟨accounts, rfl⟩
    refine accounts.moved rfl ?_
    calc
      (outstanding.erase page ++ (allocator.freed ++ [page])).Perm
          (page :: outstanding.erase page ++ allocator.freed) := by
          rw [← append_assoc]
          exact perm_append_singleton _ _
      _ |>.Perm (outstanding ++ allocator.freed) := (perm_cons_erase member).symm.append_right _
  · rw [accounts.freePage_refused member]
    exact ⟨accounts, rfl⟩

theorem Accounts.perform {pages : List Nat} (accounts : allocator.Accounts pages) (request : PageRequest) :
    allocator.Continues (allocator.perform request).2
      (outstandingAfter pages (Runs.event PageAllocator.perform allocator request)) := by
  cases request with
  | allocatePage =>
    have kept := accounts.allocatePage
    cases page : allocator.allocatePage.1 <;>
      simpa [outstandingAfter, Runs.event, PageAllocator.perform, page] using kept
  | allocatePageBelow upperExclusive =>
    have kept := accounts.allocatePageBelow upperExclusive
    cases page : (allocator.allocatePageBelow upperExclusive).1 <;>
      simpa [outstandingAfter, Runs.event, PageAllocator.perform, page] using kept
  | freePage page =>
    have kept := accounts.freePage page
    cases done : (allocator.freePage page).1 <;>
      simpa [outstandingAfter, Runs.event, PageAllocator.perform, done] using kept

theorem pushRange_ok (pushed : allocator.pushRange range = .ok after) :
    after.ranges = allocator.ranges ++ [range] ∧ after.freed = allocator.freed := by
  unfold pushRange at pushed
  split at pushed <;> cases pushed
  exact ⟨rfl, rfl⟩

end PageAllocator

def Conventional (entry : MemoryMapEntry) : Prop := entry.memoryType = conventionalMemoryType ∧ entry.pageCount ≠ 0

instance : DecidablePred Conventional := fun _ => inferInstanceAs (Decidable (_ ∧ _))

def entryAt (readEntry : Nat → MemoryMapEntry) (map : MemoryMapInfo) (index : Nat) : MemoryMapEntry :=
  readEntry (map.address + index * map.entrySize)

def conventionalAt (readEntry : Nat → MemoryMapEntry) (map : MemoryMapInfo) (indices : List Nat) : List (Nat × Nat) :=
  ((indices.map (entryAt readEntry map)).filter (Conventional ·)).map fun entry =>
    (entry.physicalStart, entry.physicalStart + entry.pageCount * pageSize)

def conventionalRanges (readEntry : Nat → MemoryMapEntry) (map : MemoryMapInfo) : List (Nat × Nat) :=
  conventionalAt readEntry map (range map.entryCount)

namespace PageAllocator

structure Untouched (allocator : PageAllocator) (spans : List (Nat × Nat)) : Prop where
  spans : allocator.ranges.map PageRange.span = spans
  unmarked : ∀ range ∈ allocator.ranges, range.next = range.start
  freed : allocator.freed = []

variable {readEntry : Nat → MemoryMapEntry} {allocator after : PageAllocator} {spans : List (Nat × Nat)}

theorem Untouched.scanEntry {map : MemoryMapInfo} {index : Nat} (untouched : allocator.Untouched spans)
    (scanned : allocator.scanEntry readEntry map index = .ok after) :
    after.Untouched (spans ++ conventionalAt readEntry map [index]) := by
  obtain ⟨same, unmarked, freed⟩ := untouched
  obtain ⟨_, added⟩ := unless_ok_iff.mp scanned
  change allocator.addEntry (entryAt readEntry map index) = .ok after at added
  unfold addEntry at added
  by_cases conventional : Conventional (entryAt readEntry map index)
  · have given : conventionalAt readEntry map [index] = [((entryAt readEntry map index).physicalStart,
        (entryAt readEntry map index).physicalStart + (entryAt readEntry map index).pageCount * pageSize)] := by
      simp [conventionalAt, conventional]
    rw [if_neg (by simpa [Conventional] using conventional)] at added
    split at added
    · obtain ⟨_, pushed⟩ := unless_ok_iff.mp added
      obtain ⟨ranges, kept⟩ := pushRange_ok pushed
      refine ⟨?_, ?_, kept.trans freed⟩
      · rw [ranges, map_append, same, given]
        rfl
      · rw [ranges]
        exact forall_mem_append.mpr ⟨unmarked, forall_mem_singleton.mpr rfl⟩
    · cases added
  · have nothing : conventionalAt readEntry map [index] = [] := by
      simp [conventionalAt, conventional]
    rw [if_pos (by simpa [Conventional, imp_iff_not_or] using conventional)] at added
    cases added
    rw [nothing, append_nil]
    exact ⟨same, unmarked, freed⟩

theorem Untouched.scan {map : MemoryMapInfo} (untouched : allocator.Untouched spans) (indices : List Nat)
    (scanned : indices.foldlM (PageAllocator.scanEntry readEntry map) allocator = .ok after) :
    after.Untouched (spans ++ conventionalAt readEntry map indices) := by
  induction indices generalizing allocator spans with
  | nil =>
    cases scanned
    simpa [conventionalAt] using untouched
  | cons index rest ih =>
    obtain ⟨next, first, later⟩ := bind_ok_iff.mp scanned
    have done := ih (untouched.scanEntry first) later
    have split : conventionalAt readEntry map (index :: rest) =
        conventionalAt readEntry map [index] ++ conventionalAt readEntry map rest := by
      rw [← singleton_append]
      simp only [conventionalAt, map_append, filter_append]
    rw [split, ← append_assoc]
    exact done

theorem fromBootInfo_untouched {info : Info} (booted : fromBootInfo readEntry info = .ok allocator) :
    allocator.Untouched (conventionalRanges readEntry info.memoryMap) := by
  simp only [fromBootInfo, throw, throwThe, MonadExceptOf.throw, bind_ok_iff, unless_bind_ok_iff] at booted
  obtain ⟨_, _, _, scan, _, same⟩ := booted
  cases same
  have start : empty.Untouched [] := ⟨rfl, nofun, rfl⟩
  exact start.scan _ scan

theorem Untouched.accounts (untouched : allocator.Untouched spans) (disjoint : Disjoint spans) :
    allocator.Accounts [] where
  disjoint := untouched.spans ▸ disjoint
  once := by
    rw [untouched.freed]
    exact nodup_nil
  passed page := by
    rw [untouched.freed]
    refine iff_of_false (not_mem_nil) ?_
    rintro ⟨range, member, _, low, high⟩
    have same := untouched.unmarked range member
    omega

theorem allocatePageBelow_bound (allocator : PageAllocator) (upperExclusive : Nat) :
    match (allocator.allocatePageBelow upperExclusive).1 with
    | some page => page < upperExclusive
    | none => (∀ page ∈ allocator.freed, ¬page < upperExclusive) ∧
        ∀ range ∈ allocator.ranges, ¬(range.next < range.limit ∧ range.next < upperExclusive) := by
  unfold allocatePageBelow
  cases found : allocator.freed.findIdx? (· < upperExclusive) with
  | some position =>
    obtain ⟨within, below, _⟩ := findIdx?_eq_some_iff_getElem.mp found
    change allocator.freed.getD position 0 < upperExclusive
    rw [getD_eq_getElem _ _ within]
    exact of_decide_eq_true below
  | none =>
    have above := findIdx?_eq_none_iff.mp found
    rcases allocateFresh_cases (· < upperExclusive) allocator with
      ⟨same, none⟩ | ⟨after, _, range, _, _, same, wanted, _⟩
    · simp only [same]
      exact ⟨fun page member => by simpa using above page member, fun range member => by simpa using none range member⟩
    · simpa [same] using wanted

end PageAllocator

open PageAllocator

/-- In every run the outstanding pages are distinct pages of the conventional ranges, and no other page can be freed. -/
theorem outstanding_pages_accounted {readEntry : Nat → MemoryMapEntry} {info : Info} {allocator : PageAllocator}
    (booted : fromBootInfo readEntry info = .ok allocator)
    (disjoint : PageAllocator.Disjoint (conventionalRanges readEntry info.memoryMap)) (requests : List PageRequest) :
    let reached := Runs.run perform allocator requests
    let pages := outstanding (Runs.trace perform allocator requests)
    pages.Nodup ∧
      (∀ page ∈ pages, page % pageSize = 0 ∧
        ∃ range ∈ conventionalRanges readEntry info.memoryMap, range.1 ≤ page ∧ page + pageSize ≤ range.2) ∧
      reached.freed.Nodup ∧ (∀ page ∈ reached.freed, page ∉ pages) ∧
      (∀ page, page ∉ pages → reached.freePage page = (false, reached)) ∧
      ∀ upperExclusive, match (reached.allocatePageBelow upperExclusive).1 with
        | some page => page < upperExclusive
        | none => (∀ page ∈ reached.freed, ¬page < upperExclusive) ∧
            ∀ range ∈ reached.ranges, ¬(range.next < range.limit ∧ range.next < upperExclusive) := by
  intro reached pages
  have untouched := fromBootInfo_untouched booted
  have kept : reached.Accounts pages ∧
      reached.ranges.map PageRange.span = conventionalRanges readEntry info.memoryMap := by
    refine Runs.trace_invariant (P := fun (state : PageAllocator) past => state.Accounts (outstanding past) ∧
      state.ranges.map PageRange.span = conventionalRanges readEntry info.memoryMap) ?_
      ⟨untouched.accounts disjoint, untouched.spans⟩ requests
    rintro state past request ⟨accounts, spans⟩
    obtain ⟨accounts, same⟩ := accounts.perform request
    rw [outstanding, foldl_append]
    exact ⟨accounts, same.trans spans⟩
  obtain ⟨accounts, spans⟩ := kept
  obtain ⟨distinct, freedOnce, apart⟩ := nodup_append.mp accounts.once
  refine ⟨distinct, ?_, freedOnce, ?_, fun page foreign => accounts.freePage_refused foreign,
    allocatePageBelow_bound reached⟩
  · intro page member
    obtain ⟨range, inRanges, passed⟩ := (accounts.passed page).mp (mem_append_left _ member)
    refine ⟨Nat.mod_eq_zero_of_dvd passed.1, range.span, ?_, passed.within⟩
    rw [← spans]
    exact mem_map_of_mem inRanges
  · intro page freed member
    exact apart page member page freed rfl

def threeEntryInfo : Info where
  magic := bootInfoMagic
  version := bootInfoVersion
  size := bootInfoSize
  memoryMap := ⟨0x1000, 3, 40⟩
  framebuffer := ⟨0xE0000000, 0x300000, 1024, 768, 1024⟩
  acpiRsdp := 0xF0000
  bootControl := {}

def threeEntryMap (address : Nat) : MemoryMapEntry :=
  if address = 0x1000 then ⟨7, 0x100000, 2⟩ else if address = 0x1028 then ⟨2, 0x102000, 16⟩ else ⟨7, 0x300000, 1⟩

theorem outstanding_pages_of_three_entries :
    ∃ allocator, fromBootInfo threeEntryMap threeEntryInfo = .ok allocator ∧
      let pages := outstanding (Runs.trace perform allocator
        [.allocatePage, .allocatePageBelow 0x200000, .freePage 0x100000, .allocatePage, .allocatePage])
      pages = [0x300000, 0x100000, 0x101000] ∧ pages.Nodup := by
  obtain ⟨allocator, booted, pages⟩ : ∃ allocator,
      fromBootInfo threeEntryMap threeEntryInfo = .ok allocator ∧
        outstanding (Runs.trace perform allocator
          [.allocatePage, .allocatePageBelow 0x200000, .freePage 0x100000, .allocatePage, .allocatePage]) =
            [0x300000, 0x100000, 0x101000] := ⟨_, rfl, by decide⟩
  have disjoint : PageAllocator.Disjoint (conventionalRanges threeEntryMap threeEntryInfo.memoryMap) := by
    unfold PageAllocator.Disjoint
    decide
  exact ⟨allocator, booted, pages, (outstanding_pages_accounted booted disjoint _).1⟩

/-- No page is lost: allocation fails only when every page of the conventional ranges is outstanding. -/
theorem exhausted_pages_outstanding {readEntry : Nat → MemoryMapEntry} {info : Info} {allocator : PageAllocator}
    (booted : fromBootInfo readEntry info = .ok allocator)
    (disjoint : PageAllocator.Disjoint (conventionalRanges readEntry info.memoryMap)) (requests : List PageRequest)
    (failed : (Runs.run perform allocator requests).allocatePage.1 = none) :
    ∀ span ∈ conventionalRanges readEntry info.memoryMap, ∀ page, pageSize ∣ page → span.1 ≤ page → page < span.2 →
      page ∈ outstanding (Runs.trace perform allocator requests) := by
  have untouched := fromBootInfo_untouched booted
  obtain ⟨accounts, spans⟩ : allocator.Continues _ (outstanding (Runs.trace perform allocator requests)) := by
    refine Runs.trace_invariant (P := fun state past => allocator.Continues state (outstanding past)) ?_
      ⟨untouched.accounts disjoint, rfl⟩ requests
    intro state past request kept
    obtain ⟨accounts, same⟩ := kept.accounts.perform request
    rw [outstanding, foldl_append]
    exact ⟨accounts, same.trans kept.spans⟩
  rw [← untouched.spans, ← spans, forall_mem_map]
  intro range member page aligned low high
  unfold PageAllocator.allocatePage at failed
  split at failed
  · cases failed
  next empty =>
  have full : range.limit ≤ range.next := by
    unfold PageAllocator.allocateFresh at failed
    split at failed
    · next none => simpa using takeFresh_none none range member
    · cases failed
  have passed := (accounts.passed page).mpr ⟨range, member, aligned, low, Nat.lt_of_lt_of_le high full⟩
  simpa [getLast?_eq_none_iff.mp empty] using passed

theorem three_entries_exhausted : ∃ allocator, fromBootInfo threeEntryMap threeEntryInfo = .ok allocator ∧
    0x101000 ∈ outstanding (Runs.trace perform allocator [.allocatePage, .allocatePage, .allocatePage]) :=
  ⟨_, rfl, @exhausted_pages_outstanding threeEntryMap threeEntryInfo _ rfl (by unfold PageAllocator.Disjoint; decide)
    _ rfl (0x100000, 0x102000) (by decide) 0x101000 (by decide) (by decide) (by decide)⟩

end Nagi.Kernel
