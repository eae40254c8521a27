import Mathlib.Data.List.Nodup
import Nagi.Kernel.UserMmap.Protection

/-! The frames of the window: from the boot allocator to the pool, and back and forth
between the pool and the owned pages.

The value 0 stands for a page without a frame. A pool that contains the frame at
address 0 therefore loses it. -/

namespace Nagi.Kernel

open Lib Nagi.BootInfo Runs List

namespace PageAllocator

def leftIn (range : PageRange) : List Nat :=
  (List.range ((range.limit - range.next) / pageSize)).map fun i => range.next + i * pageSize

def available (allocator : PageAllocator) : List Nat := allocator.freed.reverse ++ allocator.ranges.flatMap leftIn

variable {range : PageRange}

theorem leftIn_full (full : ¬range.next < range.limit) : leftIn range = [] := by
  have none : range.limit - range.next = 0 := by omega
  simp [leftIn, none]

theorem leftIn_advance (left : range.next < range.limit) :
    leftIn range = range.next :: leftIn (range.advance left) := by
  have next := range.next_page_le left
  have positive : 0 < pageSize := by decide
  have count : (range.limit - range.next) / pageSize = (range.limit - (range.next + pageSize)) / pageSize + 1 := by
    rw [← Nat.add_div_right _ positive]
    congr 1
    omega
  rw [leftIn, count, range_succ_eq_map, map_cons, map_map, Nat.zero_mul, Nat.add_zero]
  congr 1
  apply map_congr_left
  simp only [Function.comp_apply, Nat.succ_mul, PageRange.advance]
  omega

theorem takeFresh_left (ranges : List PageRange) :
    ranges.flatMap leftIn = [] ∧ takeFresh (fun _ => true) ranges = none ∨
      ∃ page taken, takeFresh (fun _ => true) ranges = some (page, taken) ∧
        ranges.flatMap leftIn = page :: taken.flatMap leftIn := by
  induction ranges with
  | nil => exact .inl ⟨rfl, rfl⟩
  | cons range later ih =>
    rw [flatMap_cons]
    unfold takeFresh
    by_cases left : range.next < range.limit
    · rw [leftIn_advance left, cons_append, dif_pos ⟨left, rfl⟩]
      exact .inr ⟨_, _, rfl, rfl⟩
    · rw [leftIn_full left, nil_append, dif_neg fun both => left both.1]
      rcases ih with ⟨empty, none⟩ | ⟨page, taken, found, same⟩
      · exact .inl ⟨empty, by rw [none]; rfl⟩
      · refine .inr ⟨page, range :: taken, by rw [found]; rfl, ?_⟩
        rw [same, flatMap_cons, leftIn_full left, nil_append]

theorem allocatePage_next (allocator : PageAllocator) :
    allocator.available = [] ∧ allocator.allocatePage.1 = none ∨
      ∃ page after, allocator.allocatePage = (some page, after) ∧ allocator.available = page :: after.available := by
  unfold allocatePage
  split
  · next page last =>
    obtain ⟨init, freed⟩ := getLast?_eq_some_iff.mp last
    exact .inr ⟨page, _, rfl, by simp [available, freed]⟩
  next none =>
  have freed := getLast?_eq_none_iff.mp none
  unfold allocateFresh
  rcases takeFresh_left allocator.ranges with ⟨empty, nothing⟩ | ⟨page, taken, found, same⟩
  · refine .inl ⟨by rw [available, freed, empty]; rfl, ?_⟩
    split
    · rfl
    · next found => exact nomatch nothing.symm.trans found
  · right
    split
    · next nothing => exact nomatch found.symm.trans nothing
    · next found' =>
      cases Option.some.inj (found.symm.trans found')
      exact ⟨page, _, rfl, by simp [available, freed, same]⟩

end PageAllocator

namespace UserMmap

section Pool
variable (window : Window) (readPageTableEntry : Nat → Nat → BitVec 64) (cr3 : Nat)

/-- Frames go into the pool until it is full or the allocator is empty; there are `left` pages in it. -/
def fillFrom : Nat → PageAllocator → List Nat → List Nat × PageAllocator
  | 0, allocator, frames => (frames, allocator)
  | left + 1, allocator, frames =>
    if frames.length < window.pages then
      match allocator.allocatePage with
      | (none, after) => (frames, after)
      | (some frame, after) =>
        fillFrom left after (if identityMapped readPageTableEntry cr3 frame pageSize then frames ++ [frame] else frames)
    else
      (frames, allocator)

def fillMmapFramePool (allocator : PageAllocator) : List Nat × PageAllocator :=
  fillFrom window readPageTableEntry cr3 allocator.available.length allocator []

variable {allocator : PageAllocator} {frames : List Nat}

theorem fillFrom_eq {left : Nat} (enough : allocator.available.length ≤ left) (room : frames.length ≤ window.pages) :
    (fillFrom window readPageTableEntry cr3 left allocator frames).1 = frames ++
      (allocator.available.filter (identityMapped readPageTableEntry cr3 · pageSize)).take
        (window.pages - frames.length) := by
  induction left generalizing allocator frames with
  | zero =>
    rw [eq_nil_of_length_eq_zero (Nat.le_zero.mp enough)]
    simp [fillFrom]
  | succ left ih =>
    unfold fillFrom
    split
    · next space =>
      rcases allocator.allocatePage_next with ⟨empty, none⟩ | ⟨frame, after, allocated, rest⟩
      · split
        · simp [empty]
        · next allocated =>
          rw [allocated] at none
          cases none
      · rw [allocated]
        dsimp only
        rw [rest, length_cons] at enough
        have fewer : after.available.length ≤ left := by omega
        rw [rest]
        by_cases mapped : identityMapped readPageTableEntry cr3 frame pageSize = true
        · rw [if_pos mapped, ih fewer (by rw [length_append, length_singleton]; omega),
            filter_cons, if_pos mapped, length_append, length_singleton, append_assoc]
          have one : window.pages - frames.length = window.pages - (frames.length + 1) + 1 := by omega
          rw [one, take_succ_cons]
          rfl
        · rw [if_neg mapped, ih fewer room, filter_cons, if_neg mapped]
    · next full =>
      have none : window.pages - frames.length = 0 := by omega
      simp [none]

/-- The pool holds the first identity-mapped pages that the allocator has left. -/
theorem fillMmapFramePool_eq (allocator : PageAllocator) :
    (fillMmapFramePool window readPageTableEntry cr3 allocator).1 =
      (allocator.available.filter (identityMapped readPageTableEntry cr3 · pageSize)).take window.pages := by
  unfold fillMmapFramePool
  rw [fillFrom_eq window readPageTableEntry cr3 (Nat.le_refl _) (Nat.zero_le _)]
  rfl

variable {window readPageTableEntry cr3}

theorem fillFrom_nodup {left : Nat} {outstanding : List Nat} (accounts : allocator.Accounts outstanding)
    (distinct : frames.Nodup) (known : frames ⊆ outstanding) :
    (fillFrom window readPageTableEntry cr3 left allocator frames).1.Nodup := by
  induction left generalizing allocator outstanding frames with
  | zero => exact distinct
  | succ left ih =>
    have kept := accounts.allocatePage.accounts
    unfold fillFrom
    split
    · split
      · exact distinct
      next frame after allocated =>
      rw [allocated] at kept
      have fresh : frame ∉ frames := by
        intro member
        have once := (nodup_append.mp kept.once).1
        exact (nodup_cons.mp once).1 (known member)
      have grown : frames ⊆ frame :: outstanding := fun _ member => mem_cons_of_mem _ (known member)
      split_ifs
      · refine ih kept ?_ ?_
        · exact nodup_append.mpr ⟨distinct, nodup_singleton frame, fun page member other here same =>
            fresh (by rw [mem_singleton] at here; exact here ▸ same ▸ member)⟩
        · exact append_subset.mpr ⟨grown, fun page here => mem_singleton.mp here ▸ mem_cons_self⟩
      · exact ih kept distinct grown
    · exact distinct

end Pool
section
variable {window : Window}

def ownedPages (window : Window) (storage : Storage) : List Nat :=
  (range window.pages).filter (storage.owners · ≠ 0)

/-- The frames in the pool and those of the owned pages are the ones that the pool was filled with. -/
structure Conserved (window : Window) (filled : List Nat) (storage : Storage) : Prop where
  frames : (storage.freeFrames ++ (ownedPages window storage).map storage.frames).Perm filled
  framed : ∀ page ∈ ownedPages window storage, storage.frames page ≠ 0
  distinct : ∀ page ∈ ownedPages window storage, ∀ other ∈ ownedPages window storage,
    storage.frames page = storage.frames other → page = other

def ReadsZero (event : Lib.Event Storage Call Reply) : Prop :=
  match event.action, event.result with
  | .mmapUser length _, .mapped (.ok address) => ∀ page, Covers address length page → ∀ offset < pageSize,
      event.after.memory (event.after.frames page + offset) = 0
  | _, _ => True

variable {storage after : Storage} {pageCount : Nat}

theorem ownedPages_perm {startPage : Nat} (inside : startPage + pageCount ≤ window.pages)
    (others : ∀ page, ¬(startPage ≤ page ∧ page < startPage + pageCount) → after.owners page = storage.owners page)
    (free : ∀ page, startPage ≤ page → page < startPage + pageCount → storage.owners page = 0)
    (held : ∀ page, startPage ≤ page → page < startPage + pageCount → after.owners page ≠ 0) :
    (ownedPages window after).Perm (ownedPages window storage ++ range' startPage pageCount) := by
  have outside (first count : Nat) (apart : first + count ≤ startPage ∨ startPage + pageCount ≤ first) :
      (range' first count).filter (after.owners · ≠ 0) = (range' first count).filter (storage.owners · ≠ 0) := by
    apply filter_congr
    intro page member
    have range := mem_range'_1.mp member
    rw [others page (by omega)]
  have before : (range' startPage pageCount).filter (storage.owners · ≠ 0) = [] := by
    apply filter_eq_nil_iff.mpr
    intro page member
    have range := mem_range'_1.mp member
    simp [free page range.1 range.2]
  have now : (range' startPage pageCount).filter (after.owners · ≠ 0) = range' startPage pageCount := by
    apply filter_eq_self.mpr
    intro page member
    have range := mem_range'_1.mp member
    simpa using held page range.1 range.2
  unfold ownedPages
  rw [range_split inside, filter_append, filter_append, filter_append, filter_append, before, now,
    outside 0 startPage (by omega), outside (startPage + pageCount) _ (by omega), append_nil, append_assoc,
    append_assoc]
  exact perm_append_comm.append_left _

theorem mem_ownedPages {page : Nat} :
    page ∈ ownedPages window storage ↔ page < window.pages ∧ storage.owners page ≠ 0 := by
  simp [ownedPages]

def heldFrames (window : Window) (storage : Storage) : List Nat :=
  storage.freeFrames ++ (ownedPages window storage).map storage.frames

variable {filled : List Nat}

theorem conserved_of_perm (nonzero : 0 ∉ filled) (once : filled.Nodup)
    (frames : (heldFrames window storage).Perm filled) :
    Conserved window filled storage := by
  refine ⟨frames, fun page member zero => nonzero ?_, fun page member other member' same => ?_⟩
  · apply frames.mem_iff.mp
    exact mem_append_right _ (zero ▸ mem_map_of_mem member)
  · have distinct := (nodup_append.mp (frames.nodup_iff.mpr once)).2.1
    exact inj_on_of_nodup_map distinct member member' same

theorem MmapOutcome.conserved {length protection : Nat} {result : Except Failure Nat}
    (outcome : MmapOutcome window storage length protection result after) (nonzero : 0 ∉ filled)
    (frames : (heldFrames window storage).Perm filled) :
    (heldFrames window after).Perm filled := by
  cases outcome with
  | refused => exact frames
  | @undone _ startPage pageCount taken assigned _ inside free gave owners _ back pool _ =>
    have sameOwned : ownedPages window after = ownedPages window storage := by
      rw [ownedPages, owners]
      rfl
    have sameFrames : (ownedPages window storage).map after.frames =
        (ownedPages window storage).map storage.frames := by
      apply map_congr_left
      intro page member
      have held := (mem_ownedPages.mp member).2
      rw [back, if_neg fun range => held (free page range.1 range.2)]
    have all : taken.reverse.filter (· ≠ 0) = taken.reverse := by
      apply filter_eq_self.mpr
      intro frame member
      refine decide_eq_true fun zero => nonzero (frames.mem_iff.mp (mem_append_left _ ?_))
      rw [gave.pool, ← zero]
      exact mem_append_right _ (mem_reverse.mp member)
    refine List.Perm.trans ?_ frames
    rw [heldFrames, heldFrames, sameOwned, sameFrames, pool, all, gave.pool]
    exact ((reverse_perm taken).append_left _).append_right _
  | @mapped slot startPage pageCount taken assigned _ _ _ inside free _ _ gave _ owners _ given pool _ _ =>
    have shared : (ownedPages window after).Perm (ownedPages window storage ++ range' startPage pageCount) := by
      apply ownedPages_perm inside
      · intro page outside
        rw [owners, fill, if_neg outside]
      · exact free
      · intro page low high
        rw [owners, fill, if_pos ⟨low, high⟩]
        exact Nat.succ_ne_zero slot
    have sameFrames : (ownedPages window storage).map after.frames =
        (ownedPages window storage).map storage.frames := by
      apply map_congr_left
      intro page member
      have held := (mem_ownedPages.mp member).2
      rw [given, gave.others page fun range => held (free page range.1 range.2)]
    refine List.Perm.trans ?_ frames
    calc (heldFrames window after).Perm
          (assigned.freeFrames ++ ((ownedPages window storage).map storage.frames ++ taken.reverse)) := by
          rw [heldFrames, pool, ← sameFrames, ← gave.frames, ← given, ← map_append]
          exact (shared.map _).append_left _
      _ |>.Perm (assigned.freeFrames ++ (taken ++ (ownedPages window storage).map storage.frames)) :=
          (perm_append_comm.trans ((reverse_perm taken).append_right _)).append_left _
      _ = heldFrames window storage := by
          rw [heldFrames, gave.pool, append_assoc]

theorem giveBack_conserved (nonzero : 0 ∉ filled)
    (frames : (heldFrames window storage).Perm filled) {startPage : Nat}
    {reservations : Nat → Option Nat} (inside : startPage + pageCount ≤ window.pages)
    (held : ∀ page, startPage ≤ page → page < startPage + pageCount → storage.owners page ≠ 0) :
    let after := giveBack window { storage with
      owners := fill storage.owners startPage pageCount 0
      reservations := reservations } startPage pageCount
    (heldFrames window after).Perm filled := by
  intro after
  obtain ⟨owners, _, back, pool, _⟩ := @giveBack_spec window { storage with
    owners := fill storage.owners startPage pageCount 0
    reservations := reservations } startPage pageCount inside
  have released : after.owners = fill storage.owners startPage pageCount 0 := owners
  have gone (page : Nat) (low : startPage ≤ page) (high : page < startPage + pageCount) : after.owners page = 0 := by
    rw [released, fill, if_pos ⟨low, high⟩]
  have shared : (ownedPages window storage).Perm (ownedPages window after ++ range' startPage pageCount) := by
    apply ownedPages_perm inside
    · intro page outside
      rw [released, fill, if_neg outside]
    · exact gone
    · exact held
  have sameFrames : (ownedPages window after).map after.frames = (ownedPages window after).map storage.frames := by
    apply map_congr_left
    intro page member
    rw [back, if_neg fun range => (mem_ownedPages.mp member).2 (gone page range.1 range.2)]
  have all : ((range' startPage pageCount).map storage.frames).filter (· ≠ 0) =
      (range' startPage pageCount).map storage.frames := by
    apply filter_eq_self.mpr
    intro frame member
    obtain ⟨page, range, rfl⟩ := mem_map.mp member
    refine decide_eq_true fun zero => nonzero (frames.mem_iff.mp (mem_append_right _ ?_))
    rw [← zero]
    exact mem_map_of_mem (shared.mem_iff.mpr (mem_append_right _ range))
  refine List.Perm.trans ?_ frames
  calc (heldFrames window after).Perm
        (storage.freeFrames ++ (range' startPage pageCount).map storage.frames ++
          (ownedPages window after).map storage.frames) := by
        rw [heldFrames, pool, sameFrames, all]
    _ |>.Perm (storage.freeFrames ++
          ((ownedPages window after).map storage.frames ++ (range' startPage pageCount).map storage.frames)) := by
        rw [append_assoc]
        exact perm_append_comm.append_left _
    _ |>.Perm (heldFrames window storage) := by
        rw [← map_append]
        exact (shared.symm.map _).append_left _

theorem Protects.framed {accepts : Nat → Nat → Bool} {address length protection : Nat} {done : Bool}
    (protects : Protects window storage accepts address length protection done after) :
    heldFrames window after = heldFrames window storage := by
  cases protects with
  | refused => rfl
  | applied _ _ inside =>
    obtain ⟨only, _, _⟩ := @protectRange_spec window storage _ _ protection inside
    rw [heldFrames, ownedPages, only.owners, only.freeFrames, only.frames]
    rfl

theorem perform_conserved {last : Nat → Option Nat} (consistent : Consistent window storage last)
    (nonzero : 0 ∉ filled)
    (frames : (heldFrames window storage).Perm filled) (call : Call) :
    (heldFrames window (perform window storage call).2).Perm filled := by
  cases call with
  | mmapUser length protection => exact (mmapUser_outcome storage length protection).conserved nonzero frames
  | mmapUserAt address length protection =>
    obtain ⟨_, _, protects⟩ := @mmapUserAt_protects window storage address length protection
    exact protects.framed ▸ frames
  | munmapUser address length =>
    rcases munmapUser_spec consistent.counted address length with
      refused | ⟨_, _, _, _, _, inside, _, held, does⟩
    · rw [perform, refused]
      exact frames
    · rw [perform, does]
      exact giveBack_conserved nonzero frames inside held
  | mprotectUser address length protection =>
    exact (mprotectUser_protects consistent.counted address length protection).framed ▸ frames
  | memoryBecomes memory => exact frames

theorem perform_readsZero (storage : Storage) (call : Call) : ReadsZero (event (perform window) storage call) := by
  cases call with
  | mmapUser length protection =>
    have outcome := @mmapUser_outcome window storage length protection
    simp only [ReadsZero, event, perform, Prod.map_fst, Prod.map_snd, id]
    generalize (mmapUserInStorage window storage length protection).1 = result at outcome
    generalize (mmapUserInStorage window storage length protection).2 = after at outcome
    cases outcome with
    | refused | undone => trivial
    | mapped size _ _ _ _ _ gave _ _ _ frames _ memory _ =>
      subst size
      intro page covered offset within
      rw [memory, frames]
      refine gave.zeroed _ ?_ offset within
      have range := covers_iff.mp covered
      rw [← mem_reverse, ← gave.frames]
      exact mem_map_of_mem (mem_range'_1.mpr range)
  | mmapUserAt | munmapUser | mprotectUser | memoryBecomes => trivial

variable {memory : Nat → UInt8}

theorem mmapUser_cleared (nonempty : filled ≠ []) (fits : filled.length ≤ window.pages) :
    ∃ address, (mmapUserInStorage window (.cleared filled memory) (filled.length * pageSize) protNone).1 =
      .ok address := by
  have positive : 0 < filled.length := length_pos_iff.mpr nonempty
  have valid : validateMmapRequest window (filled.length * pageSize) protNone = some filled.length := by
    have size : 0 < pageSize := by decide
    have whole : filled.length * pageSize % pageSize = 0 := Nat.mul_mod_left _ _
    have nonzero : filled.length * pageSize ≠ 0 := Nat.mul_ne_zero (by omega) (by omega)
    have small : ¬filled.length * pageSize > window.pages * pageSize := Nat.not_lt.mpr (Nat.mul_le_mul_right _ fits)
    unfold validateMmapRequest
    rw [if_neg (by simp [nonzero, whole, small, protNone]), Nat.mul_div_cancel _ size]
  obtain ⟨slot, found⟩ : ∃ slot, (range window.maxReservations).find?
      ((Storage.cleared filled memory).reservations · = none) = some slot := by
    apply Option.isSome_iff_exists.mp
    rw [find?_isSome]
    have slots := window.slots_positive
    exact ⟨0, mem_range.mpr (Nat.mul_pos slots (by decide)), rfl⟩
  have free : ∀ page, 0 ≤ page → page < 0 + filled.length → (Storage.cleared filled memory).owners page = 0 :=
    fun _ _ _ => rfl
  have inside : 0 + filled.length ≤ window.pages := by omega
  have run : findMmapStartPage window (Storage.cleared filled memory).owners filled.length = some 0 :=
    findMmapStartPage_eq_some.mpr ⟨positive, ⟨inside, free⟩, fun _ _ => Nat.zero_le _⟩
  have within : slot < window.maxReservations := mem_range.mp (mem_of_find?_eq_some found)
  have assigned : assignMmapFrames (.cleared filled memory) 0 filled.length =
      some ((range' 0 filled.length).foldl assignFrame (.cleared filled memory)) :=
    if_neg (Nat.lt_irrefl _)
  obtain ⟨_, gave⟩ := assignMmapFrames_spec assigned
  have registered := @registerMmapReservation_eq window _ 0 filled.length slot positive inside within
    (gave.only.reservations ▸ rfl) (gave.only.owners ▸ free)
  refine ⟨userMmapBase + 0 * pageSize, ?_⟩
  simp only [mmapUserInStorage, valid, found, run, assigned, mapRange, if_true, registered]

/-- A pool with the frame 0 hands it out like any other frame, and then the page has no frame. -/
theorem not_conserved (zero : 0 ∈ filled) (fits : filled.length ≤ window.pages) :
    ¬Conserved window filled (perform window (.cleared filled memory)
      (.mmapUser (filled.length * pageSize) protNone)).2 := by
  intro conserved
  obtain ⟨address, mapped⟩ := @mmapUser_cleared window filled memory (ne_nil_of_mem zero) fits
  have outcome := @mmapUser_outcome window (.cleared filled memory) (filled.length * pageSize) protNone
  rw [mapped] at outcome
  change Conserved window filled (mmapUserInStorage window (.cleared filled memory) _ _).2 at conserved
  generalize (mmapUserInStorage window (.cleared filled memory) (filled.length * pageSize) protNone).2 = after
    at outcome conserved
  cases outcome with
  | @mapped slot startPage pageCount taken assigned _ size _ inside _ _ _ gave _ owners _ frames _ _ _ =>
    have count : filled.length = pageCount := Nat.eq_of_mul_eq_mul_right (by decide) size
    have length : taken.length = pageCount := by
      have mapped := congrArg length gave.frames
      simpa using mapped.symm
    -- the whole pool was taken
    have pool : filled = assigned.freeFrames ++ taken := gave.pool
    have empty : assigned.freeFrames = [] := by
      have lengths := congrArg List.length pool
      rw [length_append] at lengths
      exact eq_nil_of_length_eq_zero (by omega)
    rw [pool, empty, nil_append, ← mem_reverse, ← gave.frames] at zero
    obtain ⟨page, member, none⟩ := mem_map.mp zero
    have range := mem_range'_1.mp member
    have held : page ∈ ownedPages window after := by
      apply mem_ownedPages.mpr
      rw [owners, fill, if_pos range]
      exact ⟨Nat.lt_of_lt_of_le range.2 inside, Nat.succ_ne_zero slot⟩
    exact conserved.framed page held (frames ▸ none)

theorem conserved_run (nonzero : 0 ∉ filled) (once : filled.Nodup) (memory : Nat → UInt8) (calls : List Call) :
    Runs.Always (perform window) (Conserved window filled) (.cleared filled memory) calls := by
  apply always_of_prefixes
  intro n _
  refine conserved_of_perm nonzero once (run_invariant (P := fun storage : Storage =>
    (∃ last, Consistent window storage last) ∧ (heldFrames window storage).Perm filled) ?_ ?_ _).2
  · rintro storage call ⟨⟨last, consistent⟩, frames⟩
    exact ⟨⟨_, (consistent.perform call).1⟩, perform_conserved consistent nonzero frames call⟩
  · refine ⟨⟨_, consistent_cleared filled memory⟩, ?_⟩
    have none : ownedPages window (.cleared filled memory) = [] := by
      simp [ownedPages, Storage.cleared]
    rw [heldFrames, none, map_nil, append_nil]
    rfl

end

/-- No frame of the pool is ever lost or shared and new pages are zero, exactly if the frame at address 0 does not
come into the pool. -/
theorem frames_conserved_iff {readEntry : Nat → MemoryMapEntry} {info : Info} {booted : PageAllocator}
    (fromMap : PageAllocator.fromBootInfo readEntry info = .ok booted)
    (disjoint : PageAllocator.Disjoint (conventionalRanges readEntry info.memoryMap)) (earlier : List PageRequest)
    (window : Window) (readPageTableEntry : Nat → Nat → BitVec 64) (cr3 : Nat) (memory : Nat → UInt8) :
    let allocator := Runs.run PageAllocator.perform booted earlier
    let filled := (fillMmapFramePool window readPageTableEntry cr3 allocator).1
    (∀ calls, Runs.Always (perform window) (Conserved window filled) (.cleared filled memory) calls ∧
      ∀ event ∈ Runs.trace (perform window) (.cleared filled memory) calls, ReadsZero event) ↔
    0 ∉ (allocator.available.filter (identityMapped readPageTableEntry cr3 · pageSize)).take window.pages := by
  intro allocator filled
  have pool : filled = (allocator.available.filter
      (identityMapped readPageTableEntry cr3 · pageSize)).take window.pages :=
    fillMmapFramePool_eq window readPageTableEntry cr3 allocator
  have fits : filled.length ≤ window.pages := by
    rw [pool]
    exact length_take_le _ _
  rw [← pool]
  constructor
  · intro always zero
    have whole := (always [.mmapUser (filled.length * pageSize) protNone]).1
    exact not_conserved zero fits whole.last
  · intro nonzero calls
    obtain ⟨outstanding, accounts⟩ : ∃ outstanding, allocator.Accounts outstanding := by
      refine run_invariant (P := fun allocator : PageAllocator => ∃ outstanding, allocator.Accounts outstanding)
        ?_ ⟨[], (PageAllocator.fromBootInfo_untouched fromMap).accounts disjoint⟩ earlier
      rintro allocator request ⟨outstanding, accounts⟩
      exact ⟨_, (accounts.perform request).accounts⟩
    have once : filled.Nodup := fillFrom_nodup accounts nodup_nil (nil_subset _)
    refine ⟨conserved_run nonzero once memory calls, ?_⟩
    exact forall_event (I := fun _ => True) (fun _ _ _ => trivial)
      (fun storage call _ => perform_readsZero storage call)
      trivial calls

def smallWindow : Window := ⟨128, 32, by decide, by decide, by decide⟩

def identityTables (table index : Nat) : BitVec 64 :=
  if table = 0x1000 then 0x2003#64 else BitVec.ofNat 64 (index * 2 ^ 30 + 0x83)

theorem frames_conserved_three_entries :
    ∃ booted, PageAllocator.fromBootInfo threeEntryMap threeEntryInfo = .ok booted ∧
      let filled := (fillMmapFramePool smallWindow identityTables 0x1000 booted).1
      filled = [0x100000, 0x101000, 0x300000] ∧
        Runs.Always (perform smallWindow) (Conserved smallWindow filled) (.cleared filled fun _ => 0xff)
          [.mmapUser 0x2000 6, .munmapUser (userMmapBase + 0x1000) 0x1000, .mmapUser 0x1000 5] := by
  obtain ⟨booted, fromMap, pages⟩ : ∃ booted, PageAllocator.fromBootInfo threeEntryMap threeEntryInfo = .ok booted ∧
      (booted.available.filter (identityMapped identityTables 0x1000 · pageSize)).take smallWindow.pages =
        [0x100000, 0x101000, 0x300000] := ⟨_, rfl, by decide +kernel⟩
  have disjoint : PageAllocator.Disjoint (conventionalRanges threeEntryMap threeEntryInfo.memoryMap) := by
    unfold PageAllocator.Disjoint
    decide
  have conserved := frames_conserved_iff fromMap disjoint [] smallWindow identityTables 0x1000 fun _ => 0xff
  refine ⟨booted, fromMap, (fillMmapFramePool_eq smallWindow identityTables 0x1000 booted).trans pages, ?_⟩
  exact (conserved.mpr (by rw [run, pages]; decide) _).1

/-- A map whose only conventional page is the one at address 0. -/
def pageZeroMap (_ : Nat) : MemoryMapEntry := ⟨7, 0, 1⟩

def pageZeroInfo : Info := { threeEntryInfo with memoryMap := ⟨0x1000, 1, 40⟩ }

/-- The frame at address 0 is taken for a request, cannot be mapped, and is not put back. -/
theorem frame_zero_is_lost :
    ∃ booted, PageAllocator.fromBootInfo pageZeroMap pageZeroInfo = .ok booted ∧
      PageAllocator.Disjoint (conventionalRanges pageZeroMap pageZeroInfo.memoryMap) ∧
      let filled := (fillMmapFramePool smallWindow identityTables 0x1000 booted).1
      filled = [0] ∧
        ¬Conserved smallWindow filled (perform smallWindow (.cleared filled fun _ => 0)
          (.mmapUser 0x1000 protRead)).2 := by
  obtain ⟨booted, fromMap, pool⟩ : ∃ booted, PageAllocator.fromBootInfo pageZeroMap pageZeroInfo = .ok booted ∧
      (fillMmapFramePool smallWindow identityTables 0x1000 booted).1 = [0] := ⟨_, rfl, by decide +kernel⟩
  refine ⟨booted, fromMap, pairwise_singleton _ _, pool, ?_⟩
  rw [pool]
  have lost : (perform smallWindow (.cleared [0] fun _ => 0) (.mmapUser 0x1000 protRead)).2.freeFrames = [] := by
    decide +kernel
  intro conserved
  have frames := conserved.frames
  rw [lost, nil_append] at frames
  obtain ⟨page, owned, zero⟩ := mem_map.mp (frames.mem_iff.mpr mem_cons_self)
  exact conserved.framed page owned zero

end UserMmap
end Nagi.Kernel
