import Nagi.Kernel.UserMmap.Effects

/-! Reservations count the pages that they own. -/

namespace Nagi.Kernel.UserMmap

open Function List

section
variable {window : Window}

def owned (window : Window) (owners : Nat → Nat) (slot : Nat) : Nat :=
  (range window.pages).countP (owners · = slot + 1)

/-- Each reservation has the number of its pages; a slot without pages is empty. -/
structure Counted (window : Window) (owners : Nat → Nat) (reservations : Nat → Option Nat) : Prop where
  counts : ∀ slot < window.maxReservations,
    reservations slot = if owned window owners slot = 0 then none else some (owned window owners slot)
  bounded : ∀ page < window.pages, owners page ≤ window.maxReservations

variable {startPage pageCount : Nat}

theorem range_split (inside : startPage + pageCount ≤ window.pages) :
    range window.pages = range' 0 startPage ++ range' startPage pageCount ++
      range' (startPage + pageCount) (window.pages - (startPage + pageCount)) := by
  rw [range_eq_range']
  have first := @range'_append 0 startPage pageCount 1
  have second := @range'_append 0 (startPage + pageCount) (window.pages - (startPage + pageCount)) 1
  simp only [Nat.one_mul, Nat.zero_add] at first second
  rw [first, second]
  congr 1
  omega

theorem countP_fill (owners : Nat → Nat) (inside : startPage + pageCount ≤ window.pages) (owner target : Nat) :
    (range window.pages).countP (fill owners startPage pageCount owner · = target) +
        (range' startPage pageCount).countP (owners · = target) =
      (range window.pages).countP (owners · = target) + if owner = target then pageCount else 0 := by
  have outside (first count : Nat) (apart : first + count ≤ startPage ∨ startPage + pageCount ≤ first) :
      (range' first count).countP (fill owners startPage pageCount owner · = target) =
        (range' first count).countP (owners · = target) := by
    apply countP_congr
    intro page member
    have range := mem_range'_1.mp member
    rw [fill, if_neg (by omega)]
  have within : (range' startPage pageCount).countP (fill owners startPage pageCount owner · = target) =
      if owner = target then pageCount else 0 := by
    have same : (range' startPage pageCount).countP (fill owners startPage pageCount owner · = target) =
        (range' startPage pageCount).countP fun _ => owner = target := by
      apply countP_congr
      intro page member
      rw [fill, if_pos (mem_range'_1.mp member)]
    rw [same]
    split_ifs with here
    · simp [here]
    · simp [here]
  rw [range_split inside, countP_append, countP_append, countP_append, countP_append, within,
    outside 0 startPage (by omega), outside (startPage + pageCount) _ (by omega)]
  omega

theorem Counted.reservation {owners : Nat → Nat} {reservations : Nat → Option Nat}
    (counted : Counted window owners reservations) {page : Nat} (inside : page < window.pages)
    (nonzero : owners page ≠ 0) :
    owners page - 1 < window.maxReservations ∧
      reservations (owners page - 1) = some (owned window owners (owners page - 1)) ∧
      owned window owners (owners page - 1) ≠ 0 := by
  have bound := counted.bounded page inside
  have slot : owners page - 1 < window.maxReservations := by omega
  have positive : owned window owners (owners page - 1) ≠ 0 := by
    apply Nat.ne_of_gt
    apply countP_pos_iff.mpr
    refine ⟨page, mem_range.mpr inside, decide_eq_true ?_⟩
    omega
  refine ⟨slot, ?_, positive⟩
  rw [counted.counts _ slot, if_neg positive]

variable {released : Nat → Nat} {storage : Storage}

theorem countReleased_eq {page live : Nat} (nonzero : storage.owners page ≠ 0)
    (known : reservation window storage (storage.owners page - 1) = some live)
    (enough : released (storage.owners page - 1) + 1 ≤ live) :
    countReleased window storage released page =
      some (update released (storage.owners page - 1) (released (storage.owners page - 1) + 1)) := by
  have fits : ¬update released (storage.owners page - 1) (released (storage.owners page - 1) + 1)
      (storage.owners page - 1) > live := by
    rw [update_self]
    exact Nat.not_lt.mpr enough
  simp only [countReleased, if_neg nonzero, known, Option.bind_eq_bind, Option.bind_some, if_neg fits]

theorem foldlM_countReleased {pages : List Nat} (each : ∀ page ∈ pages, storage.owners page ≠ 0 ∧ ∃ live,
      reservation window storage (storage.owners page - 1) = some live ∧
        released (storage.owners page - 1) + pages.countP (storage.owners · = storage.owners page) ≤ live) :
    pages.foldlM (countReleased window storage) released =
      some fun slot => released slot + pages.countP (storage.owners · = slot + 1) := by
  induction pages generalizing released with
  | nil => rfl
  | cons page rest ih =>
    obtain ⟨nonzero, live, known, enough⟩ := each page mem_cons_self
    have self : (page :: rest).countP (storage.owners · = storage.owners page) =
        rest.countP (storage.owners · = storage.owners page) + 1 := by
      rw [countP_cons, if_pos (decide_eq_true rfl)]
    rw [foldlM_cons, countReleased_eq nonzero known (by omega)]
    show foldlM (countReleased window storage) (update released (storage.owners page - 1)
      (released (storage.owners page - 1) + 1)) rest = _
    rw [ih]
    · congr 1
      funext slot
      by_cases here : slot = storage.owners page - 1
      · have same : storage.owners page = slot + 1 := by omega
        rw [← here, update_self, countP_cons, if_pos (decide_eq_true same)]
        omega
      · have distinct : ¬storage.owners page = slot + 1 := by omega
        rw [update_of_ne here, countP_cons, if_neg (by simpa using distinct)]
        rfl
    · intro other member
      obtain ⟨nonzero', live', known', enough'⟩ := each other (mem_cons_of_mem _ member)
      refine ⟨nonzero', live', known', ?_⟩
      by_cases here : storage.owners other - 1 = storage.owners page - 1
      · have same : storage.owners other = storage.owners page := by omega
        rw [same, self] at enough'
        rw [here, update_self, same]
        omega
      · have fewer : rest.countP (storage.owners · = storage.owners other) ≤
            (page :: rest).countP (storage.owners · = storage.owners other) := by
          rw [countP_cons]
          omega
        rw [update_of_ne here]
        omega

def leftOf (released : Nat) (live : Nat) : Option Nat := if live - released = 0 then none else some (live - released)

theorem settleReleased_eq {slots : List Nat} (distinct : slots.Nodup) {reservations : Nat → Option Nat}
    (known : ∀ slot ∈ slots, released slot ≠ 0 → (reservations slot).isSome) :
    settleReleased released slots reservations = (true, fun slot =>
      if slot ∈ slots ∧ released slot ≠ 0 then (reservations slot).bind (leftOf (released slot))
      else reservations slot) := by
  induction slots generalizing reservations with
  | nil => simp [settleReleased]
  | cons slot rest ih =>
    obtain ⟨fresh, distinct⟩ := nodup_cons.mp distinct
    unfold settleReleased
    by_cases none : released slot = 0
    · rw [if_pos none, ih distinct fun other member => known other (mem_cons_of_mem _ member)]
      congr 1
      funext other
      by_cases here : other = slot
      · simp [here, none, fresh]
      · simp [here]
    · rw [if_neg none]
      obtain ⟨live, some⟩ := Option.isSome_iff_exists.mp (known slot mem_cons_self none)
      simp only [some]
      rw [ih distinct]
      · congr 1
        funext other
        by_cases here : other = slot
        · simp [here, none, fresh, some, leftOf]
        · simp [here]
      · intro other member positive
        have apart : other ≠ slot := fun same => fresh (same ▸ member)
        rw [update_of_ne apart]
        exact known other (mem_cons_of_mem _ member) positive

theorem releaseMmapRangeOwners_eq
    (counted : Counted window storage.owners storage.reservations) (positive : 0 < pageCount)
    (inside : startPage + pageCount ≤ window.pages)
    (held : ∀ page, startPage ≤ page → page < startPage + pageCount → storage.owners page ≠ 0) :
    ∃ reservations, releaseMmapRangeOwners window storage startPage pageCount =
        (true, { storage with owners := fill storage.owners startPage pageCount 0, reservations := reservations }) ∧
      Counted window (fill storage.owners startPage pageCount 0) reservations := by
  -- the pages of the range that a slot owns
  let released (slot : Nat) : Nat := (range' startPage pageCount).countP (storage.owners · = slot + 1)
  have rest (slot : Nat) : owned window (fill storage.owners startPage pageCount 0) slot + released slot =
      owned window storage.owners slot := by
    have filled := countP_fill storage.owners inside 0 (slot + 1)
    exact filled
  have counting : (range' startPage pageCount).foldlM (countReleased window storage) (fun _ => 0) = some released := by
    rw [foldlM_countReleased]
    · congr 1
      funext slot
      exact Nat.zero_add _
    intro page member
    have range := mem_range'_1.mp member
    have nonzero := held page range.1 range.2
    obtain ⟨slot, known, _⟩ := counted.reservation (Nat.lt_of_lt_of_le range.2 inside) nonzero
    refine ⟨nonzero, _, by rw [reservation, if_pos slot]; exact known, ?_⟩
    have part := rest (storage.owners page - 1)
    have same : released (storage.owners page - 1) =
        (range' startPage pageCount).countP (storage.owners · = storage.owners page) := by
      rw [← Nat.sub_add_cancel (Nat.one_le_iff_ne_zero.mpr nonzero)]
      rfl
    omega
  have settling := @settleReleased_eq released (range window.maxReservations) nodup_range storage.reservations (by
    intro slot member some
    have part := rest slot
    rw [counted.counts slot (mem_range.mp member), if_neg (by omega)]
    rfl)
  refine ⟨fun slot => if slot ∈ range window.maxReservations ∧ released slot ≠ 0
    then (storage.reservations slot).bind (leftOf (released slot)) else storage.reservations slot, ?_, ?_⟩
  · unfold releaseMmapRangeOwners
    rw [if_neg (by omega), counting]
    dsimp only
    rw [settling]
  · constructor
    · intro slot within
      have part := rest slot
      have count := counted.counts slot within
      by_cases none : released slot = 0
      · simp only [none, ne_eq, not_true, and_false, if_false]
        rw [count]
        congr 1 <;> simp only [← part, none, Nat.add_zero]
      have some : owned window storage.owners slot ≠ 0 := by omega
      rw [if_neg some] at count
      simp only [mem_range, within, none, ne_eq, not_false_eq_true, and_self, if_true, count, Option.bind_some,
        leftOf]
      have left : owned window storage.owners slot - released slot =
          owned window (fill storage.owners startPage pageCount 0) slot := by omega
      rw [left]
    · intro page within
      unfold fill
      split_ifs
      · exact Nat.zero_le _
      · exact counted.bounded page within

theorem Counted.registered {owners : Nat → Nat} {reservations : Nat → Option Nat}
    (counted : Counted window owners reservations) {slot : Nat} (within : slot < window.maxReservations)
    (empty : reservations slot = none) (positive : 0 < pageCount) (inside : startPage + pageCount ≤ window.pages)
    (free : ∀ page, startPage ≤ page → page < startPage + pageCount → owners page = 0) :
    Counted window (fill owners startPage pageCount (slot + 1)) (update reservations slot (some pageCount)) := by
  have grown (other : Nat) : owned window (fill owners startPage pageCount (slot + 1)) other =
      owned window owners other + if slot = other then pageCount else 0 := by
    have filled := countP_fill owners inside (slot + 1) (other + 1)
    have nothing : (range' startPage pageCount).countP (owners · = other + 1) = 0 := by
      apply countP_eq_zero.mpr
      intro page member
      have range := mem_range'_1.mp member
      rw [free page range.1 range.2]
      simp
    rw [nothing, Nat.add_zero] at filled
    simpa only [owned, Nat.add_right_cancel_iff] using filled
  constructor
  · intro other bound
    rw [grown]
    by_cases here : other = slot
    · subst here
      have none : owned window owners other = 0 := by
        have count := counted.counts other within
        rw [empty] at count
        by_contra some
        rw [if_neg some] at count
        cases count
      rw [update_self, none, if_pos rfl, Nat.zero_add, if_neg (by omega)]
    · rw [update_of_ne here, if_neg (Ne.symm here), Nat.add_zero]
      exact counted.counts other bound
  · intro page bound
    unfold fill
    split_ifs
    · exact within
    · exact counted.bounded page bound

theorem counted_cleared : Counted window (fun _ => 0) fun _ => none where
  counts slot _ := by
    rw [if_pos]
    apply countP_eq_zero.mpr
    simp
  bounded _ _ := Nat.zero_le _

end
end Nagi.Kernel.UserMmap
