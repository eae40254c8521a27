import Mathlib.Algebra.Group.Fin.Basic
import Mathlib.Algebra.Group.Units.Equiv
import Mathlib.Algebra.GroupWithZero.Nat
import Mathlib.Data.List.FinRange

/-! Bounded ring buffers and the lists they stand for.

A ring is an array of optional cells with a head, a tail and a length, and the
fact that there is a list which it stands for. -/

namespace Nagi.Lib

open Function List

variable {α : Type} {n : Nat} [NeZero n]

/-- Reading `n` cells onward from the head gives the contents and then only
empty cells, and the tail is the first cell after the contents. -/
structure RingHolds (entries : Fin n → Option α) (head tail : Fin n) (length : Nat)
    (contents : List α) : Prop where
  length_eq : length = contents.length
  bound : contents.length ≤ n
  tail_eq : tail = head + Fin.ofNat n contents.length
  cells : ∀ k : Fin n, entries (head + k) = contents[k.val]?

structure Ring (α : Type) (n : Nat) [NeZero n] where
  entries : Fin n → Option α
  head : Fin n
  tail : Fin n
  length : Nat
  holds : ∃ contents, RingHolds entries head tail length contents

namespace RingHolds
variable {entries : Fin n → Option α} {head tail : Fin n} {length : Nat} {contents : List α}

theorem nil (head : Fin n) : RingHolds (fun _ => none : Fin n → Option α) head head 0 [] where
  length_eq := rfl
  bound := Nat.zero_le n
  tail_eq := by simp
  cells := by simp

theorem push (holds : RingHolds entries head tail length contents) (room : length ≠ n) (value : α) :
    RingHolds (update entries tail (some value)) head (tail + 1) (length + 1) (contents ++ [value]) where
  length_eq := by simp [holds.length_eq]
  bound := by
    have := holds.length_eq
    have := holds.bound
    simp only [length_append, length_singleton]
    omega
  tail_eq := by
    rw [holds.tail_eq, add_assoc]
    ext
    simp [Fin.val_add]
  cells := by
    intro k
    have small : contents.length < n := by
      have := holds.length_eq
      have := holds.bound
      omega
    have position : head + k = tail ↔ k.val = contents.length := by
      rw [holds.tail_eq, add_right_inj, Fin.ext_iff, Fin.val_ofNat, Nat.mod_eq_of_lt small]
    by_cases last : k.val = contents.length
    · rw [position.mpr last, update_self, last, getElem?_concat_length]
    · rw [update_of_ne (mt position.mp last), holds.cells k]
      by_cases early : k.val < contents.length
      · rw [getElem?_append_left early]
      · rw [getElem?_eq_none (by omega), getElem?_eq_none (by simp; omega)]

theorem head_eq (holds : RingHolds entries head tail length contents) :
    entries head = contents.head? := by
  have first := holds.cells 0
  rw [add_zero] at first
  rw [first, head?_eq_getElem?]
  rfl

theorem pop {value : α} (holds : RingHolds entries head tail length (value :: contents)) :
    RingHolds (update entries head none) (head + 1) tail (length - 1) contents where
  length_eq := by simp [holds.length_eq]
  bound := by
    have := holds.bound
    simp only [length_cons] at this
    omega
  tail_eq := by
    rw [holds.tail_eq, add_assoc]
    ext
    simp [Fin.val_add, Nat.add_comm]
  cells := by
    intro k
    have bound := holds.bound
    rw [length_cons] at bound
    rw [add_assoc]
    have one : (1 : Fin n).val = 1 % n := rfl
    by_cases wraps : k.val + 1 < n
    · have next : (1 + k : Fin n).val = k.val + 1 := by
        rw [Fin.val_add, one, Nat.mod_add_mod, Nat.mod_eq_of_lt (by omega), Nat.add_comm]
      have other : head + (1 + k) ≠ head := by
        intro same
        have zero := congrArg Fin.val (left_eq_add.mp same.symm)
        rw [next] at zero
        simp at zero
      rw [update_of_ne other, holds.cells, next, getElem?_cons_succ]
    · have closes : (1 + k : Fin n) = 0 := by
        ext
        rw [Fin.val_add, one, Nat.mod_add_mod]
        have full : 1 + k.val = n := by have := k.isLt; omega
        simp [full]
      rw [closes, add_zero, update_self, getElem?_eq_none (by have := k.isLt; omega)]

theorem modifyHead (holds : RingHolds entries head tail length contents) (change : α → α) :
    RingHolds (update entries head ((entries head).map change)) head tail length (contents.modifyHead change) where
  length_eq := by simp [holds.length_eq]
  bound := by simpa using holds.bound
  tail_eq := by simpa using holds.tail_eq
  cells := by
    intro k
    by_cases first : k = 0
    · subst first
      rw [add_zero, update_self, holds.head_eq]
      cases contents <;> simp
    have other : head + k ≠ head := fun same => first (left_eq_add.mp same.symm)
    rw [update_of_ne other, holds.cells]
    have positive : k.val ≠ 0 := fun zero => first (Fin.ext (by simpa using zero))
    cases contents with
    | nil => simp
    | cons first rest =>
      obtain ⟨m, same⟩ := Nat.exists_eq_succ_of_ne_zero positive
      simp [same]

theorem scan_eq {m : Nat} {contents : List α} (bound : contents.length ≤ m) :
    (finRange m).filterMap (fun k => contents[k.val]?) = contents := by
  induction m generalizing contents with
  | zero => simpa using (eq_nil_of_length_eq_zero (by omega)).symm
  | succ m ih =>
    rw [finRange_succ, filterMap_cons, filterMap_map]
    cases contents with
    | nil => simp
    | cons first rest =>
      have short : rest.length ≤ m := by simpa using bound
      simpa [comp_def] using ih short

theorem toList_eq (holds : RingHolds entries head tail length contents) :
    (finRange n).filterMap (fun k => entries (head + k)) = contents := by
  simp only [holds.cells]
  exact scan_eq holds.bound

end RingHolds

namespace Ring

def empty : Ring α n := ⟨fun _ => none, 0, 0, 0, [], .nil 0⟩

variable (ring : Ring α n)

def toList : List α :=
  (finRange n).filterMap fun k => ring.entries (ring.head + k)

theorem holds_toList : RingHolds ring.entries ring.head ring.tail ring.length ring.toList := by
  obtain ⟨contents, holds⟩ := ring.holds
  rw [toList, holds.toList_eq]
  exact holds

@[simp] theorem toList_empty : (empty : Ring α n).toList = [] :=
  (RingHolds.nil 0).toList_eq

theorem length_toList : ring.toList.length = ring.length :=
  ring.holds_toList.length_eq.symm

theorem length_toList_le : ring.toList.length ≤ n :=
  ring.holds_toList.bound

def push (ring : Ring α n) (value : α) : Option (Ring α n) :=
  if room : ring.length = n then none
  else some {
    entries := update ring.entries ring.tail (some value)
    head := ring.head
    tail := ring.tail + 1
    length := ring.length + 1
    holds := ⟨ring.toList ++ [value], ring.holds_toList.push room value⟩ }

variable {ring : Ring α n} {value : α}

theorem push_eq_none : ring.push value = none ↔ ring.length = n := by
  unfold push
  split <;> simp_all

theorem toList_push {next : Ring α n} (pushed : ring.push value = some next) :
    next.toList = ring.toList ++ [value] := by
  unfold push at pushed
  split at pushed
  · cases pushed
  · next room =>
    cases pushed
    exact (ring.holds_toList.push room value).toList_eq

def peek (ring : Ring α n) : Option α := ring.entries ring.head

theorem peek_eq (ring : Ring α n) : ring.peek = ring.toList.head? :=
  ring.holds_toList.head_eq

theorem toList_cons_of_peek (found : ring.entries ring.head = some value) :
    ring.toList = value :: ring.toList.tail := by
  have first : ring.toList.head? = some value := ring.peek_eq ▸ found
  cases contents : ring.toList with
  | nil => simp [contents] at first
  | cons head rest => simp_all

def modifyHead (ring : Ring α n) (change : α → α) : Ring α n where
  entries := update ring.entries ring.head ((ring.entries ring.head).map change)
  head := ring.head
  tail := ring.tail
  length := ring.length
  holds := ⟨_, ring.holds_toList.modifyHead change⟩

@[simp] theorem toList_modifyHead (ring : Ring α n) (change : α → α) :
    (ring.modifyHead change).toList = ring.toList.modifyHead change :=
  (ring.holds_toList.modifyHead change).toList_eq

def pop (ring : Ring α n) : Option (α × Ring α n) :=
  match found : ring.entries ring.head with
  | none => none
  | some value => some (value, {
      entries := update ring.entries ring.head none
      head := ring.head + 1
      tail := ring.tail
      length := ring.length - 1
      holds := ⟨ring.toList.tail, RingHolds.pop (toList_cons_of_peek found ▸ ring.holds_toList)⟩ })

theorem toList_pop {next : Ring α n} (popped : ring.pop = some (value, next)) :
    ring.toList = value :: next.toList := by
  unfold pop at popped
  split at popped
  · cases popped
  next found =>
  cases popped
  have contents := toList_cons_of_peek found
  rw [contents]
  exact congrArg _ (RingHolds.pop (contents ▸ ring.holds_toList)).toList_eq.symm

theorem pop_eq_none : ring.pop = none ↔ ring.toList = [] := by
  rw [← head?_eq_none_iff, ← peek_eq]
  unfold pop peek
  split <;> simp_all

theorem exists_pop {rest : List α} (contents : ring.toList = value :: rest) :
    ∃ next, ring.pop = some (value, next) ∧ next.toList = rest := by
  cases popped : ring.pop with
  | none => rw [pop_eq_none, contents] at popped; cases popped
  | some result =>
    obtain ⟨first, next⟩ := result
    have same := toList_pop popped
    rw [contents, cons.injEq] at same
    exact ⟨next, by rw [same.1], same.2.symm⟩

def popAll : Nat → Ring α n → List α × Ring α n
  | 0, ring => ([], ring)
  | fuel + 1, ring =>
    match ring.pop with
    | none => ([], ring)
    | some (value, next) => (value :: (popAll fuel next).1, (popAll fuel next).2)

theorem popAll_spec (fuel : Nat) (ring : Ring α n) (enough : ring.toList.length ≤ fuel) :
    (popAll fuel ring).1 = ring.toList ∧ (popAll fuel ring).2.toList = [] := by
  induction fuel generalizing ring with
  | zero =>
    have nothing : ring.toList = [] := eq_nil_of_length_eq_zero (by omega)
    exact ⟨nothing.symm, nothing⟩
  | succ fuel ih =>
    unfold popAll
    cases popped : ring.pop with
    | none =>
      have nothing := pop_eq_none.mp popped
      exact ⟨nothing.symm, nothing⟩
    | some result =>
      obtain ⟨value, next⟩ := result
      have contents := toList_pop popped
      obtain ⟨values, final⟩ := ih next (by rw [contents] at enough; simpa using enough)
      exact ⟨by rw [contents]; exact congrArg _ values, final⟩

def scan (ring : Ring α n) : List α := (finRange n).filterMap ring.entries

/-- A scan of the array meets exactly the contents, rotated. -/
theorem scan_perm (ring : Ring α n) : ring.scan.Perm ring.toList := by
  have rotated := (Equiv.addLeft ring.head).map_finRange_perm.filterMap ring.entries
  rw [filterMap_map] at rotated
  exact rotated.symm

end Ring
end Nagi.Lib
