import Mathlib.Logic.Function.Basic

/-! Who waits for what.

A waiter waits for at most one source. It may start to wait, give up, or be
woken together with everyone who waits for the same source. -/

namespace Nagi.Lib

open Function

variable {T S : Type}

/-- The source each waiter waits for, if it waits. -/
abbrev WaitMap (T S : Type) := T → Option S

namespace WaitMap

section
variable [DecidableEq T] (waits : WaitMap T S)

def block (waiter : T) (source : S) : WaitMap T S := update waits waiter (some source)

def release (waiter : T) : WaitMap T S := update waits waiter none

variable {waits} {waiter other : T} {source found : S}

theorem block_eq_some : waits.block waiter source other = some found ↔
    other = waiter ∧ found = source ∨ other ≠ waiter ∧ waits other = some found := by
  by_cases here : other = waiter
  · subst here
    simp [block, eq_comm]
  · simp [block, here]

theorem isSome_block : (waits.block waiter source other).isSome = true ↔
    other = waiter ∨ (waits other).isSome = true := by
  by_cases here : other = waiter
  · subst here
    simp [block]
  · simp [block, here]

theorem release_eq_some : waits.release waiter other = some found ↔ other ≠ waiter ∧ waits other = some found := by
  by_cases here : other = waiter
  · subst here
    simp [release]
  · simp [release, here]

theorem isSome_release : (waits.release waiter other).isSome = true ↔
    other ≠ waiter ∧ (waits other).isSome = true := by
  by_cases here : other = waiter
  · subst here
    simp [release]
  · simp [release, here]

theorem release_block (source : S) (idle : waits waiter = none) :
    (waits.block waiter source).release waiter = waits := by
  unfold block release
  rw [update_idem, ← idle, update_eq_self]

end

section
variable [DecidableEq S]

def wake (waits : WaitMap T S) (source : S) : WaitMap T S :=
  fun waiter => if waits waiter = some source then none else waits waiter

variable {waits : WaitMap T S} {other : T} {source found : S}

theorem wake_eq_some : waits.wake source other = some found ↔ waits other = some found ∧ found ≠ source := by
  unfold wake
  split
  · next here =>
    rw [here]
    constructor
    · nofun
    · rintro ⟨⟨⟩, different⟩
      exact absurd rfl different
  · next elsewhere =>
    constructor
    · intro there
      refine ⟨there, ?_⟩
      rintro rfl
      exact elsewhere there
    · exact And.left

theorem isSome_wake : (waits.wake source other).isSome = true ↔
    (waits other).isSome = true ∧ waits other ≠ some source := by
  unfold wake
  split
  · next here => simp [here]
  · next elsewhere => simp [elsewhere]

end

end WaitMap
end Nagi.Lib
