import Mathlib.Algebra.Group.Int.Defs
import Mathlib.Algebra.GroupWithZero.Nat
import Nagi.Lib.Checks

/-! Arithmetic on machine words.

A plain operation whose result does not fit stops the program, a checked one
gives nothing. -/

namespace Nagi.Lib

/-- What ends a computation early: an error it reports, or a panic. A loop that does not end is the third. -/
inductive Fault (ε : Type) where
  | error (reason : ε)
  | panicked
  | diverged
  deriving DecidableEq

/-- The faults that are errors of the computation, and not of its arithmetic. -/
def Fault.Reported {ε : Type} (fault : Fault ε) : Prop := ∃ reason, fault = .error reason

namespace Words

variable {ε α : Type} {m : Type → Type} [Monad m] [MonadExcept (Fault ε) m]

def add (width first second : Nat) : m Nat :=
  if first + second < 2 ^ width then pure (first + second) else throw .panicked

def sub (first second : Nat) : m Nat :=
  if second ≤ first then pure (first - second) else throw .panicked

def mul (width first second : Nat) : m Nat :=
  if first * second < 2 ^ width then pure (first * second) else throw .panicked

def i64 (value : Int) : m Int :=
  if -2 ^ 63 ≤ value ∧ value < 2 ^ 63 then pure value else throw .panicked

def checkedAdd (width first second : Nat) : Option Nat :=
  if first + second < 2 ^ width then some (first + second) else none

def checkedMul (width first second : Nat) : Option Nat :=
  if first * second < 2 ^ width then some (first * second) else none

def isPowerOfTwo (value : Nat) : Bool := 2 ^ value.log2 = value

def okOr (value : Option α) (reason : ε) : m α :=
  match value with
  | some value => pure value
  | none => throw (.error reason)

theorem add_bind [LawfulMonad m] {width first second : Nat} (fits : first + second < 2 ^ width) (next : Nat → m α) :
    (add width first second >>= next) = next (first + second) := by
  rw [add, if_pos fits, pure_bind]

theorem sub_bind [LawfulMonad m] {first second : Nat} (below : second ≤ first) (next : Nat → m α) :
    (sub first second >>= next) = next (first - second) := by
  rw [sub, if_pos below, pure_bind]

theorem mul_bind [LawfulMonad m] {width first second : Nat} (fits : first * second < 2 ^ width) (next : Nat → m α) :
    (mul width first second >>= next) = next (first * second) := by
  rw [mul, if_pos fits, pure_bind]

theorem i64_bind [LawfulMonad m] {value : Int} (fits : -2 ^ 63 ≤ value ∧ value < 2 ^ 63) (next : Int → m α) :
    (i64 value >>= next) = next value := by
  rw [i64, if_pos fits, pure_bind]

variable {width first second total : Nat}

theorem checkedAdd_eq_some_iff :
    checkedAdd width first second = some total ↔ first + second < 2 ^ width ∧ first + second = total := by
  simp [checkedAdd]

theorem checkedMul_eq_some_iff :
    checkedMul width first second = some total ↔ first * second < 2 ^ width ∧ first * second = total := by
  simp [checkedMul]

theorem toNat_and_not_add {width : Nat} (value low : BitVec width) :
    (value &&& ~~~low).toNat + (value &&& low).toNat = value.toNat := by
  have apart : (value &&& ~~~low) &&& (value &&& low) = 0 := by ext; simp; grind
  rw [← BitVec.toNat_add_of_and_eq_zero apart, BitVec.add_eq_or_of_and_eq_zero _ _ apart]
  congr 1; ext; simp; grind

theorem add_ok_iff :
    (add width first second : Except (Fault ε) Nat) = .ok total ↔
      first + second < 2 ^ width ∧ first + second = total := by
  unfold add
  split <;> simp [pure, Except.pure, throw, throwThe, MonadExceptOf.throw, *]

theorem okOr_ok_iff {value : Option α} {reason : ε} {result : α} :
    (okOr value reason : Except (Fault ε) α) = .ok result ↔ value = some result := by
  cases value <;> simp [okOr, pure, Except.pure, throw, throwThe, MonadExceptOf.throw]

theorem meets_add {width first second : Nat} (fits : first + second < 2 ^ width) :
    Checks.Meets Fault.Reported (fun sum => sum = first + second)
      (add width first second : Except (Fault ε) Nat) := by
  rw [add, if_pos fits]
  exact .ok rfl

theorem meets_sub {first second : Nat} (below : second ≤ first) :
    Checks.Meets Fault.Reported (fun rest => rest = first - second) (sub first second : Except (Fault ε) Nat) := by
  rw [sub, if_pos below]
  exact .ok rfl

theorem meets_okOr (value : Option α) (reason : ε) :
    Checks.Meets Fault.Reported (fun result => value = some result) (okOr value reason : Except (Fault ε) α) := by
  cases value with
  | none => exact .error ⟨reason, rfl⟩
  | some value => exact .ok rfl

end Words
end Nagi.Lib
