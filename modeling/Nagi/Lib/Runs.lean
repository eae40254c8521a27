import Mathlib.Data.List.Induction
import Mathlib.Logic.Relation

/-! Runs of a deterministic machine whose steps return a result.

`run` is the state a list of actions leads to and `trace` the events on the way. -/

namespace Nagi.Lib

open List

structure Event (S A R : Type) where
  before : S
  action : A
  result : R
  after : S

namespace Runs

section
variable {S A R : Type} (step : S → A → R × S)

def run : S → List A → S
  | state, [] => state
  | state, action :: rest => run (step state action).2 rest

def event (state : S) (action : A) : Event S A R :=
  ⟨state, action, (step state action).1, (step state action).2⟩

def trace : S → List A → List (Event S A R)
  | _, [] => []
  | state, action :: rest => event step state action :: trace (step state action).2 rest

def Always (P : S → Prop) : S → List A → Prop
  | state, [] => P state
  | state, action :: rest => P state ∧ Always P (step state action).2 rest

def EachStep (C : S → A → Prop) : S → List A → Prop
  | _, [] => True
  | state, action :: rest => C state action ∧ EachStep C (step state action).2 rest

theorem run_append (state : S) (earlier later : List A) :
    run step state (earlier ++ later) = run step (run step state earlier) later := by
  induction earlier generalizing state with
  | nil => rfl
  | cons action rest ih => exact ih (step state action).2

theorem eachStep_append {C : S → A → Prop} {state : S} (earlier later : List A) :
    EachStep step C state (earlier ++ later) ↔
      EachStep step C state earlier ∧ EachStep step C (run step state earlier) later := by
  induction earlier generalizing state with
  | nil => exact (iff_of_eq (true_and _)).symm
  | cons action rest ih => exact (and_congr_right fun _ => ih).trans (and_assoc.symm)

theorem trace_append (state : S) (earlier later : List A) :
    trace step state (earlier ++ later) = trace step state earlier ++ trace step (run step state earlier) later := by
  induction earlier generalizing state with
  | nil => rfl
  | cons action rest ih => exact congrArg _ (ih (step state action).2)

variable {step}

variable {P : S → Prop} {state : S}

theorem run_invariant (keeps : ∀ state action, P state → P (step state action).2) (start : P state) (actions : List A) :
    P (run step state actions) := by
  induction actions generalizing state with
  | nil => exact start
  | cons action rest ih => exact ih (keeps state action start)

variable {I : S → Prop}

theorem run_invariant_under (invariant : ∀ state action, I state → I (step state action).2)
    (keeps : ∀ state action, I state → P state → P (step state action).2) (start : I state) (holds : P state)
    (actions : List A) : P (run step state actions) := by
  induction actions generalizing state with
  | nil => exact holds
  | cons action rest ih => exact ih (invariant state action start) (keeps state action start holds)

section
variable {P : S → List (Event S A R) → Prop}
  (keeps : ∀ state past action, P state past → P (step state action).2 (past ++ [event step state action]))
include keeps

theorem trace_invariant_from {past : List (Event S A R)} (start : P state past) (actions : List A) :
    P (run step state actions) (past ++ trace step state actions) := by
  induction actions generalizing state past with
  | nil =>
    rw [trace, append_nil]
    exact start
  | cons action rest ih =>
    have later := ih (keeps state past action start)
    rw [append_assoc] at later
    exact later

theorem trace_invariant
    (start : P state []) (actions : List A) : P (run step state actions) (trace step state actions) :=
  trace_invariant_from keeps start actions

end

section
variable (invariant : ∀ state action, I state → I (step state action).2)
include invariant

/-- A property of each event of a run, shown for a step from a state that meets an invariant. -/
theorem forall_event {Q : Event S A R → Prop}
    (each : ∀ state action, I state → Q (event step state action)) (start : I state) (actions : List A) :
    ∀ event ∈ trace step state actions, Q event := by
  induction actions generalizing state with
  | nil => exact nofun
  | cons action rest ih =>
    intro event member
    rcases mem_cons.mp member with rfl | later
    · exact each state action start
    · exact ih (invariant state action start) event later

/-- What an event leaves behind in all later states relates it to all later events. -/
theorem trace_pairwise {Q : Event S A R → S → Prop} {T : Event S A R → Event S A R → Prop}
    (leaves : ∀ state action, I state → Q (event step state action) (step state action).2)
    (keeps : ∀ earlier state action, I state → Q earlier state → Q earlier (step state action).2)
    (relates : ∀ earlier state action, I state → Q earlier state → T earlier (event step state action))
    (start : I state) (actions : List A) : (trace step state actions).Pairwise T := by
  have later : ∀ earlier state actions, I state → Q earlier state →
      ∀ event ∈ trace step state actions, T earlier event := by
    intro earlier state actions
    induction actions generalizing state with
    | nil => exact fun _ _ event member => absurd member not_mem_nil
    | cons action rest ih =>
      intro holds left event member
      rcases mem_cons.mp member with rfl | further
      · exact relates earlier state action holds left
      · exact ih _ (invariant state action holds) (keeps earlier state action holds left) event further
  induction actions generalizing state with
  | nil => exact .nil
  | cons action rest ih =>
    refine .cons ?_ (ih (invariant state action start))
    exact later _ _ rest (invariant state action start) (leaves state action start)

end

variable {actions : List A}

theorem Always.first (always : Always step P state actions) : P state := by
  cases actions with
  | nil => exact always
  | cons _ _ => exact always.1

theorem Always.last (always : Always step P state actions) : P (run step state actions) := by
  induction actions generalizing state with
  | nil => exact always
  | cons _ _ ih => exact ih always.2

theorem always_of_prefixes (holds : ∀ n ≤ actions.length, P (run step state (actions.take n))) :
    Always step P state actions := by
  induction actions generalizing state with
  | nil => exact holds 0 (Nat.le_refl 0)
  | cons _ _ ih =>
    exact ⟨holds 0 (Nat.zero_le _), ih fun n within => holds (n + 1) (Nat.succ_le_succ within)⟩

/-- The rule for properties that hold only as long as the steps behave. -/
theorem always_iff {C : S → A → Prop} (invariant : ∀ state action, I state → I (step state action).2)
    (keeps : ∀ state action, I state → P state → (P (step state action).2 ↔ C state action)) (start : I state)
    (holds : P state) (actions : List A) : Always step P state actions ↔ EachStep step C state actions := by
  induction actions generalizing state with
  | nil => simpa [Always, EachStep] using holds
  | cons action rest ih =>
    simp only [Always, EachStep, holds, true_and, ← keeps state action start holds]
    constructor
    · intro always
      exact ⟨always.first, (ih (invariant state action start) always.first).mp always⟩
    · rintro ⟨next, each⟩
      exact (ih (invariant state action start) next).mpr each

/-- Some action met `P` when it was taken, and every action since meets `Q`. -/
def Since (P : List A → A → Prop) (Q : A → Prop) (actions : List A) : Prop :=
  ∃ earlier action later, actions = earlier ++ action :: later ∧ P earlier action ∧ ∀ other ∈ later, Q other

variable {Q : A → Prop}

theorem not_since_nil {P : List A → A → Prop} : ¬Since P Q [] := by
  rintro ⟨earlier, action, later, split, _⟩
  simp at split

theorem since_concat {P : List A → A → Prop} {action : A} :
    Since P Q (actions ++ [action]) ↔ P actions action ∨ Since P Q actions ∧ Q action := by
  constructor
  · rintro ⟨earlier, first, later, split, met, since⟩
    rcases eq_nil_or_concat later with rfl | ⟨middle, last, rfl⟩
    · obtain ⟨rfl, same⟩ := append_inj' split rfl
      cases same
      exact .inl met
    · rw [concat_eq_append] at split since
      rw [← cons_append, ← append_assoc] at split
      obtain ⟨rfl, same⟩ := append_inj' split rfl
      cases same
      refine .inr ⟨⟨earlier, first, middle, rfl, met, fun other member => ?_⟩, ?_⟩
      · exact since other (mem_append_left _ member)
      · exact since _ (mem_append_right _ mem_cons_self)
  · rintro (met | ⟨⟨earlier, first, later, rfl, met, since⟩, last⟩)
    · exact ⟨actions, action, [], rfl, met, nofun⟩
    · refine ⟨earlier, first, later ++ [action], by simp, met, fun other member => ?_⟩
      rcases mem_append.mp member with before | here
      · exact since other before
      · rw [mem_singleton.mp here]
        exact last

theorem Since.append {P : List A → A → Prop} (since : Since P Q actions) {later : List A}
    (still : ∀ action ∈ later, Q action) : Since P Q (actions ++ later) := by
  obtain ⟨earlier, action, between, rfl, met, rest⟩ := since
  exact ⟨earlier, action, between ++ later, by simp, met, forall_mem_append.mpr ⟨rest, still⟩⟩

theorem Since.prepend {P : A → Prop} (since : Since (fun _ => P) Q actions) (before : List A) :
    Since (fun _ => P) Q (before ++ actions) := by
  obtain ⟨earlier, action, later, rfl, met, rest⟩ := since
  exact ⟨before ++ earlier, action, later, by simp, met, rest⟩

/-- Two conditions that both end with `Q` were met at the same action. -/
theorem Since.unique {P P' : List A → A → Prop} (first : Since P Q actions) (second : Since P' Q actions)
    (ends : ∀ earlier action, P earlier action → ¬Q action)
    (ends' : ∀ earlier action, P' earlier action → ¬Q action) :
    ∃ earlier action, P earlier action ∧ P' earlier action := by
  induction actions using reverseRecOn with
  | nil => exact absurd first not_since_nil
  | append_singleton actions action ih =>
    obtain met | ⟨first, still⟩ := since_concat.mp first
    · obtain met' | ⟨-, still⟩ := since_concat.mp second
      · exact ⟨actions, action, met, met'⟩
      · exact absurd still (ends _ _ met)
    · obtain met' | ⟨second, -⟩ := since_concat.mp second
      · exact absurd still (ends' _ _ met')
      · exact ih first second

/-- A property of the state that some actions establish and some destroy says what
has happened since. -/
theorem since_iff {H : S → Prop} {P : S → A → Prop} (invariant : ∀ state action, I state → I (step state action).2)
    (tracks : ∀ state action, I state → (H (step state action).2 ↔ P state action ∨ H state ∧ Q action))
    (start : I state) (absent : ¬H state) (actions : List A) :
    H (run step state actions) ↔ Since (fun earlier => P (run step state earlier)) Q actions := by
  induction actions using reverseRecOn with
  | nil => exact iff_of_false absent not_since_nil
  | append_singleton actions action ih =>
    rw [run_append, since_concat, ← ih]
    exact tracks _ action (run_invariant invariant start actions)

end

theorem chain_invariant {S : Type} {link : S → S → Prop} {P : S → Prop}
    (keeps : ∀ before after, link before after → P before → P after) {before after : S}
    (chain : Relation.ReflTransGen link before after) (start : P before) : P after := by
  induction chain with
  | refl => exact start
  | tail _ last ih => exact keeps _ _ last ih

end Runs
end Nagi.Lib
