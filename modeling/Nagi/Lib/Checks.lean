import Mathlib.Data.List.Basic

/-! Checks that stop at the first failure.

A check goes through exactly if each of its parts does. `Meets` says what a check
establishes when it goes through, and that its failures are of an expected kind. -/

namespace Nagi.Lib

namespace Checks

variable {ε α β σ : Type}

theorem bind_ok_iff {check : Except ε α} {next : α → Except ε β} {result : β} :
    (check >>= next) = .ok result ↔ ∃ value, check = .ok value ∧ next value = .ok result := by
  cases check with
  | error error => exact ⟨nofun, fun ⟨_, done, _⟩ => nomatch done⟩
  | ok value => exact ⟨fun done => ⟨value, rfl, done⟩, fun ⟨_, same, done⟩ => Except.ok.inj same ▸ done⟩

theorem unit_bind_ok_iff {check : Except ε Unit} {next : Unit → Except ε β} {result : β} :
    (check >>= next) = .ok result ↔ check = .ok () ∧ next () = .ok result :=
  bind_ok_iff.trans ⟨fun ⟨_, done, rest⟩ => ⟨done, rest⟩, fun ⟨done, rest⟩ => ⟨(), done, rest⟩⟩

theorem mapError_ok_iff {check : Except ε α} {report : ε → β} {value : α} :
    check.mapError report = .ok value ↔ check = .ok value := by
  cases check <;> simp [Except.mapError]

theorem ok_bind (value : α) (next : α → Except ε β) : (Except.ok value >>= next) = next value := rfl

variable {result : α} {bad : Prop}

theorem unless_ok_iff [Decidable bad] {error : ε} {check : Except ε α} :
    (if bad then .error error else check) = .ok result ↔ ¬bad ∧ check = .ok result := by
  split
  · next isBad => exact ⟨nofun, fun both => absurd isBad both.1⟩
  · next isGood => exact ⟨fun done => ⟨isGood, done⟩, fun both => both.2⟩

theorem unless_bind_ok_iff [Decidable bad] {error : ε} {check : β → Except ε α} {next : Except ε α} :
    (if bad then (.error error : Except ε β) >>= check else next) = .ok result ↔ ¬bad ∧ next = .ok result :=
  unless_ok_iff

/-- A test in a sequence of steps that may give nothing. -/
theorem unless_bind_some_iff [Decidable bad] {check : β → Option α} {next : Option α} :
    (if bad then (none : Option β) >>= check else next) = some result ↔ ¬bad ∧ next = some result := by
  split
  · next isBad => exact ⟨nofun, fun both => absurd isBad both.1⟩
  · next isGood => exact ⟨fun done => ⟨isGood, done⟩, fun both => both.2⟩

/-- What a check may end with: a good failure, or a value that meets a condition. -/
structure Meets (Good : ε → Prop) (Post : α → Prop) (check : Except ε α) : Prop where
  failed : ∀ error, check = .error error → Good error
  passed : ∀ value, check = .ok value → Post value

namespace Meets

variable {Good : ε → Prop} {Mid : α → Prop} {Post : β → Prop} {check : Except ε α} {next : α → Except ε β}

theorem ok {value : α} (holds : Mid value) : Meets Good Mid (.ok value) where
  failed error same := by cases same
  passed other same := by
    cases same
    exact holds

theorem error {error : ε} (good : Good error) : Meets Good Mid (.error error) where
  failed other same := by
    cases same
    exact good
  passed value same := by cases same

theorem mono {Weak : α → Prop} (meets : Meets Good Mid check) (weaker : ∀ value, Mid value → Weak value) :
    Meets Good Weak check :=
  ⟨meets.failed, fun value done => weaker value (meets.passed value done)⟩

theorem self (meets : Meets Good Mid check) : Meets Good (fun value => check = .ok value) check :=
  ⟨meets.failed, fun _ done => done⟩

theorem bind (first : Meets Good Mid check) (rest : ∀ value, Mid value → Meets Good Post (next value)) :
    Meets Good Post (check >>= next) := by
  cases check with
  | error error => exact .error (first.failed error rfl)
  | ok value => exact rest value (first.passed value rfl)

theorem ite {bad : Prop} [Decidable bad] {error : ε} (good : Good error) (rest : ¬bad → Meets Good Mid check) :
    Meets Good Mid (if bad then .error error else check) := by
  split
  · exact .error good
  · next isGood => exact rest isGood

/-- A loop over the first numbers, with an invariant that speaks of how far it is. -/
theorem foldlM_range {step : σ → Nat → Except ε σ} {P : Nat → σ → Prop} {state : σ} (start : P 0 state) (count : Nat)
    (keeps : ∀ i < count, ∀ state, P i state → Meets Good (P (i + 1)) (step state i)) :
    Meets Good (P count) ((List.range count).foldlM step state) := by
  induction count with
  | zero => exact .ok start
  | succ count ih =>
    rw [List.range_succ, List.foldlM_append]
    refine (ih fun i below => keeps i (Nat.lt_succ_of_lt below)).bind fun middle holds => ?_
    have last := keeps count (Nat.lt_succ_self count) middle holds
    exact last.bind fun final done => .ok done

theorem forM {body : α → Except ε Unit} {Q : α → Prop} (items : List α)
    (each : ∀ item ∈ items, Meets Good (fun _ => Q item) (body item)) :
    Meets Good (fun _ => ∀ item ∈ items, Q item) (items.forM body) := by
  induction items with
  | nil => exact .ok (by simp)
  | cons item rest ih =>
    refine (each item List.mem_cons_self).bind fun _ here => ?_
    refine (ih fun other member => each other (List.mem_cons_of_mem _ member)).mono fun _ later => ?_
    exact List.forall_mem_cons.mpr ⟨here, later⟩

end Meets

theorem forM_ok_iff {check : α → Except ε Unit} (items : List α) :
    items.forM check = .ok () ↔ ∀ item ∈ items, check item = .ok () := by
  induction items with
  | nil => exact ⟨fun _ => nofun, fun _ => rfl⟩
  | cons item rest ih =>
    rw [List.forall_mem_cons, ← ih]
    exact unit_bind_ok_iff

end Checks

end Nagi.Lib
