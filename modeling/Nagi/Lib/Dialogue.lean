import Mathlib.Data.List.Basic

/-! Programs that talk to their surroundings.

A program keeps a record of what it asked and of what was answered; the answers may depend on the whole record. `Ends`
says what holds of the result and of the record at the end. -/

namespace Nagi.Lib

abbrev Dialogue (ρ ε α : Type) := ExceptT ε (StateM ρ) α

namespace Dialogue

variable {ρ ε δ α β : Type}

/-- Ask the surroundings, note the answer, and stop if it is an error. -/
def consult (answer : ρ → Except δ α) (note : Except δ α → ρ → ρ) (report : δ → ε) : Dialogue ρ ε α :=
  fun record => ((answer record).mapError report, note (answer record) record)

def check (outcome : Except ε α) : Dialogue ρ ε α := fun record => (outcome, record)

def reject (bad : Prop) [Decidable bad] (error : ε) : Dialogue ρ ε Unit :=
  check (if bad then .error error else .ok ())

structure Ends (program : Dialogue ρ ε α) (start : ρ) (Done : α → ρ → Prop) (Failed : ε → ρ → Prop) : Prop where
  done : ∀ value final, program start = (.ok value, final) → Done value final
  failed : ∀ error final, program start = (.error error, final) → Failed error final

namespace Ends

variable {program : Dialogue ρ ε α} {next : α → Dialogue ρ ε β} {start : ρ}
  {M : α → ρ → Prop} {Done : β → ρ → Prop} {Failed : ε → ρ → Prop}

theorem of_run {outcome : Except ε α} {final : ρ} (ended : program start = (outcome, final))
    (passed : ∀ value, outcome = .ok value → M value final)
    (stopped : ∀ error, outcome = .error error → Failed error final) : Ends program start M Failed := by
  constructor <;> intro result last same <;> cases ended.symm.trans same
  · exact passed result rfl
  · exact stopped result rfl

theorem pure {value : α} (holds : M value start) : Ends (Pure.pure value) start M Failed :=
  of_run rfl (fun _ same => Except.ok.inj same ▸ holds) nofun

theorem imp {Strong : α → ρ → Prop} {Broken : ε → ρ → Prop} (ends : Ends program start Strong Broken)
    (weaker : ∀ value final, Strong value final → M value final)
    (broken : ∀ error final, Broken error final → Failed error final) : Ends program start M Failed :=
  ⟨fun value final ended => weaker value final (ends.done value final ended),
    fun error final ended => broken error final (ends.failed error final ended)⟩

theorem any : Ends program start (fun _ _ => True) fun _ _ => True := ⟨fun _ _ _ => trivial, fun _ _ _ => trivial⟩

theorem consult {answer : ρ → Except δ α} {note : Except δ α → ρ → ρ} {report : δ → ε}
    (passed : ∀ value, answer start = .ok value → M value (note (.ok value) start))
    (stopped : ∀ error, answer start = .error error → Failed (report error) (note (.error error) start)) :
    Ends (Dialogue.consult answer note report) start M Failed := by
  cases given : answer start with
  | ok value =>
    have ended : Dialogue.consult answer note report start = (.ok value, note (.ok value) start) := by
      simp [Dialogue.consult, given, Except.mapError]
    exact of_run ended (fun _ same => Except.ok.inj same ▸ passed value given) nofun
  | error error =>
    have ended : Dialogue.consult answer note report start = (.error (report error), note (.error error) start) := by
      simp [Dialogue.consult, given, Except.mapError]
    exact of_run ended nofun fun _ same => Except.error.inj same ▸ stopped error given

theorem bind (first : Ends program start M Failed)
    (rest : ∀ value middle, M value middle → Ends (next value) middle Done Failed) :
    Ends (program >>= next) start Done Failed := by
  have step : (program >>= next) start = match program start with
      | (.ok value, middle) => next value middle
      | (.error error, middle) => (.error error, middle) := by
    show ExceptT.bindCont next (program start).1 (program start).2 = _
    cases program start with
    | mk outcome middle => cases outcome <;> rfl
  cases ended : program start with
  | mk outcome middle =>
    rw [ended] at step
    cases outcome with
    | ok value =>
      have later := rest value middle (first.done value middle ended)
      exact ⟨fun _ _ same => later.done _ _ (step.symm.trans same),
        fun _ _ same => later.failed _ _ (step.symm.trans same)⟩
    | error error =>
      exact of_run step nofun fun _ same => Except.error.inj same ▸ first.failed error middle ended

theorem bind_check {outcome : Except ε α} (stopped : ∀ error, outcome = .error error → Failed error start)
    (rest : ∀ value, outcome = .ok value → Ends (next value) start Done Failed) :
    Ends (Dialogue.check outcome >>= next) start Done Failed :=
  bind (M := fun value middle => middle = start ∧ outcome = .ok value)
    (of_run rfl (fun _ passed => ⟨rfl, passed⟩) stopped) fun value _ holds => holds.1 ▸ rest value holds.2

theorem bind_reject {bad : Prop} [Decidable bad] {error : ε} {next : Unit → Dialogue ρ ε β}
    (stopped : bad → Failed error start) (rest : ¬bad → Ends (next ()) start Done Failed) :
    Ends (Dialogue.reject bad error >>= next) start Done Failed := by
  refine bind_check (fun other same => ?_) fun _ same => rest fun isBad => ?_
  · split at same
    · next isBad => exact Except.error.inj same ▸ stopped isBad
    · cases same
  · rw [if_pos isBad] at same
    cases same

theorem bind_consult {answer : ρ → Except δ α} {note : Except δ α → ρ → ρ} {report : δ → ε}
    (stopped : ∀ error, answer start = .error error → Failed (report error) (note (.error error) start))
    (rest : ∀ value, answer start = .ok value → Ends (next value) (note (.ok value) start) Done Failed) :
    Ends (Dialogue.consult answer note report >>= next) start Done Failed :=
  bind (M := fun value middle => middle = note (.ok value) start ∧ answer start = .ok value)
    (consult (fun _ given => ⟨rfl, given⟩) stopped) fun value _ holds => holds.1 ▸ rest value holds.2

/-- A loop that collects values, with an invariant that speaks of the part that is done. -/
theorem mapM {body : α → Dialogue ρ ε β} {I : List α → List β → ρ → Prop} (items : List α) (begins : I [] [] start)
    (step : ∀ done item rest found record, items = done ++ item :: rest → I done found record →
      Ends (body item) record (fun value => I (done ++ [item]) (found ++ [value])) Failed) :
    Ends (items.mapM body) start (I items) Failed := by
  suffices loop : ∀ rest done found record, items = done ++ rest → I done found record →
      Ends (rest.mapM body) record (fun values => I items (found ++ values)) Failed from
    loop items [] [] start rfl begins
  intro rest
  induction rest with
  | nil =>
    intro done found record split holds
    rw [List.append_nil] at split
    rw [List.mapM_nil]
    exact pure (by rwa [List.append_nil, split])
  | cons item rest ih =>
    intro done found record split holds
    rw [List.mapM_cons]
    refine bind (step done item rest found record split holds) fun value middle here => ?_
    refine bind (ih (done ++ [item]) (found ++ [value]) middle (by simp [split]) here) fun values final later => ?_
    exact pure (by simpa using later)

end Ends

end Dialogue

end Nagi.Lib
