import Nagi.Ai.Confinement

/-! What the report of an execution says about the handlers.

A handler may return an output that the executor then refuses. Its step counts as failed, whatever it did. -/

namespace Nagi.Ai

open Lib Lib.Dialogue List

variable {Grant Handle : Type}

def Event.returned? : Event Grant Handle → Option CompletedStep
  | .invoked invocation (.ok output) => some ⟨invocation.action.actionId, output.summary, output.objectIds⟩
  | _ => none

def returned (log : Log Grant Handle) : List CompletedStep := log.filterMap Event.returned?

/-- A report on steps whose handlers returned these outputs, in the order of the steps: the last of them may be missing,
if its step failed. -/
structure Truthful (steps : List ValidatedStep) (outputs : List CompletedStep) (report : ExecutionReport) : Prop where
  listed : ∃ refused, outputs = report.completed ++ refused ∧ refused.length ≤ 1 ∧
    (refused ≠ [] → report.failedStep = some report.completed.length)
  named : outputs.map (·.actionId) = (steps.take outputs.length).map (·.action.actionId)
  inOrder : report.completed.map (·.actionId) = (steps.take report.completed.length).map (·.action.actionId)
  failed : report.status = .failed → report.completed = []
  succeeded : report.status = .succeeded ↔ report.completed.length = steps.length

theorem returned_concat (log : Log Grant Handle) (event : Event Grant Handle) :
    returned (log ++ [event]) = returned log ++ event.returned?.toList := by
  cases same : event.returned? <;> simp [returned, same]

variable {log : Log Grant Handle}

theorem ask_silent {α β δ ε : Type} {answer : β → Log Grant Handle → Except δ α}
    {event : β → Except δ α → Event Grant Handle} {report : δ → ε}
    (silent : ∀ item given, (event item given).returned? = none) (items : List β) :
    Ends (items.mapM fun item => ask (answer item) (event item) report) log
      (fun _ final => returned final = returned log) fun _ final => returned final = returned log := by
  refine .mapM (I := fun _ _ final => returned final = returned log) items rfl fun _ item _ _ _ _ same => ?_
  refine .consult (fun value _ => ?_) fun error _ => ?_
  all_goals rw [returned_concat, silent, Option.toList_none, append_nil, same]

variable (services : Services Grant Handle) (registry : ActionRegistry) (caller : CallerIdentity) (planIntent : String)

theorem executeStep_returned (step : ValidatedStep) (log : Log Grant Handle) :
    Ends (executeStep services registry caller planIntent step) log
      (fun result final => returned final = returned log ++ [result] ∧ result.actionId = step.action.actionId)
      fun _ final => ∃ refused : Option CompletedStep, returned final = returned log ++ refused.toList ∧
        ∀ output ∈ refused, output.actionId = step.action.actionId := by
  have quiet {final : Log Grant Handle} (same : returned final = returned log) :
      ∃ refused : Option CompletedStep, returned final = returned log ++ refused.toList ∧
        ∀ output ∈ refused, output.actionId = step.action.actionId :=
    ⟨none, by rw [same, Option.toList_none, append_nil], nofun⟩
  refine .bind ((ask_silent (fun _ _ => rfl) _).imp (fun _ _ same => same) fun _ _ => quiet) fun grants _ asked => ?_
  refine .bind ((ask_silent (fun _ _ => rfl) _).imp (fun _ _ same => same.trans asked)
    fun _ _ same => quiet (same.trans asked)) fun handles middle asked => ?_
  refine .bind_check (fun _ _ => quiet asked) fun registered found => ?_
  have id := ActionRegistry.descriptor_id (elim_ok found)
  refine .bind_consult (fun error _ => ?_) fun output _ => ?_
  · exact quiet (by simpa [returned_concat, Event.returned?] using asked)
  have answered {final : Log Grant Handle} (same : returned final = returned (middle ++ [.invoked
      ⟨caller, planIntent, registered, step.objectIds, step.parameters, grants, handles⟩ (.ok output)])) :
      returned final = returned log ++ [⟨step.action.actionId, output.summary, output.objectIds⟩] := by
    rw [same, returned_concat, asked, ← id]
    rfl
  have own : ∀ refused ∈ some (CompletedStep.mk step.action.actionId output.summary output.objectIds),
      refused.actionId = step.action.actionId := by
    rintro _ ⟨⟩
    rfl
  refine .bind_reject (fun _ => ⟨some _, answered rfl, own⟩) fun _ => ?_
  refine .bind ((ask_silent (fun _ _ => rfl) _).imp (fun _ _ => answered)
    fun _ _ same => ⟨some _, answered same, own⟩) fun _ _ listed => .pure ⟨listed, rfl⟩

theorem executeSteps_truthful (done rest : List ValidatedStep) (completed : List CompletedStep) (log : Log Grant Handle)
    (inOrder : completed.map (·.actionId) = done.map (·.action.actionId)) :
    let ran := executeSteps services registry caller planIntent completed.length completed rest log
    ∃ outputs, returned ran.2 = returned log ++ outputs ∧ Truthful (done ++ rest) (completed ++ outputs) ran.1 := by
  have length : completed.length = done.length := by simpa using congrArg List.length inOrder
  induction rest generalizing done completed log with
  | nil =>
    show ∃ outputs, _ ∧ Truthful (done ++ []) (completed ++ outputs) ⟨.succeeded, completed, none, none⟩
    refine ⟨[], (append_nil _).symm, ⟨[], rfl, Nat.zero_le 1, nofun⟩, ?_, ?_, nofun, by simp [length]⟩
    all_goals simp [length, inOrder]
  | cons step rest ih =>
    rw [executeSteps_cons]
    have ends := executeStep_returned services registry caller planIntent step log
    cases ran : executeStep services registry caller planIntent step log with
    | mk outcome middle =>
      cases outcome with
      | error error =>
        obtain ⟨refused, same, own⟩ := ends.failed error middle ran
        refine ⟨refused.toList, same, ⟨_, rfl, Option.length_toList_le, fun _ => rfl⟩, ?_, by simp [length, inOrder],
          ?_, ?_⟩
        · cases refused with
          | none => simp [length, inOrder]
          | some output => simp [length, inOrder, own output rfl, take_append, take_of_length_le]
        · dsimp only
          split <;> simp_all
        · dsimp only
          split <;> simp [length]
      | ok result =>
        obtain ⟨same, named⟩ := ends.done result middle ran
        have later := ih (done ++ [step]) (completed ++ [result]) middle (by simp [inOrder, named]) (by simp [length])
        rw [length_append, length_singleton] at later
        obtain ⟨outputs, more, truthful⟩ := later
        exact ⟨result :: outputs, by rw [more, same, append_assoc, singleton_append], by simpa using truthful⟩

/-- Whatever the policy and the handlers answer, the report lists the steps whose handlers returned an output, except
perhaps the one it names as failed. -/
theorem report_truthful (plan : ValidatedPlan) (log : Log Grant Handle) :
    ∃ outputs, returned (executePlan services registry plan log).2 = returned log ++ outputs ∧
      Truthful plan.steps outputs (executePlan services registry plan log).1 :=
  executeSteps_truthful services registry plan.caller plan.intent [] plan.steps [] log rfl

/-- The output names an object that the caller may not read. -/
theorem refused_output_fails :
    let (report, log) :=
      executePlan { allowing with checkObjectAccess _ _ _ _ := .error .object } notes openValidated []
    (validatePlan allowing notesContext notes openPlan []).1 = .ok openValidated ∧
      report.status = .failed ∧ report.completed = [] ∧ (returned log).length = 1 :=
  ⟨rfl, rfl, rfl, rfl⟩

end Nagi.Ai
