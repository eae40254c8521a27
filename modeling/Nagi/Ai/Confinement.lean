import Mathlib.Data.List.Forall2
import Nagi.Ai.Plan

/-! What a plan can make the handlers do.

The log of an execution shows, directly before each invocation, the grants and the handles it was given. -/

namespace Nagi.Ai

open Lib Lib.Dialogue List

variable {Grant Handle : Type}

abbrev Log (Grant Handle : Type) := List (Event Grant Handle)

def Event.invocation? : Event Grant Handle → Option (ActionInvocation Grant Handle)
  | .invoked invocation _ => some invocation
  | _ => none

def invocations (log : Log Grant Handle) : List (ActionInvocation Grant Handle) := log.filterMap Event.invocation?

def ActionInvocation.step (invocation : ActionInvocation Grant Handle) : PlanStep where
  action := invocation.action.actionId
  objectIds := invocation.objectIds.map (·.raw)
  parameters := invocation.parameters

/-- The questions an invocation rests on: a grant for each capability, then a handle for each object. -/
def ActionInvocation.authority (invocation : ActionInvocation Grant Handle) : Log Grant Handle :=
  zipWith (fun capability grant => .acquired invocation.caller capability (.ok grant))
      invocation.action.requiredCapabilities invocation.capabilityGrants ++
    zipWith (fun object handle => .resolved invocation.caller object invocation.action.objectAccess (.ok handle))
      invocation.objectIds invocation.objectHandles

def Event.Passed : Event Grant Handle → Prop
  | .capabilityChecked _ _ answer | .objectChecked _ _ _ answer => answer = .ok ()
  | .acquired _ _ answer => ∃ grant, answer = .ok grant
  | .resolved _ _ _ answer => ∃ handle, answer = .ok handle
  | .invoked _ answer => ∃ output, answer = .ok output ∧ output.summary.utf8ByteSize ≤ maxOutputSummaryBytes ∧
      output.objectIds.length ≤ maxOutputObjects

structure Satisfied (action : ActionDescriptor) (parameters : Parameters) : Prop where
  known : ∀ parameter ∈ parameters, ∃ rule ∈ action.parameters,
    rule.name = parameter.1 ∧ rule.kind.accepts parameter.2
  complete : ∀ rule ∈ action.parameters, rule.required → rule.name ∈ parameters.map (·.1)

/-- What entitles a handler to its invocation, by what was asked before. -/
structure Entitled (registry : ActionRegistry) (context : ResolvedContext) (before : Log Grant Handle)
    (invocation : ActionInvocation Grant Handle) : Prop where
  caller : invocation.caller = context.caller
  registered : registry.descriptor invocation.action.actionId = some invocation.action
  distinct : invocation.objectIds.Nodup
  visible : ∀ object ∈ invocation.objectIds, object ∈ context.visibleObjects
  disclosed : ∀ request authority, resolve request authority = .ok context →
    ∀ object ∈ invocation.objectIds, authority.canReadObject context.caller object
  granted : invocation.capabilityGrants.length = invocation.action.requiredCapabilities.length ∧
    invocation.action.requiredCapabilities.Nodup
  handled : invocation.objectHandles.length = invocation.objectIds.length
  asked : invocation.authority <:+ before
  parameters : Satisfied invocation.action invocation.parameters

structure Confined (registry : ActionRegistry) (context : ResolvedContext) (steps : List PlanStep) (index : Nat)
    (log : Log Grant Handle) (completed : List CompletedStep) (failedStep : Option Nat) : Prop where
  followed : ∃ count, (invocations log).map (·.step) = steps.take count ∧
    ∀ failed, failedStep = some failed → index + count ≤ failed + 1
  entitled : ∀ before invocation answer after, log = before ++ .invoked invocation answer :: after →
    Entitled registry context before invocation ∧ ∀ event ∈ before, event.Passed
  readable : ∀ step ∈ completed, ∀ object ∈ step.objectIds,
    .objectChecked context.caller object .read (.ok ()) ∈ log

structure Validated (registry : ActionRegistry) (context : ResolvedContext) (step : PlanStep)
    (validated : ValidatedStep) : Prop where
  registered : registry.descriptor step.action = some validated.action
  objects : validated.objectIds = step.objectIds.map ObjectId.mk
  distinct : validated.objectIds.Nodup
  visible : ∀ object ∈ validated.objectIds, object ∈ context.visibleObjects
  parameters : validated.parameters = step.parameters
  satisfied : Satisfied validated.action validated.parameters

section Validation

variable {services : Services Grant Handle} {context : ResolvedContext} {registry : ActionRegistry}
  {log : Log Grant Handle}

variable {action : ActionDescriptor}

theorem validateParameters_ok {parameters : Parameters} (passed : validateParameters action parameters = .ok ()) :
    Satisfied action parameters := by
  simp only [validateParameters, Checks.unless_ok_iff, Checks.bind_ok_iff] at passed
  obtain ⟨-, _, accepted, none, -⟩ := passed
  replace accepted := (Checks.forM_ok_iff parameters).mp accepted
  constructor
  · intro parameter member
    have fine := accepted parameter member
    revert fine
    fun_cases validateParameter action parameter with
    | case2 rule found accepts =>
      exact fun _ => ⟨rule, mem_of_find?_eq_some found, by simpa using find?_some found, accepts⟩
    | _ => simp
  · intro rule member required
    by_contra missing
    exact none (any_eq_true.mpr ⟨rule, member, by simp [required, missing]⟩)

theorem elim_ok {ε : Type} {found : Option ActionDescriptor} {error : ε}
    (passed : found.elim (.error error) .ok = Except.ok action) : found = some action := by
  cases found with
  | none => cases passed
  | some other => exact congrArg some (Except.ok.inj passed)

theorem validateObjects_ends (access : ObjectAccess) (raws : List UInt64) (found : List ObjectId)
    (distinct : found.Nodup) (visible : ∀ object ∈ found, object ∈ context.visibleObjects) :
    Ends (validateObjects services context access found raws) log
      (fun objects _ => objects = found ++ raws.map ObjectId.mk ∧ objects.Nodup ∧
        ∀ object ∈ objects, object ∈ context.visibleObjects)
      fun _ _ => True := by
  induction raws generalizing found log with
  | nil => exact .pure ⟨by simp, distinct, visible⟩
  | cons raw rest ih =>
    refine .bind_reject (fun _ => trivial) fun fresh => ?_
    refine .bind_reject (fun _ => trivial) fun seen => ?_
    refine .bind_consult (fun _ _ => trivial) fun _ _ => ?_
    have longer : (found ++ [(⟨raw⟩ : ObjectId)]).Nodup := by
      refine nodup_append.mpr ⟨distinct, by simp, fun object held other last same => ?_⟩
      exact fresh (mem_singleton.mp last ▸ same ▸ held)
    refine (ih (found ++ [⟨raw⟩]) longer ?_).imp (fun objects _ valid => by simpa using valid) fun _ _ _ => trivial
    simpa [or_imp, forall_and] using ⟨visible, not_not.mp seen⟩

theorem validateStep_ends (step : PlanStep) :
    Ends (validateStep services context registry step) log
      (fun validated _ => Validated registry context step validated)
      fun _ _ => True := by
  refine .bind_check (fun _ _ => trivial) fun action found => ?_
  have registered := elim_ok found
  refine .bind_reject (fun _ => trivial) fun _ => ?_
  refine .bind (validateObjects_ends action.objectAccess step.objectIds [] nodup_nil nofun) fun objects _ valid => ?_
  refine .bind .any fun _ _ _ => ?_
  refine .bind_check (fun _ _ => trivial) fun _ accepted => ?_
  have passed := validateParameters_ok (Checks.mapError_ok_iff.mp accepted)
  exact .pure ⟨registered, by simpa using valid.1, valid.2.1, valid.2.2, rfl, passed⟩

theorem validatePlan_ends (plan : NagiPlan) :
    Ends (validatePlan services context registry plan) log
      (fun validated _ => validated.caller = context.caller ∧
        List.Forall₂ (Validated registry context) plan.steps validated.steps)
      fun _ _ => True := by
  refine .bind_reject (fun _ => trivial) fun _ => ?_
  refine .bind_reject (fun _ => trivial) fun _ => ?_
  refine .bind_reject (fun _ => trivial) fun _ => ?_
  refine .bind_reject (fun _ => trivial) fun _ => ?_
  refine .bind (.mapM (I := fun done found _ => List.Forall₂ (Validated registry context) done found) _ .nil ?_)
    fun steps _ valid => .pure ⟨rfl, valid⟩
  intro done step rest found record _ valid
  exact (validateStep_ends step).imp (fun _ _ here => rel_append valid (.cons here .nil)) fun _ _ _ => trivial

end Validation

theorem invocations_append (first second : Log Grant Handle) :
    invocations (first ++ second) = invocations first ++ invocations second :=
  filterMap_append

theorem invocations_invoked (invocation : ActionInvocation Grant Handle) (answer : Except HandlerError ActionOutput)
    (rest : Log Grant Handle) :
    invocations (.invoked invocation answer :: rest) = invocation :: invocations rest := rfl

variable {log : Log Grant Handle}

variable {invocation : ActionInvocation Grant Handle}

theorem split_invoked {quiet rest before after : Log Grant Handle} {answer : Except HandlerError ActionOutput}
    (silent : invocations quiet = []) (same : quiet ++ rest = before ++ .invoked invocation answer :: after) :
    ∃ between, before = quiet ++ between ∧ rest = between ++ .invoked invocation answer :: after := by
  obtain ⟨between, split, tail⟩ | ⟨excess, split, tail⟩ := append_eq_append_iff.mp same
  · exact ⟨between, split, tail⟩
  · cases excess with
    | nil => exact ⟨[], by simpa using split.symm, tail.symm⟩
    | cons event excess =>
      obtain ⟨rfl, -⟩ := cons.inj tail
      rw [split, invocations_append] at silent
      simp [invocations_invoked] at silent

def answered {α β δ : Type} (event : β → Except δ α → Event Grant Handle) (items : List β) (values : List α) :
    Log Grant Handle :=
  zipWith (fun item value => event item (.ok value)) items values

variable {α β δ : Type} {event : β → Except δ α → Event Grant Handle}

theorem mem_answered {items : List β} {values : List α} {asked : Event Grant Handle}
    (member : asked ∈ answered event items values) : ∃ item ∈ items, ∃ value, asked = event item (.ok value) := by
  obtain ⟨i, h, rfl⟩ := mem_iff_getElem.mp member
  simp only [answered, length_zipWith, Nat.lt_min] at h
  exact ⟨items[i], getElem_mem _, values[i], by simp [answered]⟩

theorem answered_of_mem {items : List β} {values : List α} (length : values.length = items.length) {item : β}
    (member : item ∈ items) : ∃ value, event item (.ok value) ∈ answered event items values := by
  obtain ⟨i, h, rfl⟩ := mem_iff_getElem.mp member
  exact ⟨values[i], mem_iff_getElem.mpr ⟨i, by simpa [answered, length] using h, by simp [answered]⟩⟩

theorem invocations_answered (quiet : ∀ item given, (event item given).invocation? = none) (items : List β)
    (values : List α) : invocations (answered event items values) = [] := by
  refine filterMap_eq_nil_iff.mpr fun asked member => ?_
  obtain ⟨item, -, value, rfl⟩ := mem_answered member
  exact quiet item _

theorem ask_each {ε : Type} (answer : β → Log Grant Handle → Except δ α) (event : β → Except δ α → Event Grant Handle)
    (report : δ → ε) (quiet : ∀ item given, (event item given).invocation? = none) (items : List β) :
    Ends (items.mapM fun item => ask (answer item) (event item) report) log
      (fun found final => found.length = items.length ∧ final = log ++ answered event items found)
      fun _ final => ∃ added, final = log ++ added ∧ invocations added = [] := by
  refine .mapM (I := fun done found final => found.length = done.length ∧ final = log ++ answered event done found)
    items ⟨rfl, by simp [answered]⟩ ?_
  rintro done item rest found record - ⟨length, rfl⟩
  refine .consult (fun value _ => ⟨by simp [length], ?_⟩) fun error _ => ?_
  · simp [answered, zipWith_append length.symm]
  refine ⟨answered event done found ++ [event item (.error error)], by simp, ?_⟩
  rw [invocations_append, invocations_answered quiet]
  simp [invocations, quiet]

variable (step : ValidatedStep) (caller : CallerIdentity)

structure Carries (invocation : ActionInvocation Grant Handle) : Prop where
  caller : invocation.caller = caller
  action : invocation.action = step.action
  objects : invocation.objectIds = step.objectIds
  parameters : invocation.parameters = step.parameters
  granted : invocation.capabilityGrants.length = invocation.action.requiredCapabilities.length
  handled : invocation.objectHandles.length = invocation.objectIds.length

theorem authority_eq (invocation : ActionInvocation Grant Handle) :
    invocation.authority =
      answered (.acquired invocation.caller) invocation.action.requiredCapabilities invocation.capabilityGrants ++
        answered (fun object => .resolved invocation.caller object invocation.action.objectAccess)
          invocation.objectIds invocation.objectHandles := rfl

theorem passed_authority {event : Event Grant Handle} (member : event ∈ invocation.authority) : event.Passed := by
  obtain member | member := mem_append.mp member
  all_goals
    obtain ⟨item, -, value, rfl⟩ := mem_answered member
    exact ⟨value, rfl⟩

theorem invocations_authority (invocation : ActionInvocation Grant Handle) : invocations invocation.authority = [] := by
  rw [authority_eq, invocations_append, invocations_answered fun _ _ => rfl, invocations_answered fun _ _ => rfl]
  rfl

structure Invoked (invocation : ActionInvocation Grant Handle)
    (answer : Except HandlerError ActionOutput) (checks added : Log Grant Handle) : Prop where
  carries : Carries step caller invocation
  log : added = invocation.authority ++ .invoked invocation answer :: checks
  quiet : invocations checks = []

/-- A step that was completed: all its questions were answered well, and what it returns was found readable. -/
def StepDone (added : Log Grant Handle) (result : CompletedStep) : Prop :=
  (∃ invocation answer checks, Invoked step caller invocation answer checks added) ∧ (∀ event ∈ added, event.Passed) ∧
    ∀ object ∈ result.objectIds, .objectChecked caller object .read (.ok ()) ∈ added

def StepFailed (added : Log Grant Handle) : Prop :=
  invocations added = [] ∨ ∃ invocation answer checks, Invoked step caller invocation answer checks added

theorem executeStep_ends {services : Services Grant Handle} {registry : ActionRegistry} {caller : CallerIdentity}
    {planIntent : String} {step : ValidatedStep}
    (registered : registry.descriptor step.action.actionId = some step.action) :
    Ends (executeStep services registry caller planIntent step) log
      (fun result final => ∃ added, final = log ++ added ∧ StepDone step caller added result)
      fun _ final => ∃ added, final = log ++ added ∧ StepFailed step caller added := by
  refine .bind ((ask_each (fun capability log => services.acquireCapability log caller capability) (.acquired caller)
    mapPolicyError (fun _ _ => rfl) _).imp (fun _ _ done => done) ?_) ?_
  · rintro _ _ ⟨added, rfl, quiet⟩
    exact ⟨added, rfl, .inl quiet⟩
  rintro grants _ ⟨granted, rfl⟩
  refine .bind ((ask_each (fun object log => services.resolveObject log caller object step.action.objectAccess)
    (fun object => .resolved caller object step.action.objectAccess) mapPolicyError (fun _ _ => rfl) _).imp
    (fun _ _ done => done) ?_) ?_
  · rintro _ _ ⟨added, rfl, quiet⟩
    exact ⟨_, append_assoc .., .inl (by
      rw [invocations_append, invocations_answered fun _ _ => rfl, quiet, nil_append])⟩
  rintro handles _ ⟨handled, rfl⟩
  let invocation : ActionInvocation Grant Handle := {
    caller, planIntent, action := step.action, objectIds := step.objectIds, parameters := step.parameters
    capabilityGrants := grants, objectHandles := handles }
  have carries : Carries step caller invocation := ⟨rfl, rfl, rfl, rfl, granted, handled⟩
  rw [append_assoc]
  refine .bind_check (fun _ _ => ⟨_, rfl, .inl (invocations_authority invocation)⟩) fun action found => ?_
  cases registered.symm.trans (elim_ok found)
  refine .bind_consult (fun error _ => ?_) fun output _ => ?_
  · exact ⟨invocation.authority ++ [.invoked invocation (.error error)], append_assoc ..,
      .inr ⟨invocation, .error error, [], carries, rfl, rfl⟩⟩
  refine .bind_reject (fun _ => ?_) fun small => ?_
  · exact ⟨invocation.authority ++ [.invoked invocation (.ok output)], append_assoc ..,
      .inr ⟨invocation, .ok output, [], carries, rfl, rfl⟩⟩
  refine .bind ((ask_each (fun object log => services.checkObjectAccess log caller object .read)
    (fun object => .objectChecked caller object .read) mapPolicyError (fun _ _ => rfl) _).imp (fun _ _ done => done) ?_)
    ?_
  · rintro _ _ ⟨added, rfl, quiet⟩
    exact ⟨invocation.authority ++ .invoked invocation (.ok output) :: added, by simp [invocation, authority_eq],
      .inr ⟨invocation, .ok output, added, carries, rfl, quiet⟩⟩
  rintro units _ ⟨length, rfl⟩
  refine .pure ⟨invocation.authority ++ .invoked invocation (.ok output) :: _, by simp [invocation, authority_eq]; rfl,
    ⟨invocation, .ok output, _, carries, rfl, invocations_answered (fun _ _ => rfl) _ _⟩, ?_, ?_⟩
  · intro event member
    obtain member | member | member := by simpa only [mem_append, mem_cons] using member
    · exact passed_authority member
    · exact member ▸ ⟨output, rfl, by omega, by omega⟩
    · obtain ⟨_, -, _, rfl⟩ := mem_answered member
      rfl
  · intro object member
    obtain ⟨_, found⟩ := answered_of_mem length member
    exact mem_append_right _ (mem_cons_of_mem _ found)

section Run

variable {registry : ActionRegistry} {context : ResolvedContext} {authored : PlanStep} {step : ValidatedStep}
  {answer : Except HandlerError ActionOutput} {checks added before : Log Grant Handle}

theorem Validated.entitled (valid : Validated registry context authored step)
    (carries : Carries step context.caller invocation) (asked : invocation.authority <:+ before) :
    Entitled registry context before invocation where
  caller := carries.caller
  registered := by
    rw [carries.action, ActionRegistry.descriptor_id valid.registered]
    exact valid.registered
  distinct := carries.objects ▸ valid.distinct
  visible := carries.objects ▸ valid.visible
  disclosed request authority resolved object member :=
    resolve_readable resolved (valid.visible object (carries.objects ▸ member))
  granted := ⟨carries.granted, invocation.action.distinct⟩
  handled := carries.handled
  asked := asked
  parameters := by
    rw [carries.action, carries.parameters]
    exact valid.satisfied

theorem Validated.step_eq (valid : Validated registry context authored step)
    (carries : Carries step context.caller invocation) : invocation.step = authored := by
  have id := ActionRegistry.descriptor_id valid.registered
  simp [ActionInvocation.step, carries.action, carries.objects, carries.parameters, valid.objects, valid.parameters, id,
    Function.comp_def]

section
variable (invoked : Invoked step context.caller invocation answer checks added)
include invoked

theorem Invoked.invocations_eq : invocations added = [invocation] := by
  rw [invoked.log, invocations_append, invocations_invoked, invoked.quiet, invocations_authority]
  rfl

theorem Invoked.split
    {rest after : Log Grant Handle} {other : ActionInvocation Grant Handle} {given : Except HandlerError ActionOutput}
    (same : added ++ rest = before ++ .invoked other given :: after) :
    before = invocation.authority ∧ other = invocation ∨
      ∃ between, before = added ++ between ∧ rest = between ++ .invoked other given :: after := by
  rw [invoked.log, append_assoc] at same
  obtain ⟨between, rfl, tail⟩ := split_invoked (invocations_authority invocation) same
  cases between with
  | nil =>
    obtain ⟨rfl, -⟩ := Event.invoked.inj (cons.inj tail).1
    exact .inl ⟨append_nil _, rfl⟩
  | cons event between =>
    obtain ⟨rfl, behind⟩ := cons.inj tail
    obtain ⟨between, rfl, others⟩ := split_invoked invoked.quiet behind
    exact .inr ⟨between, by simp [invoked.log], others⟩

end

theorem Validated.confined_failed (valid : Validated registry context authored step) (later : List PlanStep)
    (index : Nat) (failed : StepFailed step context.caller added) :
    Confined registry context (authored :: later) index added [] (some index) := by
  obtain quiet | ⟨invocation, answer, checks, invoked⟩ := failed
  · refine ⟨⟨0, by simp [quiet], by simp⟩, fun before invocation answer after same => ?_, nofun⟩
    rw [same, invocations_append] at quiet
    simp [invocations_invoked] at quiet
  · refine ⟨⟨1, ?_, by simp⟩, fun before other answer after same => ?_, nofun⟩
    · simp [invoked.invocations_eq, valid.step_eq invoked.carries]
    · obtain ⟨rfl, rfl⟩ | ⟨between, -, impossible⟩ := invoked.split ((append_nil added).trans same)
      · exact ⟨valid.entitled invoked.carries (suffix_refl _), fun _ => passed_authority⟩
      · simp at impossible

theorem Validated.confined_done (valid : Validated registry context authored step) {later : List PlanStep} {index : Nat}
    {result : CompletedStep} (done : StepDone step context.caller added result) {log : Log Grant Handle}
    {completed : List CompletedStep} {failedStep : Option Nat}
    (rest : Confined registry context later (index + 1) log completed failedStep) :
    Confined registry context (authored :: later) index (added ++ log) (result :: completed) failedStep := by
  obtain ⟨⟨invocation, answer, checks, invoked⟩, passed, readable⟩ := done
  obtain ⟨count, followed, halted⟩ := rest.followed
  refine ⟨⟨count + 1, ?_, fun failed same => ?_⟩, fun before other given after same => ?_, ?_⟩
  · simp [invocations_append, invoked.invocations_eq, valid.step_eq invoked.carries, followed]
  · have := halted failed same
    omega
  · obtain ⟨rfl, rfl⟩ | ⟨between, rfl, tail⟩ := invoked.split same
    · exact ⟨valid.entitled invoked.carries (suffix_refl _), fun _ => passed_authority⟩
    · obtain ⟨entitled, well⟩ := rest.entitled between other given after tail
      refine ⟨{ entitled with asked := entitled.asked.trans (suffix_append _ _) }, fun event member => ?_⟩
      obtain member | member := mem_append.mp member
      · exact passed event member
      · exact well event member
  · refine forall_mem_cons.mpr ⟨fun object member => ?_, fun step member object found => ?_⟩
    · exact mem_append_left _ (readable object member)
    · exact mem_append_right _ (rest.readable step member object found)

theorem executeSteps_cons (services : Services Grant Handle) (caller : CallerIdentity) (planIntent : String)
    (index : Nat) (completed : List CompletedStep) (rest : List ValidatedStep) (log : Log Grant Handle) :
    executeSteps services registry caller planIntent index completed (step :: rest) log =
      match executeStep services registry caller planIntent step log with
      | (.ok result, middle) =>
        executeSteps services registry caller planIntent (index + 1) (completed ++ [result]) rest middle
      | (.error error, middle) => ({
          status := if completed = [] then .failed else .partialRun
          completed
          failedStep := some index
          error := some error }, middle) := by
  rw [executeSteps]
  simp only [bind, StateT.bind, ExceptT.run]
  cases executeStep services registry caller planIntent step log with
  | mk outcome middle => cases outcome <;> rfl

theorem executeSteps_confined (services : Services Grant Handle) (planIntent : String) {authored : List PlanStep}
    {steps : List ValidatedStep} (valid : List.Forall₂ (Validated registry context) authored steps) (index : Nat)
    (completed : List CompletedStep) (log : Log Grant Handle) :
    ∃ added more, (executeSteps services registry context.caller planIntent index completed steps log).2 =
      log ++ added ∧
      (executeSteps services registry context.caller planIntent index completed steps log).1.completed =
        completed ++ more ∧
      Confined registry context authored index added more
        (executeSteps services registry context.caller planIntent index completed steps log).1.failedStep := by
  induction valid generalizing index completed log with
  | nil => exact ⟨[], [], by simp [executeSteps]; rfl, by simp [executeSteps]; rfl, ⟨0, rfl, nofun⟩, by simp, nofun⟩
  | @cons authored step later rest here valid ih =>
    have registered := here.registered
    rw [← ActionRegistry.descriptor_id registered] at registered
    rw [executeSteps_cons]
    cases ran : executeStep services registry context.caller planIntent step log with
    | mk outcome middle =>
      cases outcome with
      | error error =>
        obtain ⟨added, rfl, failed⟩ := (executeStep_ends registered).failed error middle ran
        exact ⟨added, [], rfl, by simp, here.confined_failed later index failed⟩
      | ok result =>
        obtain ⟨added, rfl, done⟩ := (executeStep_ends registered).done result middle ran
        obtain ⟨log', more, same, all, confined⟩ := ih (index + 1) (completed ++ [result]) (log ++ added)
        exact ⟨added ++ log', result :: more, by rw [same, append_assoc], by simp [all],
          here.confined_done done confined⟩

end Run

/-- Whatever the policy and the handlers answer, at the validation and later at the execution, an accepted plan invokes
handlers only for its own steps, in order, each time entitled to it, and never after a step that failed. -/
theorem execution_confined {Grant Handle : Type} (checking acting : Services Grant Handle) (registry : ActionRegistry)
    (context : ResolvedContext) (plan : NagiPlan) (validated : ValidatedPlan) (before checked log : Log Grant Handle)
    (accepted : validatePlan checking context registry plan before = (.ok validated, checked)) :
    ∃ added, (executePlan acting registry validated log).2 = log ++ added ∧
      Confined registry context plan.steps 0 added (executePlan acting registry validated log).1.completed
        (executePlan acting registry validated log).1.failedStep := by
  obtain ⟨caller, valid⟩ := (validatePlan_ends plan).done validated checked accepted
  obtain ⟨added, more, same, all, confined⟩ :=
    executeSteps_confined acting validated.intent valid 0 [] log
  unfold executePlan
  rw [caller]
  exact ⟨added, same, all ▸ confined⟩

def allowing : Services Unit Unit where
  checkCapability _ _ _ := .ok ()
  checkObjectAccess _ _ _ _ := .ok ()
  acquireCapability _ _ _ := .ok ()
  resolveObject _ _ _ _ := .ok ()
  execute _ invocation := .ok ⟨"opened", invocation.objectIds⟩

def openNote : ActionDescriptor where
  actionId := "note.open"
  requiredCapabilities := [⟨"note.read"⟩]
  objectAccess := .read
  minObjects := 1
  maxObjects := 1
  parameters := [⟨"line", .integer 1 100, true⟩]
  distinct := pairwise_singleton _ _
  named := pairwise_singleton _ _

def notes : ActionRegistry := ⟨[openNote], pairwise_singleton _ _, Nat.le_of_ble_eq_true rfl⟩

def notesContext : ResolvedContext := ⟨⟨1, 1, 1, none⟩, none, [⟨7⟩, ⟨8⟩]⟩

def openPlan : NagiPlan :=
  ⟨1, "open", [⟨"note.open", [7], [("line", .unsigned 1)]⟩, ⟨"note.open", [8], [("line", .unsigned 2)]⟩]⟩

def openValidated : ValidatedPlan :=
  ⟨"open", [⟨openNote, [⟨7⟩], [("line", .unsigned 1)]⟩, ⟨openNote, [⟨8⟩], [("line", .unsigned 2)]⟩], ⟨1, 1, 1, none⟩⟩

/-- The second note cannot be opened. -/
theorem open_confined :
    let acting := { allowing with
      execute := fun log invocation =>
        if invocation.objectIds = [⟨8⟩] then .error .failed else allowing.execute log invocation }
    let (report, log) := executePlan acting notes openValidated []
    (validatePlan allowing notesContext notes openPlan []).1 = .ok openValidated ∧ report.failedStep = some 1 ∧
      report.completed.length = 1 ∧ (invocations log).length = 2 ∧
      Confined notes notesContext openPlan.steps 0 log report.completed report.failedStep := by
  intro acting
  obtain ⟨added, same, confined⟩ :=
    execution_confined allowing acting notes notesContext openPlan openValidated [] _ [] rfl
  obtain rfl : (executePlan acting notes openValidated []).2 = added := same
  exact ⟨rfl, rfl, rfl, rfl, confined⟩

end Nagi.Ai
