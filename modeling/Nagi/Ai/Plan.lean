import Nagi.Lib.Checks
import Nagi.Lib.Dialogue
import Nagi.Lib.Text

/-! The plans of the assistant: the registered actions, the validation of a plan and its execution.

The answers of the policy and the handlers may depend on everything asked and answered before. -/

namespace Nagi.Ai

open Lib Lib.Dialogue List

structure ObjectId where
  raw : UInt64
  deriving DecidableEq

structure CapabilityId where
  value : String
  deriving DecidableEq

structure CallerIdentity where
  appId : UInt64
  appSessionId : UInt64
  nodeId : UInt64
  workspaceId : Option UInt64
  deriving DecidableEq

def maxContextObjects : Nat := 64

structure ContextRequest where
  caller : CallerIdentity
  selectedObject : Option ObjectId
  candidateObjects : List ObjectId

structure ResolvedContext where
  caller : CallerIdentity
  selectedObject : Option ObjectId
  visibleObjects : List ObjectId

inductive ContextError where
  | tooManyObjects
  | duplicateObject
  | selectedObjectNotVisible
  | workspaceNotVisible
  deriving DecidableEq

structure ContextAuthority where
  canReadObject : CallerIdentity → ObjectId → Bool
  canReadWorkspace : CallerIdentity → UInt64 → Bool

def ContextRequest.candidates (request : ContextRequest) : List ObjectId :=
  match request.selectedObject with
  | some selected =>
    if selected ∈ request.candidateObjects then request.candidateObjects else request.candidateObjects ++ [selected]
  | none => request.candidateObjects

def resolve (request : ContextRequest) (authority : ContextAuthority) : Except ContextError ResolvedContext :=
  let visible := request.candidates.filter (authority.canReadObject request.caller)
  if request.caller.workspaceId.any fun workspace => !authority.canReadWorkspace request.caller workspace then
    .error .workspaceNotVisible
  else if request.candidates.length > maxContextObjects then .error .tooManyObjects
  else if ¬request.candidates.Nodup then .error .duplicateObject
  else if request.selectedObject.any (· ∉ visible) then .error .selectedObjectNotVisible
  else .ok { caller := request.caller, selectedObject := request.selectedObject, visibleObjects := visible }

theorem resolve_readable {request : ContextRequest} {authority : ContextAuthority} {context : ResolvedContext}
    (resolved : resolve request authority = .ok context) {object : ObjectId}
    (visible : object ∈ context.visibleObjects) :
    authority.canReadObject context.caller object := by
  dsimp only [resolve] at resolved
  repeat' split at resolved
  all_goals cases resolved
  exact of_mem_filter visible

def maxRegisteredActions : Nat := 64
def maxActionIdBytes : Nat := 96
def maxParameterNameBytes : Nat := 64
def maxActionStringBytes : Nat := 4096
def maxOutputSummaryBytes : Nat := 1024
def maxOutputObjects : Nat := 64
def nagiPlanVersion : Nat := 1
def maxPlanSteps : Nat := 16
def maxIntentBytes : Nat := 128
def maxParametersPerStep : Nat := 32
def maxObjectsPerStep : Nat := 64

inductive ObjectAccess where
  | read
  | modify
  deriving DecidableEq

inductive ParameterKind where
  | string (maxBytes : Nat)
  | integer (min max : Int)
  | boolean

structure ParameterRule where
  name : String
  kind : ParameterKind
  required : Bool

inductive RegistryError where
  | invalidActionId
  | missingCapability
  | invalidObjectBounds
  | tooManyParameters
  | invalidParameterName
  | duplicateParameter
  | invalidParameterBounds
  | duplicateCapability
  | duplicateAction
  | capacity
  deriving DecidableEq

def isIdChar (char : Char) : Bool :=
  char.isLower || char.isDigit || char = '_' || char = '-'

def validActionChars : Bool → List Char → Bool
  | previousDot, [] => !previousDot
  | previousDot, char :: rest =>
    if isIdChar char then validActionChars false rest
    else if char = '.' ∧ ¬previousDot then validActionChars true rest
    else false

def validActionId (value : String) : Bool :=
  value ≠ "" && value.utf8ByteSize ≤ maxActionIdBytes && validActionChars true value.toList

def validParameterName (value : String) : Bool :=
  value ≠ "" && value.utf8ByteSize ≤ maxParameterNameBytes && (Text.splitOnce "path".toList value.toList).isNone &&
    value ∉ ["command", "shell", "argv", "script", "executable"] && value.toList.head?.any Char.isLower &&
    value.toList.tail.all fun char => char.isLower || char.isDigit || char = '_'

def ParameterKind.validBounds : ParameterKind → Bool
  | .string maxBytes => maxBytes ≠ 0 ∧ maxBytes ≤ maxActionStringBytes
  | .integer min max => min ≤ max
  | .boolean => true

def checkRules : List String → List ParameterRule → Except RegistryError Unit
  | _, [] => .ok ()
  | seen, rule :: rest =>
    if ¬validParameterName rule.name then .error .invalidParameterName
    else if rule.name ∈ seen then .error .duplicateParameter
    else if ¬rule.kind.validBounds then .error .invalidParameterBounds
    else checkRules (seen ++ [rule.name]) rest

theorem checkRules_distinct {seen : List String} {rules : List ParameterRule}
    (passed : checkRules seen rules = .ok ()) :
    (rules.map (·.name)).Nodup ∧ ∀ rule ∈ rules, rule.name ∉ seen := by
  induction rules generalizing seen with
  | nil => exact ⟨nodup_nil, nofun⟩
  | cons rule rest ih =>
    simp only [checkRules, Checks.unless_ok_iff] at passed
    obtain ⟨-, fresh, -, later⟩ := passed
    obtain ⟨distinct, apart⟩ := ih later
    refine ⟨nodup_cons.mpr ⟨fun known => ?_, distinct⟩, forall_mem_cons.mpr ⟨fresh, fun other member => ?_⟩⟩
    · obtain ⟨other, member, same⟩ := mem_map.mp known
      exact apart other member (by simp [same])
    · exact fun known => apart other member (mem_append_left _ known)

/-- `new` builds no descriptor that requires a capability twice or has two rules for one parameter. -/
structure ActionDescriptor where
  actionId : String
  requiredCapabilities : List CapabilityId
  objectAccess : ObjectAccess
  minObjects : Nat
  maxObjects : Nat
  parameters : List ParameterRule
  distinct : requiredCapabilities.Nodup
  named : (parameters.map (·.name)).Nodup

def ActionDescriptor.new (actionId : String) (requiredCapabilities : List CapabilityId) (objectAccess : ObjectAccess)
    (minObjects maxObjects : Nat) (parameters : List ParameterRule) : Except RegistryError ActionDescriptor :=
  if ¬validActionId actionId then .error .invalidActionId
  else if requiredCapabilities = [] then .error .missingCapability
  else if distinct : requiredCapabilities.Nodup then
    if minObjects > maxObjects ∨ maxObjects > maxObjectsPerStep then .error .invalidObjectBounds
    else if parameters.length > maxParametersPerStep then .error .tooManyParameters
    else match passed : checkRules [] parameters with
      | .error error => .error error
      | .ok () => .ok {
          actionId, requiredCapabilities, objectAccess, minObjects, maxObjects, parameters, distinct
          named := (checkRules_distinct passed).1 }
  else .error .duplicateCapability

structure ActionRegistry where
  actions : List ActionDescriptor
  keyed : (actions.map (·.actionId)).Nodup
  bounded : actions.length ≤ maxRegisteredActions

def ActionRegistry.new : ActionRegistry := ⟨[], nodup_nil, Nat.zero_le _⟩

def ActionRegistry.register (registry : ActionRegistry) (descriptor : ActionDescriptor) :
    Except RegistryError ActionRegistry :=
  if known : descriptor.actionId ∈ registry.actions.map (·.actionId) then .error .duplicateAction
  else if room : registry.actions.length < maxRegisteredActions then
    .ok {
      actions := descriptor :: registry.actions
      keyed := nodup_cons.mpr ⟨known, registry.keyed⟩
      bounded := room }
  else .error .capacity

def ActionRegistry.descriptor (registry : ActionRegistry) (actionId : String) : Option ActionDescriptor :=
  registry.actions.find? (·.actionId = actionId)

theorem ActionRegistry.descriptor_id {registry : ActionRegistry} {actionId : String} {action : ActionDescriptor}
    (found : registry.descriptor actionId = some action) : action.actionId = actionId := by
  simpa using find?_some found

/-- A JSON value; a number is kept as the parser reads it. -/
inductive Value where
  | null
  | bool (value : Bool)
  | unsigned (value : UInt64)
  | negative (value : Int64)
  | float (bits : UInt64)
  | string (text : String)
  | array (items : List Value)
  | object (members : List (String × Value))

def Value.asStr : Value → Option String
  | .string text => some text
  | _ => none

def Value.asI64 : Value → Option Int
  | .unsigned value => if value.toNat ≤ 0x7fffffffffffffff then some value.toNat else none
  | .negative value => some value.toInt
  | _ => none

def Value.isBoolean : Value → Bool
  | .bool _ => true
  | _ => false

def ParameterKind.accepts (value : Value) : ParameterKind → Bool
  | .string maxBytes => value.asStr.any fun text => text ≠ "" ∧ text.utf8ByteSize ≤ maxBytes
  | .integer min max => value.asI64.any fun integer => min ≤ integer ∧ integer ≤ max
  | .boolean => value.isBoolean

inductive ParameterError where
  | tooMany
  | unknown
  | missing
  | invalidValue
  deriving DecidableEq

abbrev Parameters := List (String × Value)

def validateParameter (descriptor : ActionDescriptor) (parameter : String × Value) : Except ParameterError Unit :=
  match descriptor.parameters.find? (·.name = parameter.1) with
  | none => .error .unknown
  | some rule => if rule.kind.accepts parameter.2 then .ok () else .error .invalidValue

def validateParameters (descriptor : ActionDescriptor) (parameters : Parameters) : Except ParameterError Unit :=
  if parameters.length > maxParametersPerStep then .error .tooMany
  else do
    parameters.forM (validateParameter descriptor)
    if descriptor.parameters.any fun rule => rule.required && rule.name ∉ parameters.map (·.1) then .error .missing
    else .ok ()

inductive PolicyDenied where
  | capability
  | object
  deriving DecidableEq

inductive HandlerError where
  | failed
  | unavailable
  deriving DecidableEq

structure ActionOutput where
  summary : String
  objectIds : List ObjectId

structure ActionInvocation (Grant Handle : Type) where
  caller : CallerIdentity
  planIntent : String
  action : ActionDescriptor
  objectIds : List ObjectId
  parameters : Parameters
  capabilityGrants : List Grant
  objectHandles : List Handle

inductive Event (Grant Handle : Type) where
  | capabilityChecked (caller : CallerIdentity) (capability : CapabilityId) (answer : Except PolicyDenied Unit)
  | objectChecked (caller : CallerIdentity) (object : ObjectId) (access : ObjectAccess)
      (answer : Except PolicyDenied Unit)
  | acquired (caller : CallerIdentity) (capability : CapabilityId) (answer : Except PolicyDenied Grant)
  | resolved (caller : CallerIdentity) (object : ObjectId) (access : ObjectAccess)
      (answer : Except PolicyDenied Handle)
  | invoked (invocation : ActionInvocation Grant Handle) (answer : Except HandlerError ActionOutput)

variable {Grant Handle ε : Type}

/-- What the policy and the handlers answer after all that has happened. -/
structure Services (Grant Handle : Type) where
  checkCapability : List (Event Grant Handle) → CallerIdentity → CapabilityId → Except PolicyDenied Unit
  checkObjectAccess : List (Event Grant Handle) → CallerIdentity → ObjectId → ObjectAccess → Except PolicyDenied Unit
  acquireCapability : List (Event Grant Handle) → CallerIdentity → CapabilityId → Except PolicyDenied Grant
  resolveObject : List (Event Grant Handle) → CallerIdentity → ObjectId → ObjectAccess → Except PolicyDenied Handle
  execute : List (Event Grant Handle) → ActionInvocation Grant Handle → Except HandlerError ActionOutput

def ask {α δ : Type} (answer : List (Event Grant Handle) → Except δ α) (event : Except δ α → Event Grant Handle)
    (report : δ → ε) : Dialogue (List (Event Grant Handle)) ε α :=
  consult answer (fun given log => log ++ [event given]) report

structure PlanStep where
  action : String
  objectIds : List UInt64
  parameters : Parameters

structure NagiPlan where
  planVersion : Nat
  intent : String
  steps : List PlanStep

structure ValidatedStep where
  action : ActionDescriptor
  objectIds : List ObjectId
  parameters : Parameters

structure ValidatedPlan where
  intent : String
  steps : List ValidatedStep
  caller : CallerIdentity

inductive ValidationError where
  | unsupportedVersion
  | invalidIntent
  | emptyPlan
  | tooManySteps
  | unsupportedAction
  | invalidObjectCount
  | duplicateObject
  | objectOutsideContext
  | objectDenied
  | capabilityDenied
  | invalidParameters (error : ParameterError)
  deriving DecidableEq

def PolicyDenied.toValidation : PolicyDenied → ValidationError
  | .object => .objectDenied
  | .capability => .capabilityDenied

abbrev Validation (Grant Handle α : Type) := Dialogue (List (Event Grant Handle)) ValidationError α

def validateObjects (services : Services Grant Handle) (context : ResolvedContext) (access : ObjectAccess) :
    List ObjectId → List UInt64 → Validation Grant Handle (List ObjectId)
  | objectIds, [] => pure objectIds
  | objectIds, rawId :: rest => do
    let object : ObjectId := ⟨rawId⟩
    reject (object ∈ objectIds) .duplicateObject
    reject (object ∉ context.visibleObjects) .objectOutsideContext
    ask (services.checkObjectAccess · context.caller object access) (.objectChecked context.caller object access)
      PolicyDenied.toValidation
    validateObjects services context access (objectIds ++ [object]) rest

def checkCapability (services : Services Grant Handle) (caller : CallerIdentity) (capability : CapabilityId) :
    Validation Grant Handle Unit :=
  ask (services.checkCapability · caller capability) (.capabilityChecked caller capability)
    fun _ => ValidationError.capabilityDenied

variable (services : Services Grant Handle)

def validateStep (context : ResolvedContext) (registry : ActionRegistry)
    (step : PlanStep) : Validation Grant Handle ValidatedStep := do
  let descriptor ← check ((registry.descriptor step.action).elim (.error .unsupportedAction) .ok)
  let count := step.objectIds.length
  reject (count > maxObjectsPerStep ∨ count < descriptor.minObjects ∨ count > descriptor.maxObjects)
    .invalidObjectCount
  let objectIds ← validateObjects services context descriptor.objectAccess [] step.objectIds
  let _ ← descriptor.requiredCapabilities.mapM (checkCapability services context.caller)
  check ((validateParameters descriptor step.parameters).mapError .invalidParameters)
  return { action := descriptor, objectIds, parameters := step.parameters }

def validatePlan (context : ResolvedContext) (registry : ActionRegistry)
    (plan : NagiPlan) : Validation Grant Handle ValidatedPlan := do
  reject (plan.planVersion ≠ nagiPlanVersion) .unsupportedVersion
  -- A text of nothing but white space is empty once it is trimmed.
  reject (plan.intent.toList.all Text.isWhitespace ∨ plan.intent.utf8ByteSize > maxIntentBytes) .invalidIntent
  reject (plan.steps = []) .emptyPlan
  reject (plan.steps.length > maxPlanSteps) .tooManySteps
  let steps ← plan.steps.mapM (validateStep services context registry)
  return { intent := plan.intent, steps, caller := context.caller }

inductive ExecutionStatus where
  | succeeded
  | failed
  | partialRun
  deriving DecidableEq

structure CompletedStep where
  actionId : String
  summary : String
  objectIds : List ObjectId

inductive ExecutionError where
  | unsupportedAction
  | capabilityDenied
  | objectDenied
  | handler (error : HandlerError)
  | invalidOutput
  deriving DecidableEq

structure ExecutionReport where
  status : ExecutionStatus
  completed : List CompletedStep
  failedStep : Option Nat
  error : Option ExecutionError

def mapPolicyError : PolicyDenied → ExecutionError
  | .capability => .capabilityDenied
  | .object => .objectDenied

abbrev Execution (Grant Handle α : Type) := Dialogue (List (Event Grant Handle)) ExecutionError α

def acquireCapability (services : Services Grant Handle) (caller : CallerIdentity) (capability : CapabilityId) :
    Execution Grant Handle Grant :=
  ask (services.acquireCapability · caller capability) (.acquired caller capability) mapPolicyError

def resolveObject (services : Services Grant Handle) (caller : CallerIdentity) (access : ObjectAccess)
    (object : ObjectId) : Execution Grant Handle Handle :=
  ask (services.resolveObject · caller object access) (.resolved caller object access) mapPolicyError

def checkReadable (caller : CallerIdentity) (object : ObjectId) : Execution Grant Handle Unit :=
  ask (services.checkObjectAccess · caller object .read) (.objectChecked caller object .read) mapPolicyError

def executeStep (registry : ActionRegistry) (caller : CallerIdentity)
    (planIntent : String) (step : ValidatedStep) : Execution Grant Handle CompletedStep := do
  let capabilityGrants ← step.action.requiredCapabilities.mapM (acquireCapability services caller)
  let objectHandles ← step.objectIds.mapM (resolveObject services caller step.action.objectAccess)
  let registered ← check ((registry.descriptor step.action.actionId).elim (.error .unsupportedAction) .ok)
  let invocation := {
    caller, planIntent, action := registered, objectIds := step.objectIds, parameters := step.parameters
    capabilityGrants, objectHandles }
  let output ← ask (services.execute · invocation) (.invoked invocation) ExecutionError.handler
  reject (output.summary.utf8ByteSize > maxOutputSummaryBytes ∨ output.objectIds.length > maxOutputObjects)
    .invalidOutput
  let _ ← output.objectIds.mapM (checkReadable services caller)
  return { actionId := step.action.actionId, summary := output.summary, objectIds := output.objectIds }

def executeSteps (services : Services Grant Handle) (registry : ActionRegistry) (caller : CallerIdentity)
    (planIntent : String) :
    Nat → List CompletedStep → List ValidatedStep → StateM (List (Event Grant Handle)) ExecutionReport
  | _, completed, [] => pure { status := .succeeded, completed, failedStep := none, error := none }
  | index, completed, step :: rest => do
    match ← (executeStep services registry caller planIntent step).run with
    | .ok result => executeSteps services registry caller planIntent (index + 1) (completed ++ [result]) rest
    | .error error => pure {
        status := if completed = [] then .failed else .partialRun
        completed
        failedStep := some index
        error := some error }

def executePlan (registry : ActionRegistry) (plan : ValidatedPlan) :
    StateM (List (Event Grant Handle)) ExecutionReport :=
  executeSteps services registry plan.caller plan.intent 0 [] plan.steps

end Nagi.Ai
