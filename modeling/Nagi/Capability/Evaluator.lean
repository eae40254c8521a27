import Mathlib.Data.List.Sort
import Nagi.Capability.Policy
import Nagi.Lib.Runs

/-! The permission evaluator of `nagi-capability`.

An active denial wins, then the active permission that comes first by specificity, lifetime and identifier. A
one-shot permission is used up in the transaction that finds it. -/

namespace Nagi.Capability

open Lib

structure AccessRequest where
  principal : PrincipalId
  capability : CapabilityId
  scope : CapabilityScope
  deriving DecidableEq

inductive DecisionEffect where
  | allow
  | deny
  deriving DecidableEq

inductive DecisionReason where
  | authorizedByGrant
  | explicitlyDenied
  | unknownCapability
  | invalidRequest
  | noGrant
  | scopeMismatch
  | revoked
  | notYetValid
  | expired
  | wrongSession
  | oneShotConsumed
  | policyStoreUnavailable
  deriving DecidableEq

structure Decision where
  effect : DecisionEffect
  reason : DecisionReason
  grantId : Option Nat
  explanation : String
  deriving DecidableEq

def GrantSource.toText : GrantSource → String
  | .user => "User"
  | .system => "System"
  | .policy => "Policy"

namespace Decision

def isAllowed (decision : Decision) : Bool := decision.effect = .allow

def allow (grant : Grant) : Decision where
  effect := .allow
  reason := .authorizedByGrant
  grantId := some grant.id
  explanation := "Allowed by active " ++ grant.source.toText ++ " grant " ++ toString grant.id ++ " for capability " ++
    grant.capability.value ++ "."

def deny (reason : DecisionReason) (explanation : String) : Decision := ⟨.deny, reason, none, explanation⟩

def denyByGrant (grant : Grant) : Decision where
  effect := .deny
  reason := .explicitlyDenied
  grantId := some grant.id
  explanation := "Denied by active " ++ grant.source.toText ++ " policy grant " ++ toString grant.id ++
    " for capability " ++ grant.capability.value ++ "."

def unknownCapability (capability : CapabilityId) : Decision :=
  deny .unknownCapability ("Denied because capability " ++ capability.value ++ " is not registered.")

end Decision

/-- The registered capabilities; their descriptions play no part in a decision. -/
structure CapabilityRegistry where
  contains : CapabilityId → Bool

def lifetimePreference : GrantLifetime → Nat
  | .persistent => 0
  | .session _ => 1
  | .oneShot => 2

def precedes (first second : Grant) : Prop :=
  first.scope.specificity < second.scope.specificity ∨
    first.scope.specificity = second.scope.specificity ∧
      (lifetimePreference first.lifetime < lifetimePreference second.lifetime ∨
        lifetimePreference first.lifetime = lifetimePreference second.lifetime ∧ first.id ≤ second.id)

instance : DecidableRel precedes := fun _ _ => inferInstanceAs (Decidable (_ ∨ _))

def inactiveReason (inactive : List ActiveGrant) : DecisionReason :=
  if .revoked ∈ inactive then .revoked
  else if .notYetValid ∈ inactive then .notYetValid
  else if .expired ∈ inactive then .expired
  else if .wrongSession ∈ inactive then .wrongSession
  else if .consumed ∈ inactive then .oneShotConsumed
  else .noGrant

def inactiveExplanation : DecisionReason → String
  | .revoked => "Denied because the matching grant was revoked."
  | .notYetValid => "Denied because the matching grant is not valid yet."
  | .expired => "Denied because the matching grant has expired."
  | .wrongSession => "Denied because the session grant belongs to a different session."
  | .oneShotConsumed => "Denied because the matching one-shot grant was already consumed."
  | _ => "Denied by default because no active allow grant applies."

def relevantGrants (document : PolicyDocument) (request : AccessRequest) : List Grant :=
  document.grants.filter fun grant => grant.principal = request.principal ∧ grant.capability = request.capability

def scopedGrants (document : PolicyDocument) (request : AccessRequest) : List Grant :=
  (relevantGrants document request).filter fun grant => grant.scope.covers request.scope

def activeAllows (document : PolicyDocument) (request : AccessRequest) (context : EvaluationContext) : List Grant :=
  ((scopedGrants document request).filter fun grant =>
    grant.effect = .allow ∧ grant.isActiveAt context = .active).insertionSort precedes

def evaluate (registry : CapabilityRegistry) (document : PolicyDocument) (request : AccessRequest)
    (context : EvaluationContext) : Decision × Option Nat :=
  if !registry.contains request.capability then (.unknownCapability request.capability, none)
  else if relevantGrants document request = [] then
    (.deny .noGrant "Denied by default because this principal has no grant for the capability.", none)
  else if scopedGrants document request = [] then
    (.deny .scopeMismatch "Denied because no grant covers the requested resource scope.", none)
  else
    match (scopedGrants document request).find? fun grant =>
        grant.effect = .deny ∧ grant.isActiveAt context = .active with
    | some denial => (.denyByGrant denial, none)
    | none =>
      match activeAllows document request context with
      | allow :: _ => (.allow allow, if allow.lifetime = .oneShot then some allow.id else none)
      | [] =>
        let inactive := ((scopedGrants document request).filter fun grant => grant.effect = .allow).map fun grant =>
          grant.isActiveAt context
        (.deny (inactiveReason inactive) (inactiveExplanation (inactiveReason inactive)), none)

def storeFailure (_ : PolicyStoreError) : Decision :=
  .deny .policyStoreUnavailable
    "Denied because the policy store could not be read safely; no permission was granted."

structure PermissionEvaluator where
  registry : CapabilityRegistry
  store : InMemoryPolicyStore

structure GrantParameters where
  effect : GrantEffect
  lifetime : GrantLifetime
  source : GrantSource
  reason : Option String
  grantedAt : Nat
  expiresAt : Option Nat

namespace PermissionEvaluator

variable (isIpv6Addr : List Char → Bool)

def insertOperation (request : AccessRequest) (parameters : GrantParameters) (document : PolicyDocument) :
    Except PolicyStoreError (Nat × PolicyDocument) := do
  let (id, document) ← document.allocateGrantId
  let grant : Grant :=
    { id
      principal := request.principal
      capability := request.capability
      effect := parameters.effect
      scope := request.scope
      lifetime := parameters.lifetime
      source := parameters.source
      reason := parameters.reason
      grantedAt := parameters.grantedAt
      expiresAt := parameters.expiresAt
      revokedAt := none
      consumedAt := none }
  (grant.validate isIpv6Addr).mapError .invalidGrant
  pure (id, document.pushGrant grant)

variable (evaluator : PermissionEvaluator)

def insertGrant (request : AccessRequest) (parameters : GrantParameters) :
    Except PolicyStoreError Nat × PermissionEvaluator :=
  match request.scope.validate isIpv6Addr with
  | .error error => (.error (.malformed error.toText), evaluator)
  | .ok () =>
    if !evaluator.registry.contains request.capability then
      (.error (.malformed "cannot grant an unregistered capability"), evaluator)
    else if parameters.effect = .deny ∧ parameters.lifetime = .oneShot then
      (.error (.malformed "one-shot lifetime is reserved for allow grants"), evaluator)
    else
      match evaluator.store.transact isIpv6Addr (insertOperation isIpv6Addr request parameters) with
      | (result, store) => (result, { evaluator with store })

def grant (request : AccessRequest) (lifetime : GrantLifetime) (source : GrantSource)
    (reason : Option String) (grantedAt : Nat) (expiresAt : Option Nat) :
    Except PolicyStoreError Nat × PermissionEvaluator :=
  evaluator.insertGrant isIpv6Addr request ⟨.allow, lifetime, source, reason, grantedAt, expiresAt⟩

def deny (evaluator : PermissionEvaluator) (request : AccessRequest) (lifetime : GrantLifetime) (source : GrantSource)
    (reason : Option String) (grantedAt : Nat) (expiresAt : Option Nat) :
    Except PolicyStoreError Nat × PermissionEvaluator :=
  evaluator.insertGrant isIpv6Addr request ⟨.deny, lifetime, source, reason, grantedAt, expiresAt⟩

def revokeOperation (grantId revokedAt : Nat) (document : PolicyDocument) :
    Except PolicyStoreError (Bool × PolicyDocument) :=
  match document.findGrant grantId with
  | none => .ok (false, document)
  | some grant =>
    if grant.revokedAt.isSome ∨ revokedAt < grant.grantedAt then .ok (false, document)
    else .ok (true, document.modifyGrant grantId fun grant => { grant with revokedAt := some revokedAt })

def revoke (grantId revokedAt : Nat) : Except PolicyStoreError Bool × PermissionEvaluator :=
  match evaluator.store.transact isIpv6Addr (revokeOperation grantId revokedAt) with
  | (result, store) => (result, { evaluator with store })

def validateRequest (request : AccessRequest) : Option Decision :=
  match request.scope.validate isIpv6Addr with
  | .error _ => some (.deny .invalidRequest "Denied because the requested resource scope is malformed.")
  | .ok () =>
    if !evaluator.registry.contains request.capability then some (.unknownCapability request.capability) else none

def checkOperation (registry : CapabilityRegistry) (request : AccessRequest) (context : EvaluationContext)
    (document : PolicyDocument) : Except PolicyStoreError (Decision × PolicyDocument) := do
  document.validate isIpv6Addr
  match evaluate registry document request context with
  | (decision, none) => pure (decision, document)
  | (decision, some grantId) =>
    let document ← document.consumeOneShot grantId context.now
    pure (decision, document)

def check (request : AccessRequest) (context : EvaluationContext) : Decision × PermissionEvaluator :=
  match evaluator.validateRequest isIpv6Addr request with
  | some decision => (decision, evaluator)
  | none =>
    match evaluator.store.transact isIpv6Addr (checkOperation isIpv6Addr evaluator.registry request context) with
    | (.ok decision, store) => (decision, { evaluator with store })
    | (.error error, store) => (storeFailure error, { evaluator with store })

def explain (request : AccessRequest) (context : EvaluationContext) : Decision :=
  match evaluator.validateRequest isIpv6Addr request with
  | some decision => decision
  | none =>
    match evaluator.store.snapshot isIpv6Addr with
    | .error error => storeFailure error
    | .ok document =>
      match document.validate isIpv6Addr with
      | .error error => storeFailure error
      | .ok () => (evaluate evaluator.registry document request context).1

inductive Call where
  | grant (request : AccessRequest) (lifetime : GrantLifetime) (source : GrantSource) (reason : Option String)
      (grantedAt : Nat) (expiresAt : Option Nat)
  | deny (request : AccessRequest) (lifetime : GrantLifetime) (source : GrantSource) (reason : Option String)
      (grantedAt : Nat) (expiresAt : Option Nat)
  | revoke (grantId revokedAt : Nat)
  | check (request : AccessRequest) (context : EvaluationContext)
  | explain (request : AccessRequest) (context : EvaluationContext)

inductive Reply where
  | granted (result : Except PolicyStoreError Nat)
  | revoked (result : Except PolicyStoreError Bool)
  | checked (decision : Decision)
  | explained (decision : Decision)

def step : Call → Reply × PermissionEvaluator
  | .grant request lifetime source reason grantedAt expiresAt =>
    match evaluator.grant isIpv6Addr request lifetime source reason grantedAt expiresAt with
    | (result, next) => (.granted result, next)
  | .deny request lifetime source reason grantedAt expiresAt =>
    match evaluator.deny isIpv6Addr request lifetime source reason grantedAt expiresAt with
    | (result, next) => (.granted result, next)
  | .revoke grantId revokedAt =>
    match evaluator.revoke isIpv6Addr grantId revokedAt with
    | (result, next) => (.revoked result, next)
  | .check request context =>
    match evaluator.check isIpv6Addr request context with
    | (decision, next) => (.checked decision, next)
  | .explain request context => (.explained (evaluator.explain isIpv6Addr request context), evaluator)

def start (registry : CapabilityRegistry) : PermissionEvaluator := ⟨registry, .new⟩

def run (registry : CapabilityRegistry) (calls : List Call) : PermissionEvaluator :=
  Runs.run (step isIpv6Addr) (start registry) calls

abbrev History := List (Event PermissionEvaluator Call Reply)

def history (registry : CapabilityRegistry) (calls : List Call) : History :=
  Runs.trace (step isIpv6Addr) (start registry) calls

end PermissionEvaluator
end Nagi.Capability
