import Nagi.Capability.Evaluator

/-! How a request is decided. What `evaluate` can answer is said once, and `check` answers the same on every run. -/

namespace Nagi.Capability

open Lib PolicyDocument List

variable {isIpv6Addr : List Char → Bool}

def Applies (document : PolicyDocument) (request : AccessRequest) (grant : Grant) : Prop :=
  grant ∈ document.grants ∧ grant.principal = request.principal ∧ grant.capability = request.capability ∧
    grant.scope.covers request.scope = true

variable {document : PolicyDocument} {request : AccessRequest} {grant : Grant}

theorem mem_scopedGrants : grant ∈ scopedGrants document request ↔ Applies document request grant := by
  simp only [scopedGrants, relevantGrants, mem_filter, decide_eq_true_eq, Applies, and_assoc]

variable {context : EvaluationContext}

theorem mem_activeAllows : grant ∈ activeAllows document request context ↔
      Applies document request grant ∧ grant.effect = .allow ∧ grant.isActiveAt context = .active := by
  rw [activeAllows, mem_insertionSort, mem_filter, mem_scopedGrants, decide_eq_true_eq]

inductive Evaluated (registry : CapabilityRegistry) (document : PolicyDocument) (request : AccessRequest)
    (context : EvaluationContext) : Decision × Option Nat → Prop where
  | allowed {grant : Grant} (known : registry.contains request.capability = true)
      (applies : Applies document request grant) (allows : grant.effect = .allow)
      (active : grant.isActiveAt context = .active)
      (undenied : ∀ other, Applies document request other → other.effect = .deny → other.isActiveAt context ≠ .active) :
      Evaluated registry document request context
        (.allow grant, if grant.lifetime = .oneShot then some grant.id else none)
  | denied {grant : Grant} (applies : Applies document request grant) (denies : grant.effect = .deny)
      (active : grant.isActiveAt context = .active) :
      Evaluated registry document request context (.denyByGrant grant, none)
  | refused {reason : DecisionReason} {explanation : String} (available : reason ≠ .policyStoreUnavailable)
      (none_ : registry.contains request.capability = true → ∀ grant, Applies document request grant →
        grant.effect = .allow → grant.isActiveAt context ≠ .active) :
      Evaluated registry document request context (.deny reason explanation, none)

theorem inactiveReason_available (inactive : List ActiveGrant) : inactiveReason inactive ≠ .policyStoreUnavailable := by
  unfold inactiveReason
  repeat' split
  all_goals decide

theorem evaluate_spec (registry : CapabilityRegistry) (document : PolicyDocument) (request : AccessRequest)
    (context : EvaluationContext) :
    Evaluated registry document request context (evaluate registry document request context) := by
  fun_cases evaluate registry document request context with
  | case1 unknown => exact .refused (by decide) fun known => by simp [known] at unknown
  | case2 _ relevant =>
    refine .refused (by decide) fun _ grant applies => ?_
    have member := mem_scopedGrants.mpr applies
    rw [scopedGrants, relevant] at member
    cases member
  | case3 _ _ covered =>
    refine .refused (by decide) fun _ grant applies => ?_
    have member := mem_scopedGrants.mpr applies
    rw [covered] at member
    cases member
  | case4 _ _ _ grant denial =>
    have found := find?_some denial
    rw [decide_eq_true_eq] at found
    exact .denied (mem_scopedGrants.mp (mem_of_find?_eq_some denial)) found.1 found.2
  | case5 known _ _ denial grant rest allows =>
    obtain ⟨applies, effect, active⟩ := mem_activeAllows.mp (allows ▸ mem_cons_self)
    refine .allowed (by simpa using known) applies effect active fun other applies denies active => ?_
    have rejected := find?_eq_none.mp denial other (mem_scopedGrants.mpr applies)
    exact rejected (decide_eq_true ⟨denies, active⟩)
  | case6 _ _ _ _ allows =>
    refine .refused (inactiveReason_available _) fun _ grant applies effect active => ?_
    have member := mem_activeAllows.mpr ⟨applies, effect, active⟩
    rw [allows] at member
    cases member

theorem active_grantedAt (active : grant.isActiveAt context = .active) : grant.grantedAt ≤ context.now := by
  revert active
  fun_cases grant.isActiveAt context <;> simp <;> omega

def consumed (document : PolicyDocument) (context : EvaluationContext) : Option Nat → PolicyDocument
  | none => document
  | some id => document.modifyGrant id fun grant => { grant with consumedAt := some context.now }

variable {registry : CapabilityRegistry}

theorem consumed_valid (valid : document.Valid isIpv6Addr) :
    (consumed document context (evaluate registry document request context).2).Valid isIpv6Addr := by
  have spec := evaluate_spec registry document request context
  generalize evaluate registry document request context = answer at spec ⊢
  cases spec with
  | @allowed grant _ applies allows active _ =>
    split
    · next oneShot =>
      refine valid.modifyGrant (fun _ => rfl) fun other member same => ?_
      -- The grant that is marked is the one that was found, and it was granted before now.
      cases valid.unique member applies.1 same
      have kept := valid.grants grant applies.1
      refine ⟨kept.scope, kept.expiry, kept.revoked, fun time held => ?_, fun _ => ⟨allows, oneShot⟩, kept.reason⟩
      cases held
      have early := active_grantedAt active
      exact early
    · exact valid
  | denied => exact valid
  | refused => exact valid

namespace PermissionEvaluator

theorem transact_ok {α : Type} {store : InMemoryPolicyStore}
    {operation : PolicyDocument → Except PolicyStoreError (α × PolicyDocument)} {result : α}
    (done : operation store.document = .ok (result, document)) (valid : document.Valid isIpv6Addr) :
    store.transact isIpv6Addr operation = (.ok result, ⟨document⟩) := by
  unfold InMemoryPolicyStore.transact
  rw [done]
  dsimp only
  rw [validate_ok_iff.mpr valid]

theorem transact_valid {α : Type} {store : InMemoryPolicyStore}
    (operation : PolicyDocument → Except PolicyStoreError (α × PolicyDocument))
    (valid : store.document.Valid isIpv6Addr) : (store.transact isIpv6Addr operation).2.document.Valid isIpv6Addr := by
  unfold InMemoryPolicyStore.transact
  split
  · exact valid
  · next candidate _ =>
    split
    · exact valid
    · next accepted => exact validate_ok_iff.mp accepted

theorem checkOperation_ok (valid : document.Valid isIpv6Addr) :
    checkOperation isIpv6Addr registry request context document =
      .ok ((evaluate registry document request context).1,
        consumed document context (evaluate registry document request context).2) := by
  have spec := evaluate_spec registry document request context
  unfold checkOperation
  rw [validate_ok_iff.mpr valid, Checks.ok_bind]
  generalize evaluate registry document request context = answer at spec ⊢
  cases spec with
  | @allowed grant _ applies =>
    by_cases oneShot : grant.lifetime = .oneShot
    · rw [if_pos oneShot]
      dsimp only
      rw [consumeOneShot, findGrant_of_mem valid applies.1]
      rfl
    · rw [if_neg oneShot]
      rfl
  | denied => rfl
  | refused => rfl

variable {evaluator : PermissionEvaluator}

/-- On a valid document the store never fails, so a check answers what `evaluate` says. -/
theorem check_eq (valid : evaluator.store.document.Valid isIpv6Addr)
    (accepted : evaluator.validateRequest isIpv6Addr request = none) : evaluator.check isIpv6Addr request context =
      ((evaluate evaluator.registry evaluator.store.document request context).1,
        { evaluator with store := ⟨consumed evaluator.store.document context
          (evaluate evaluator.registry evaluator.store.document request context).2⟩ }) := by
  unfold check
  rw [accepted]
  rw [transact_ok (checkOperation_ok valid) (consumed_valid valid)]

theorem explain_eq (valid : evaluator.store.document.Valid isIpv6Addr)
    (accepted : evaluator.validateRequest isIpv6Addr request = none) : evaluator.explain isIpv6Addr request context =
      (evaluate evaluator.registry evaluator.store.document request context).1 := by
  have passes := validate_ok_iff.mpr valid
  unfold explain
  rw [accepted, InMemoryPolicyStore.snapshot, passes]
  dsimp only [Bind.bind, Except.bind, pure, Except.pure]
  rw [passes]

theorem validateRequest_eq_none : evaluator.validateRequest isIpv6Addr request = none ↔
      request.scope.validate isIpv6Addr = .ok () ∧ evaluator.registry.contains request.capability = true := by
  unfold validateRequest
  cases request.scope.validate isIpv6Addr with
  | error error => simp
  | ok _ => simp

theorem validateRequest_denies {decision : Decision}
    (rejected : evaluator.validateRequest isIpv6Addr request = some decision) :
    decision.effect = .deny ∧ decision.grantId = none ∧ decision.reason ≠ .policyStoreUnavailable := by
  revert rejected
  fun_cases evaluator.validateRequest isIpv6Addr request <;> rintro ⟨⟩ <;>
    exact ⟨rfl, rfl, by simp [Decision.unknownCapability, Decision.deny]⟩

theorem step_kept (valid : evaluator.store.document.Valid isIpv6Addr) (call : Call) :
    (evaluator.step isIpv6Addr call).2.registry = evaluator.registry ∧
      (evaluator.step isIpv6Addr call).2.store.document.Valid isIpv6Addr := by
  have insert : ∀ request parameters, (evaluator.insertGrant isIpv6Addr request parameters).2.registry =
      evaluator.registry ∧
        (evaluator.insertGrant isIpv6Addr request parameters).2.store.document.Valid isIpv6Addr := by
    intro request parameters
    fun_cases evaluator.insertGrant isIpv6Addr request parameters with
    | case4 _ _ _ _ store done => exact ⟨rfl, (done ▸ transact_valid _ valid :)⟩
    | _ => exact ⟨rfl, valid⟩
  cases call with
  | grant | deny => exact insert _ _
  | revoke => exact ⟨rfl, transact_valid _ valid⟩
  | check request context =>
    have kept := transact_valid (checkOperation isIpv6Addr evaluator.registry request context) valid
    dsimp only [step, check]
    split
    · exact ⟨rfl, valid⟩
    split <;> next done =>
      rw [done] at kept
      exact ⟨rfl, kept⟩
  | explain => exact ⟨rfl, valid⟩

theorem valid_new : new.Valid isIpv6Addr where
  schema := rfl
  grants _ member := by cases member
  distinct := nodup_nil
  below _ member := by cases member
  positive := Nat.one_pos

theorem run_kept (registry : CapabilityRegistry) (calls : List Call) :
    (run isIpv6Addr registry calls).registry = registry ∧
      (run isIpv6Addr registry calls).store.document.Valid isIpv6Addr :=
  Runs.run_invariant (P := fun evaluator : PermissionEvaluator =>
      evaluator.registry = registry ∧ evaluator.store.document.Valid isIpv6Addr)
    (fun _ call kept => (step_kept kept.2 call).imp_left fun same => same.trans kept.1) ⟨rfl, valid_new⟩ calls

theorem evaluate_isAllowed_iff (known : registry.contains request.capability = true) :
    (evaluate registry document request context).1.isAllowed = true ↔
      (∃ grant, Applies document request grant ∧ grant.isActiveAt context = .active ∧ grant.effect = .allow) ∧
        ¬∃ grant, Applies document request grant ∧ grant.isActiveAt context = .active ∧ grant.effect = .deny := by
  have spec := evaluate_spec registry document request context
  generalize evaluate registry document request context = answer at spec ⊢
  cases spec with
  | @allowed grant _ applies allows active undenied =>
    refine iff_of_true rfl ⟨⟨grant, applies, active, allows⟩, ?_⟩
    rintro ⟨other, denial, isActive, denies⟩
    exact undenied other denial denies isActive
  | @denied grant applies denies active =>
    refine iff_of_false (by simp [Decision.isAllowed, Decision.denyByGrant]) ?_
    rintro ⟨_, none_⟩
    exact none_ ⟨grant, applies, active, denies⟩
  | refused _ none_ =>
    refine iff_of_false (by simp [Decision.isAllowed, Decision.deny]) ?_
    rintro ⟨⟨grant, applies, active, allows⟩, _⟩
    exact none_ known grant applies allows active

theorem explain_eq_check (valid : evaluator.store.document.Valid isIpv6Addr) (request : AccessRequest)
    (context : EvaluationContext) :
    evaluator.explain isIpv6Addr request context = (evaluator.check isIpv6Addr request context).1 := by
  cases rejected : evaluator.validateRequest isIpv6Addr request with
  | none => rw [explain_eq valid rejected, check_eq valid rejected]
  | some decision =>
    unfold explain check
    rw [rejected]

theorem validLogicalPath_of_validate {path : String}
    (valid : (CapabilityScope.filesystem path).validate isIpv6Addr = .ok ()) : validLogicalPath path = true := by
  dsimp only [CapabilityScope.validate] at valid
  split at valid
  · next accepted => exact accepted
  · cases valid

/-- After any calls, a check allows exactly what an active permission covers and no active denial covers; a path
covers another exactly if its components come first in the other; and explaining answers as checking would. -/
theorem check_decides (isIpv6Addr : List Char → Bool) (registry : CapabilityRegistry) (calls : List Call)
    (request : AccessRequest) (context : EvaluationContext) :
    let evaluator := run isIpv6Addr registry calls
    let document := evaluator.store.document
    ((evaluator.check isIpv6Addr request context).1.isAllowed = true ↔
        registry.contains request.capability = true ∧ request.scope.validate isIpv6Addr = .ok () ∧
          (∃ grant ∈ document.grants, grant.principal = request.principal ∧ grant.capability = request.capability ∧
            grant.isActiveAt context = .active ∧ grant.effect = .allow ∧ grant.scope.covers request.scope = true) ∧
          ¬∃ grant ∈ document.grants, grant.principal = request.principal ∧ grant.capability = request.capability ∧
            grant.isActiveAt context = .active ∧ grant.effect = .deny ∧ grant.scope.covers request.scope = true) ∧
      (∀ first second, (CapabilityScope.filesystem first).validate isIpv6Addr = .ok () →
        (CapabilityScope.filesystem second).validate isIpv6Addr = .ok () →
        ((CapabilityScope.filesystem first).covers (.filesystem second) = true ↔
          components first <+: components second)) ∧
      evaluator.explain isIpv6Addr request context = (evaluator.check isIpv6Addr request context).1 ∧
      (evaluator.step isIpv6Addr (.explain request context)).2.store.document = document := by
  intro evaluator document
  have ⟨same, valid⟩ : evaluator.registry = registry ∧ document.Valid isIpv6Addr := run_kept registry calls
  refine ⟨?_, fun first second validFirst validSecond => ?_, explain_eq_check valid request context, rfl⟩
  · have shape : ∀ effect, (∃ grant ∈ document.grants, grant.principal = request.principal ∧
        grant.capability = request.capability ∧ grant.isActiveAt context = .active ∧ grant.effect = effect ∧
        grant.scope.covers request.scope = true) ↔
        ∃ grant, Applies document request grant ∧ grant.isActiveAt context = .active ∧ grant.effect = effect := by
      intro effect
      unfold Applies
      tauto
    rw [shape, shape]
    cases rejected : evaluator.validateRequest isIpv6Addr request with
    | none =>
      obtain ⟨scope, known⟩ := validateRequest_eq_none.mp rejected
      rw [check_eq valid rejected, evaluate_isAllowed_iff known]
      simp only [scope, same ▸ known, true_and]
      rfl
    | some decision =>
      have denied := (validateRequest_denies rejected).1
      refine iff_of_false ?_ ?_
      · simp [check, rejected, Decision.isAllowed, denied]
      · rintro ⟨known, scope, _⟩
        rw [validateRequest_eq_none.mpr ⟨scope, same.symm ▸ known⟩] at rejected
        cases rejected
  · exact covers_iff_components (validLogicalPath_of_validate validFirst) (validLogicalPath_of_validate validSecond)

instance : Std.Total precedes := ⟨fun _ _ => by unfold precedes; omega⟩

instance : IsTrans Grant precedes := ⟨fun _ _ _ => by unfold precedes; omega⟩

theorem evaluate_consumes {id : Nat} (marks : (evaluate registry document request context).2 = some id) :
    ∃ grant ∈ document.grants, grant.id = id ∧ grant.lifetime = .oneShot ∧
      ∀ other ∈ activeAllows document request context, other = grant ∨ precedes grant other := by
  revert marks
  fun_cases evaluate registry document request context with
  | case5 _ _ _ _ grant rest allows =>
    have member : grant ∈ activeAllows document request context := allows ▸ mem_cons_self
    have sorted : (activeAllows document request context).Pairwise precedes := pairwise_insertionSort precedes _
    rw [allows] at sorted ⊢
    intro marks
    obtain ⟨oneShot, same⟩ := Option.ite_none_right_eq_some.mp marks
    refine ⟨grant, (mem_activeAllows.mp member).1.1, Option.some.inj same, oneShot, ?_⟩
    exact forall_mem_cons.mpr ⟨.inl rfl, fun other later => .inr ((pairwise_cons.mp sorted).1 other later)⟩
  | _ => nofun

def Consumes (isIpv6Addr : List Char → Bool) (evaluator : PermissionEvaluator) (request : AccessRequest)
    (context : EvaluationContext) (grant : Grant) : Prop :=
  grant ∈ evaluator.store.document.grants ∧
    ∃ later ∈ (evaluator.check isIpv6Addr request context).2.store.document.grants,
    later.id = grant.id ∧ later.consumedAt ≠ grant.consumedAt

def Reusable (document : PolicyDocument) (request : AccessRequest) (context : EvaluationContext) (grant : Grant) :
    Prop :=
  Applies document request grant ∧ grant.effect = .allow ∧ grant.isActiveAt context = .active ∧
    grant.lifetime ≠ .oneShot

/-- After any calls, a check uses up a one-shot grant only if every reusable permission is for a more specific scope. -/
theorem one_shot_used_for_want_of_broader (isIpv6Addr : List Char → Bool) (registry : CapabilityRegistry)
    (calls : List Call) (request : AccessRequest) (context : EvaluationContext) :
    let evaluator := run isIpv6Addr registry calls
    ¬∃ grant other, Consumes isIpv6Addr evaluator request context grant ∧
      Reusable evaluator.store.document request context other ∧ other.scope.specificity ≤ grant.scope.specificity := by
  rintro evaluator ⟨grant, other, ⟨member, later, after, same, marked⟩, ⟨applies, allows, active, lasting⟩, broader⟩
  have valid : evaluator.store.document.Valid isIpv6Addr := (run_kept registry calls).2
  have changed : later ∉ evaluator.store.document.grants := by
    intro kept
    rw [valid.unique kept member same] at marked
    exact marked rfl
  cases rejected : evaluator.validateRequest isIpv6Addr request with
  | some decision =>
    rw [check, rejected] at after
    exact changed after
  | none =>
    rw [check_eq valid rejected] at after
    cases marks : (evaluate evaluator.registry evaluator.store.document request context).2 with
    | none =>
      rw [marks] at after
      exact changed after
    | some id =>
      rw [marks] at after
      obtain ⟨old, wasThere, rfl⟩ := (mem_modifyGrant valid.distinct).mp after
      obtain ⟨first, inGrants, named, oneShot, least⟩ := evaluate_consumes marks
      split at same
      · next here =>
        -- the grant that is marked is the one that came first
        obtain rfl := valid.unique member inGrants (same.symm.trans (here.trans named.symm))
        rcases least other (mem_activeAllows.mpr ⟨applies, allows, active⟩) with rfl | before
        · exact lasting oneShot
        · unfold precedes lifetimePreference at before
          rw [oneShot] at before
          cases lifetime : other.lifetime with
          | oneShot => exact lasting lifetime
          | session | persistent =>
            rw [lifetime] at before
            dsimp only at before
            omega
      · next elsewhere =>
        rw [if_neg elsewhere] at changed
        exact changed wasThere

/-- A one-shot permission for all files is used up although a persistent one covers the file that is requested. -/
theorem broad_one_shot_used_first :
    let request (path : String) : AccessRequest := ⟨⟨"app:notes", rfl⟩, ⟨"files.read", rfl⟩, .filesystem path⟩
    let evaluator := run (fun _ => false) ⟨fun _ => true⟩
      [.grant (request "/") .oneShot .user none 0 none, .grant (request "/a") .persistent .user none 0 none]
    ∃ grant ∈ evaluator.store.document.grants, ∃ other ∈ evaluator.store.document.grants,
      Consumes (fun _ => false) evaluator (request "/a") ⟨1, none⟩ grant ∧
        Reusable evaluator.store.document (request "/a") ⟨1, none⟩ other := by
  unfold Consumes Reusable Applies
  decide +kernel

end PermissionEvaluator
end Nagi.Capability
