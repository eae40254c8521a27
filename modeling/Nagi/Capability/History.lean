import Nagi.Capability.Decisions

/-! What holds along every run of the evaluator. Identifiers only grow, so a grant that is dead stays dead. -/

namespace Nagi.Capability.PermissionEvaluator

open Lib PolicyDocument Runs

variable {isIpv6Addr : List Char → Bool}

inductive Stepped (before : PolicyDocument) : Call → Reply → PolicyDocument → Prop where
  | notGranted {call : Call} {error : PolicyStoreError} : Stepped before call (.granted (.error error)) before
  | granted {call : Call} {id : Nat} {grant : Grant} (fresh : id = before.nextGrantId) (named : grant.id = id) :
      Stepped before call (.granted (.ok id))
        { before with nextGrantId := before.nextGrantId + 1, grants := before.grants ++ [grant] }
  | notRevoked {call : Call} {result : Except PolicyStoreError Bool} (refused : result ≠ .ok true) :
      Stepped before call (.revoked result) before
  | revoked {id time : Nat} (found : ∃ grant ∈ before.grants, grant.id = id) :
      Stepped before (.revoke id time) (.revoked (.ok true))
      (before.modifyGrant id fun grant => { grant with revokedAt := some time })
  | checked {request : AccessRequest} {context : EvaluationContext} {decision : Decision}
      (available : decision.reason ≠ .policyStoreUnavailable)
      (selected : ∀ id, decision.grantId = some id → ∃ grant ∈ before.grants, grant.id = id ∧
        grant.isActiveAt context = .active ∧ (decision.effect = .allow → grant.lifetime ≠ .oneShot)) :
      Stepped before (.check request context) (.checked decision) before
  | consumed {request : AccessRequest} {context : EvaluationContext} {grant : Grant} (member : grant ∈ before.grants)
      (active : grant.isActiveAt context = .active) (oneShot : grant.lifetime = .oneShot) :
      Stepped before (.check request context) (.checked (.allow grant))
        (before.modifyGrant grant.id fun grant => { grant with consumedAt := some context.now })
  | explained {call : Call} {decision : Decision} : Stepped before call (.explained decision) before

theorem insertGrant_stepped (evaluator : PermissionEvaluator) (call : Call) (request : AccessRequest)
    (parameters : GrantParameters) :
    Stepped evaluator.store.document call (.granted (evaluator.insertGrant isIpv6Addr request parameters).1)
      (evaluator.insertGrant isIpv6Addr request parameters).2.store.document := by
  unfold insertGrant
  split
  · exact .notGranted
  split
  · exact .notGranted
  split
  · exact .notGranted
  fun_cases InMemoryPolicyStore.transact isIpv6Addr evaluator.store (insertOperation isIpv6Addr request parameters) with
  | case3 id document done =>
    obtain ⟨⟨id, advanced⟩, allocated, done⟩ := Checks.bind_ok_iff.mp done
    obtain ⟨_, _, done⟩ := Checks.bind_ok_iff.mp done
    cases done
    revert allocated
    fun_cases PolicyDocument.allocateGrantId evaluator.store.document with
    | case1 => nofun
    | case2 next sum =>
      rintro ⟨⟩
      obtain ⟨_, rfl⟩ := Words.checkedAdd_eq_some_iff.mp sum
      exact .granted rfl rfl
  | _ => exact .notGranted

variable {evaluator : PermissionEvaluator}

section
variable (valid : evaluator.store.document.Valid isIpv6Addr)
include valid

theorem revoke_stepped (id time : Nat) :
    Stepped evaluator.store.document (.revoke id time) (.revoked (evaluator.revoke isIpv6Addr id time).1)
      (evaluator.revoke isIpv6Addr id time).2.store.document := by
  unfold revoke
  cases found : evaluator.store.document.findGrant id with
  | none =>
    have done : revokeOperation id time evaluator.store.document = .ok (false, evaluator.store.document) := by
      rw [revokeOperation, found]
    rw [transact_ok done valid]
    exact .notRevoked (by simp)
  | some grant =>
    obtain ⟨member, rfl⟩ := findGrant_mem found
    by_cases refused : grant.revokedAt.isSome = true ∨ time < grant.grantedAt
    · have done : revokeOperation grant.id time evaluator.store.document = .ok (false, evaluator.store.document) := by
        rw [revokeOperation, found]
        exact if_pos refused
      rw [transact_ok done valid]
      exact .notRevoked (by simp)
    · have done : revokeOperation grant.id time evaluator.store.document = .ok (true,
          evaluator.store.document.modifyGrant grant.id fun grant => { grant with revokedAt := some time }) := by
        rw [revokeOperation, found]
        exact if_neg refused
      have late : grant.grantedAt ≤ time := by
        rw [not_or, Nat.not_lt] at refused
        exact refused.2
      rw [transact_ok done (valid.modifyGrant (fun _ => rfl) fun other inGrants same => ?_)]
      · exact .revoked ⟨grant, member, rfl⟩
      · cases valid.unique inGrants member same
        have kept := valid.grants grant member
        refine ⟨kept.scope, kept.expiry, fun revoked held => ?_, kept.consumed, kept.consumption, kept.reason⟩
        cases held
        exact late

theorem check_stepped (request : AccessRequest)
    (context : EvaluationContext) : Stepped evaluator.store.document (.check request context)
      (.checked (evaluator.check isIpv6Addr request context).1)
      (evaluator.check isIpv6Addr request context).2.store.document := by
  cases rejected : evaluator.validateRequest isIpv6Addr request with
  | some decision =>
    obtain ⟨_, unselected, available⟩ := validateRequest_denies rejected
    rw [check, rejected]
    exact .checked available fun id selected => by rw [unselected] at selected; cases selected
  | none =>
    rw [check_eq valid rejected]
    have spec := evaluate_spec evaluator.registry evaluator.store.document request context
    generalize evaluate evaluator.registry evaluator.store.document request context = answer at spec ⊢
    cases spec with
    | @allowed grant _ applies allows active _ =>
      by_cases oneShot : grant.lifetime = .oneShot
      · rw [if_pos oneShot]
        exact .consumed applies.1 active oneShot
      · rw [if_neg oneShot]
        refine .checked (by simp [Decision.allow]) fun id selected => ?_
        cases selected
        exact ⟨grant, applies.1, rfl, active, fun _ => oneShot⟩
    | @denied grant applies denies active =>
      refine .checked (by simp [Decision.denyByGrant]) fun id selected => ?_
      cases selected
      exact ⟨grant, applies.1, rfl, active, fun allows => by cases allows⟩
    | refused available =>
      exact .checked available fun id selected => by cases selected

theorem step_stepped (call : Call) : Stepped evaluator.store.document call (evaluator.step isIpv6Addr call).1
      (evaluator.step isIpv6Addr call).2.store.document := by
  cases call with
  | grant | deny => exact insertGrant_stepped evaluator _ _ _
  | revoke id time => exact revoke_stepped valid id time
  | check request context => exact check_stepped valid request context
  | explain => exact .explained

end

section
variable (event : Event PermissionEvaluator Call Reply) (id : Nat)

def SelectedBy : Prop := ∃ decision, event.result = .checked decision ∧ decision.grantId = some id

def AuthorizedBy : Prop :=
  ∃ decision, event.result = .checked decision ∧ decision.isAllowed = true ∧ decision.grantId = some id

def OneShotAt : Prop := ∃ grant ∈ event.before.store.document.grants, grant.id = id ∧ grant.lifetime = .oneShot

def RevokedBy : Prop := ∃ time, event.action = .revoke id time ∧ event.result = .revoked (.ok true)

end

def issuedBy (event : Event PermissionEvaluator Call Reply) : Option Nat :=
  match event.result with
  | .granted (.ok id) => some id
  | _ => none

theorem issued_iff {event : Event PermissionEvaluator Call Reply} {id : Nat} :
    issuedBy event = some id ↔ event.result = .granted (.ok id) := by
  unfold issuedBy
  split <;> simp_all

def Reply.failed : Reply → Bool
  | .granted (.error _) | .revoked (.error _) => true
  | .checked decision => !decision.isAllowed
  | _ => false

/-- All grants with this identifier, now and later, satisfy a condition that no call changes. -/
structure Settled (document : PolicyDocument) (id : Nat) (condition : Grant → Prop) : Prop where
  known : id < document.nextGrantId
  holds : ∀ grant ∈ document.grants, grant.id = id → condition grant

def Dead (grant : Grant) : Prop :=
  grant.revokedAt.isSome = true ∨ grant.lifetime = .oneShot ∧ grant.consumedAt.isSome = true

def Lasting (grant : Grant) : Prop := grant.lifetime ≠ .oneShot

theorem Dead.inactive {grant : Grant} (dead : Dead grant) (context : EvaluationContext) :
    grant.isActiveAt context ≠ .active := by
  unfold Grant.isActiveAt
  rcases dead with revoked | ⟨oneShot, used⟩
  · rw [if_pos revoked]
    decide
  · rw [oneShot]
    dsimp only
    repeat' split
    all_goals decide

structure Stable (condition : Grant → Prop) : Prop where
  revoked : ∀ grant time, condition grant → condition { grant with revokedAt := some time }
  consumed : ∀ grant time, condition grant → condition { grant with consumedAt := some time }

theorem stable_dead : Stable Dead where
  revoked _ _ _ := .inl rfl
  consumed _ _ dead := dead.imp (fun revoked => revoked) fun used => ⟨used.1, rfl⟩

theorem stable_lasting : Stable Lasting := ⟨fun _ _ lasting => lasting, fun _ _ lasting => lasting⟩

variable {document : PolicyDocument} {condition : Grant → Prop} {change : Grant → Grant} {id : Nat}

theorem Settled.modifyGrant (settled : Settled document id condition) (valid : document.Valid isIpv6Addr)
    (other : Nat) (sameId : ∀ grant, (change grant).id = grant.id)
    (kept : ∀ grant, condition grant → condition (change grant)) :
    Settled (document.modifyGrant other change) id condition where
  known := settled.known
  holds grant member same := by
    obtain ⟨old, wasThere, rfl⟩ := (mem_modifyGrant valid.distinct).mp member
    split at same
    · next here =>
      rw [if_pos here]
      exact kept old (settled.holds old wasThere ((sameId old).symm.trans same))
    · next elsewhere =>
      rw [if_neg elsewhere]
      exact settled.holds old wasThere same

variable {after : PolicyDocument}

theorem Settled.step {call : Call} {reply : Reply} (stable : Stable condition)
    (valid : document.Valid isIpv6Addr) (settled : Settled document id condition)
    (stepped : Stepped document call reply after) : Settled after id condition := by
  cases stepped with
  | notGranted | notRevoked | checked | explained => exact settled
  | @granted _ _ grant fresh named =>
    refine ⟨Nat.lt_succ_of_lt settled.known, fun other member same => ?_⟩
    rcases List.mem_append.mp member with old | new
    · exact settled.holds other old same
    · rw [List.mem_singleton.mp new] at same
      have known := settled.known
      omega
  | revoked => exact settled.modifyGrant valid _ (fun _ => rfl) fun grant holds => stable.revoked grant _ holds
  | consumed => exact settled.modifyGrant valid _ (fun _ => rfl) fun grant holds => stable.consumed grant _ holds

theorem settled_modifyGrant (valid : document.Valid isIpv6Addr) (known : id < document.nextGrantId)
    (marked : ∀ grant ∈ document.grants, grant.id = id → condition (change grant)) :
    Settled (document.modifyGrant id change) id condition where
  known := known
  holds grant member same := by
    obtain ⟨old, wasThere, rfl⟩ := (mem_modifyGrant valid.distinct).mp member
    split at same
    · next here =>
      rw [if_pos here]
      exact marked old wasThere here
    · next elsewhere => exact absurd same elsewhere

/-- What an event says about all later documents. -/
structure Leaves (event : Event PermissionEvaluator Call Reply) (evaluator : PermissionEvaluator) : Prop where
  authorized : ∀ id, AuthorizedBy event id →
    Settled evaluator.store.document id Dead ∨ ¬OneShotAt event id ∧ Settled evaluator.store.document id Lasting
  revoked : ∀ id, RevokedBy event id → Settled evaluator.store.document id Dead
  issued : ∀ id, issuedBy event = some id → id < evaluator.store.document.nextGrantId

theorem settled_step (valid : evaluator.store.document.Valid isIpv6Addr) (stable : Stable condition)
    (settled : Settled evaluator.store.document id condition) (call : Call) :
    Settled (evaluator.step isIpv6Addr call).2.store.document id condition :=
  settled.step stable valid (step_stepped valid call)

theorem nextGrantId_mono {call : Call} {reply : Reply} (stepped : Stepped document call reply after) :
    document.nextGrantId ≤ after.nextGrantId := by
  cases stepped with
  | granted => exact Nat.le_succ _
  | _ => exact Nat.le_refl _

theorem Leaves.later {event : Event PermissionEvaluator Call Reply}
    (valid : evaluator.store.document.Valid isIpv6Addr) (leaves : Leaves event evaluator) (call : Call) :
    Leaves event (evaluator.step isIpv6Addr call).2 where
  authorized id authorized := (leaves.authorized id authorized).imp
    (fun dead => settled_step valid stable_dead dead call)
    fun lasting => ⟨lasting.1, settled_step valid stable_lasting lasting.2 call⟩
  revoked id revoked := settled_step valid stable_dead (leaves.revoked id revoked) call
  issued id issued := Nat.lt_of_lt_of_le (leaves.issued id issued) (nextGrantId_mono (step_stepped valid call))

theorem settled_of_mem (valid : document.Valid isIpv6Addr) {grant : Grant} (member : grant ∈ document.grants)
    (holds : condition grant) : Settled document grant.id condition where
  known := valid.below grant member
  holds other inGrants same := by
    rw [valid.unique inGrants member same]
    exact holds

section
variable {before after : PolicyDocument} {call : Call}

variable {decision : Decision}

theorem Stepped.authorized (stepped : Stepped before call (.checked decision) after)
    (valid : before.Valid isIpv6Addr) (allowed : decision.isAllowed = true) (selected : decision.grantId = some id) :
    Settled after id Dead ∨
      (¬∃ grant ∈ before.grants, grant.id = id ∧ grant.lifetime = .oneShot) ∧ Settled after id Lasting := by
  cases stepped with
  | checked _ named =>
    obtain ⟨grant, member, rfl, _, lasting⟩ := named id selected
    have lasts := lasting (by simpa [Decision.isAllowed] using allowed)
    refine .inr ⟨?_, settled_of_mem valid member lasts⟩
    rintro ⟨other, inGrants, same, oneShot⟩
    rw [valid.unique inGrants member same] at oneShot
    exact lasts oneShot
  | @consumed _ _ grant member _ oneShot =>
    cases selected
    refine .inl (settled_modifyGrant valid (valid.below grant member) fun other inGrants same => ?_)
    rw [valid.unique inGrants member same]
    exact .inr ⟨oneShot, rfl⟩

theorem Stepped.revocation {time : Nat} (stepped : Stepped before (.revoke id time) (.revoked (.ok true)) after)
    (valid : before.Valid isIpv6Addr) : Settled after id Dead := by
  cases stepped with
  | notRevoked refused => exact absurd rfl refused
  | revoked found =>
    obtain ⟨grant, member, rfl⟩ := found
    exact settled_modifyGrant valid (valid.below grant member) fun _ _ _ => .inl rfl

theorem Stepped.issued (stepped : Stepped before call (.granted (.ok id)) after) :
    id = before.nextGrantId ∧ id < after.nextGrantId := by
  cases stepped with
  | granted fresh => exact ⟨fresh, fresh ▸ Nat.lt_succ_self _⟩

theorem Stepped.selected (stepped : Stepped before call (.checked decision) after)
    (dead : Settled before id Dead) : decision.grantId ≠ some id := by
  intro selected
  cases stepped with
  | checked _ named =>
    obtain ⟨grant, member, same, active, _⟩ := named id selected
    exact (dead.holds grant member same).inactive _ active
  | consumed member active =>
    cases selected
    exact (dead.holds _ member rfl).inactive _ active

theorem Stepped.failed_same {reply : Reply} (stepped : Stepped before call reply after) (failed : reply.failed = true) :
    after = before := by
  cases stepped with
  | granted | revoked | consumed => cases failed
  | _ => rfl

theorem Stepped.available (stepped : Stepped before call (.checked decision) after) :
    decision.reason ≠ .policyStoreUnavailable := by
  cases stepped with
  | checked available => exact available
  | consumed => simp [Decision.allow]

end

theorem leaves_event (valid : evaluator.store.document.Valid isIpv6Addr) (call : Call) :
    Leaves (event (step isIpv6Addr) evaluator call) (evaluator.step isIpv6Addr call).2 := by
  have stepped := step_stepped valid call
  constructor
  · rintro id ⟨decision, result, allowed, selected⟩
    dsimp only [event] at result
    rw [result] at stepped
    exact stepped.authorized valid allowed selected
  · rintro id ⟨time, action, result⟩
    dsimp only [event] at action result
    subst action
    rw [result] at stepped
    exact stepped.revocation valid
  · intro id issued
    have result := issued_iff.mp issued
    dsimp only [event] at result
    rw [result] at stepped
    exact stepped.issued.2

structure Ordered (earlier later : Event PermissionEvaluator Call Reply) : Prop where
  once : ∀ id, AuthorizedBy earlier id → AuthorizedBy later id → ¬OneShotAt earlier id ∧ ¬OneShotAt later id
  revoked : ∀ id, RevokedBy earlier id → ¬SelectedBy later id
  increasing : ∀ first second, issuedBy earlier = some first → issuedBy later = some second → first < second

theorem Leaves.ordered {earlier : Event PermissionEvaluator Call Reply}
    (valid : evaluator.store.document.Valid isIpv6Addr) (leaves : Leaves earlier evaluator) (call : Call) :
    Ordered earlier (event (step isIpv6Addr) evaluator call) := by
  have stepped := step_stepped valid call
  have unselected : ∀ id, Settled evaluator.store.document id Dead →
      ¬SelectedBy (event (step isIpv6Addr) evaluator call) id := by
    rintro id dead ⟨decision, result, selected⟩
    dsimp only [event] at result
    rw [result] at stepped
    exact stepped.selected dead selected
  constructor
  · rintro id first ⟨decision, result, allowed, selected⟩
    rcases leaves.authorized id first with dead | ⟨lasting, settled⟩
    · exact absurd ⟨decision, result, selected⟩ (unselected id dead)
    · refine ⟨lasting, ?_⟩
      rintro ⟨grant, member, same, oneShot⟩
      exact settled.holds grant member same oneShot
  · intro id revoked
    exact unselected id (leaves.revoked id revoked)
  · intro first second issuedFirst issuedSecond
    have result := issued_iff.mp issuedSecond
    dsimp only [event] at result
    rw [result] at stepped
    rw [stepped.issued.1]
    exact leaves.issued first issuedFirst

theorem history_ordered (registry : CapabilityRegistry) (calls : List Call) :
    (history isIpv6Addr registry calls).Pairwise Ordered :=
  trace_pairwise (I := fun evaluator : PermissionEvaluator => evaluator.store.document.Valid isIpv6Addr) (Q := Leaves)
    (fun _ call valid => (step_kept valid call).2) (fun _ call valid => leaves_event valid call)
    (fun _ _ call valid leaves => leaves.later valid call) (fun _ _ call valid leaves => leaves.ordered valid call)
    valid_new calls

/-- Along every run, a one-shot grant authorizes at most one check, a revoked grant decides none, identifiers grow,
the document stays valid, so that the store never fails, and a call that fails or denies changes nothing. -/
theorem grants_used_once (isIpv6Addr : List Char → Bool) (registry : CapabilityRegistry) (calls : List Call) :
    let past := history isIpv6Addr registry calls
    past.Pairwise (fun earlier later => ∀ id, AuthorizedBy earlier id → AuthorizedBy later id →
        ¬OneShotAt earlier id ∧ ¬OneShotAt later id) ∧
      past.Pairwise (fun earlier later => ∀ id, RevokedBy earlier id → ¬SelectedBy later id) ∧
      (past.filterMap issuedBy).Pairwise (fun first second => first < second) ∧
      (run isIpv6Addr registry calls).store.document.validate isIpv6Addr = .ok () ∧
      (∀ event ∈ past, ∀ decision, event.result = .checked decision → decision.reason ≠ .policyStoreUnavailable) ∧
      ∀ event ∈ past, event.result.failed = true → event.after.store.document = event.before.store.document := by
  intro past
  have ordered : past.Pairwise Ordered := history_ordered registry calls
  refine ⟨ordered.imp fun order => order.once, ordered.imp fun order => order.revoked, ?_,
    validate_ok_iff.mpr (run_kept registry calls).2, ?_, ?_⟩
  · rw [List.pairwise_filterMap]
    exact ordered.imp fun order first issuedFirst second issuedSecond =>
      order.increasing first second issuedFirst issuedSecond
  · refine forall_event (I := fun evaluator : PermissionEvaluator => evaluator.store.document.Valid isIpv6Addr)
      (fun _ call valid => (step_kept valid call).2) (fun evaluator call valid decision result => ?_) valid_new calls
    have stepped := step_stepped valid call
    dsimp only [event] at result
    rw [result] at stepped
    exact stepped.available
  · exact forall_event (I := fun evaluator : PermissionEvaluator => evaluator.store.document.Valid isIpv6Addr)
      (fun _ call valid => (step_kept valid call).2)
      (fun evaluator call valid failed => (step_stepped valid call).failed_same failed) valid_new calls

end Nagi.Capability.PermissionEvaluator
