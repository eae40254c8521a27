import Mathlib.Data.Finset.Insert
import Nagi.Capability.Scope
import Nagi.Lib.Words

/-! Grants, the policy document and its store, from `nagi-capability`.

A transaction works on a copy, which replaces the stored document only if it is valid. -/

namespace Nagi.Capability

open Lib Checks List

inductive GrantLifetime where
  | oneShot
  | session (sessionId : SessionId)
  | persistent
  deriving DecidableEq

inductive GrantEffect where
  | allow
  | deny
  deriving DecidableEq

inductive GrantSource where
  | user
  | system
  | policy
  deriving DecidableEq

structure EvaluationContext where
  now : Nat
  sessionId : Option SessionId
  deriving DecidableEq

structure Grant where
  id : Nat
  principal : PrincipalId
  capability : CapabilityId
  effect : GrantEffect
  scope : CapabilityScope
  lifetime : GrantLifetime
  source : GrantSource
  reason : Option String
  grantedAt : Nat
  expiresAt : Option Nat
  revokedAt : Option Nat
  consumedAt : Option Nat
  deriving DecidableEq

inductive GrantValidationError where
  | invalidScope (error : ScopeError)
  | expiryNotAfterGrant
  | revocationBeforeGrant
  | consumptionBeforeGrant
  | unexpectedConsumption
  | invalidReason
  deriving DecidableEq

inductive ActiveGrant where
  | active
  | revoked
  | expired
  | notYetValid
  | consumed
  | wrongSession
  deriving DecidableEq

namespace Grant

def validate (isIpv6Addr : List Char → Bool) (grant : Grant) : Except GrantValidationError Unit := do
  (grant.scope.validate isIpv6Addr).mapError .invalidScope
  if grant.expiresAt.any fun expiry => expiry ≤ grant.grantedAt then .error .expiryNotAfterGrant
  else if grant.revokedAt.any fun revoked => revoked < grant.grantedAt then .error .revocationBeforeGrant
  else if grant.consumedAt.any fun consumed => consumed < grant.grantedAt then .error .consumptionBeforeGrant
  else if grant.consumedAt.isSome ∧ (grant.effect ≠ .allow ∨ grant.lifetime ≠ .oneShot) then
    .error .unexpectedConsumption
  else if grant.reason.any fun reason =>
      reason = "" ∨ reason.utf8ByteSize > 512 ∨ reason.toList.any Text.isControl then
    .error .invalidReason
  else .ok ()

def isActiveAt (grant : Grant) (context : EvaluationContext) : ActiveGrant :=
  if grant.revokedAt.isSome then .revoked
  else if context.now < grant.grantedAt then .notYetValid
  else if grant.expiresAt.any fun expiry => expiry ≤ context.now then .expired
  else
    match grant.lifetime with
    | .oneShot => if grant.consumedAt.isSome then .consumed else .active
    | .persistent => .active
    | .session sessionId => if context.sessionId = some sessionId then .active else .wrongSession

end Grant

def policySchemaVersion : Nat := 1

inductive PolicyStoreError where
  | malformed (message : String)
  | unsupportedSchemaVersion (version : Nat)
  | invalidGrant (error : GrantValidationError)
  | unavailable (message : String)
  | grantIdExhausted
  deriving DecidableEq

structure PolicyDocument where
  schemaVersion : Nat
  nextGrantId : Nat
  grants : List Grant
  deriving DecidableEq

def modifyFirst {α : Type} (accept : α → Bool) (change : α → α) : List α → List α
  | [] => []
  | first :: rest => if accept first then change first :: rest else first :: modifyFirst accept change rest

namespace PolicyDocument

def new : PolicyDocument := ⟨policySchemaVersion, 1, []⟩

/-- One turn of the loop of `validate`: the identifiers seen so far and the largest of them. -/
def validateGrant (isIpv6Addr : List Char → Bool) (seen : Finset Nat × Nat) (grant : Grant) :
    Except PolicyStoreError (Finset Nat × Nat) := do
  (grant.validate isIpv6Addr).mapError .invalidGrant
  if grant.id ∈ seen.1 then .error (.malformed "persisted policy contains duplicate grant IDs")
  else .ok (insert grant.id seen.1, max seen.2 grant.id)

def validate (isIpv6Addr : List Char → Bool) (document : PolicyDocument) : Except PolicyStoreError Unit :=
  if document.schemaVersion ≠ policySchemaVersion then .error (.unsupportedSchemaVersion document.schemaVersion)
  else if document.nextGrantId = 0 then .error (.malformed "next_grant_id must be positive")
  else do
    let (_, maximumId) ← document.grants.foldlM (validateGrant isIpv6Addr) (∅, 0)
    if document.nextGrantId ≤ maximumId then
      .error (.malformed "next_grant_id must be greater than every stored grant ID")
    else .ok ()

variable (document : PolicyDocument)

def allocateGrantId : Except PolicyStoreError (Nat × PolicyDocument) :=
  match Words.checkedAdd 64 document.nextGrantId 1 with
  | none => .error .grantIdExhausted
  | some next => .ok (document.nextGrantId, { document with nextGrantId := next })

def pushGrant (grant : Grant) : PolicyDocument :=
  { document with grants := document.grants ++ [grant] }

def findGrant (id : Nat) : Option Grant := document.grants.find? fun grant => grant.id = id

def modifyGrant (id : Nat) (change : Grant → Grant) : PolicyDocument :=
  { document with grants := modifyFirst (fun grant => grant.id = id) change document.grants }

def consumeOneShot (id at_ : Nat) : Except PolicyStoreError PolicyDocument :=
  match document.findGrant id with
  | none => .error (.malformed "selected grant disappeared during policy transaction")
  | some _ => .ok (document.modifyGrant id fun grant => { grant with consumedAt := some at_ })

end PolicyDocument

structure InMemoryPolicyStore where
  document : PolicyDocument
  deriving DecidableEq

namespace InMemoryPolicyStore

def new : InMemoryPolicyStore := ⟨.new⟩

def transact {α : Type} (isIpv6Addr : List Char → Bool) (store : InMemoryPolicyStore)
    (operation : PolicyDocument → Except PolicyStoreError (α × PolicyDocument)) :
    Except PolicyStoreError α × InMemoryPolicyStore :=
  match operation store.document with
  | .error error => (.error error, store)
  | .ok (result, candidate) =>
    match candidate.validate isIpv6Addr with
    | .error error => (.error error, store)
    | .ok () => (.ok result, ⟨candidate⟩)

def snapshot (isIpv6Addr : List Char → Bool) (store : InMemoryPolicyStore) :
    Except PolicyStoreError PolicyDocument := do
  store.document.validate isIpv6Addr
  pure store.document

end InMemoryPolicyStore

variable {isIpv6Addr : List Char → Bool}

structure Grant.Valid (isIpv6Addr : List Char → Bool) (grant : Grant) : Prop where
  scope : grant.scope.validate isIpv6Addr = .ok ()
  expiry : ∀ expiry, grant.expiresAt = some expiry → grant.grantedAt < expiry
  revoked : ∀ revoked, grant.revokedAt = some revoked → grant.grantedAt ≤ revoked
  consumed : ∀ consumed, grant.consumedAt = some consumed → grant.grantedAt ≤ consumed
  consumption : grant.consumedAt.isSome = true → grant.effect = .allow ∧ grant.lifetime = .oneShot
  reason : ∀ reason, grant.reason = some reason →
    reason ≠ "" ∧ reason.utf8ByteSize ≤ 512 ∧ ¬reason.toList.any Text.isControl = true

theorem any_false_iff {α : Type} {value : Option α} {test : α → Bool} :
    ¬value.any test = true ↔ ∀ held, value = some held → ¬test held = true := by
  cases value <;> simp

theorem Grant.validate_ok_iff {grant : Grant} : grant.validate isIpv6Addr = .ok () ↔ grant.Valid isIpv6Addr := by
  unfold Grant.validate
  rw [bind_ok_iff]
  simp only [mapError_ok_iff, unless_ok_iff, any_false_iff, decide_eq_true_eq]
  constructor
  · rintro ⟨_, scope, expiry, revoked, consumed, consumption, reason, _⟩
    refine ⟨scope, fun at_ held => by have := expiry at_ held; omega,
      fun at_ held => by have := revoked at_ held; omega,
      fun at_ held => by have := consumed at_ held; omega, fun used => ?_, fun text held => ?_⟩
    · by_contra other
      exact consumption ⟨used, not_and_or.mp other⟩
    · have accepted := reason text held
      rw [not_or, not_or, not_lt] at accepted
      exact accepted
  · rintro ⟨scope, expiry, revoked, consumed, consumption, reason⟩
    refine ⟨(), scope, fun at_ held => by have := expiry at_ held; omega,
      fun at_ held => by have := revoked at_ held; omega,
      fun at_ held => by have := consumed at_ held; omega, ?_, fun text held => ?_, trivial⟩
    · rintro ⟨used, other⟩
      exact not_and_or.mpr other (consumption used)
    · rw [not_or, not_or, not_lt]
      exact reason text held

namespace PolicyDocument

structure Valid (isIpv6Addr : List Char → Bool) (document : PolicyDocument) : Prop where
  schema : document.schemaVersion = policySchemaVersion
  grants : ∀ grant ∈ document.grants, grant.Valid isIpv6Addr
  distinct : (document.grants.map Grant.id).Nodup
  below : ∀ grant ∈ document.grants, grant.id < document.nextGrantId
  positive : 0 < document.nextGrantId

theorem foldlM_validateGrant_iff {grants : List Grant} {seen : Finset Nat} {most bound : Nat} :
    (∃ result, grants.foldlM (validateGrant isIpv6Addr) (seen, most) = .ok result ∧ result.2 < bound) ↔
      (∀ grant ∈ grants, grant.Valid isIpv6Addr) ∧ (grants.map Grant.id).Nodup ∧ (∀ grant ∈ grants, grant.id ∉ seen) ∧
        (∀ grant ∈ grants, grant.id < bound) ∧ most < bound := by
  induction grants generalizing seen most with
  | nil => simp [foldlM, pure, Except.pure]
  | cons first rest ih =>
    have step : ∀ result, (first :: rest).foldlM (validateGrant isIpv6Addr) (seen, most) = .ok result ↔
        first.Valid isIpv6Addr ∧ first.id ∉ seen ∧
          rest.foldlM (validateGrant isIpv6Addr) (insert first.id seen, max most first.id) = .ok result := by
      intro result
      rw [foldlM_cons, bind_ok_iff]
      unfold validateGrant
      simp only [bind_ok_iff, mapError_ok_iff, unless_ok_iff, Except.ok.injEq]
      constructor
      · rintro ⟨_, ⟨_, valid, fresh, rfl⟩, later⟩
        exact ⟨Grant.validate_ok_iff.mp valid, fresh, later⟩
      · rintro ⟨valid, fresh, later⟩
        exact ⟨_, ⟨(), Grant.validate_ok_iff.mpr valid, fresh, rfl⟩, later⟩
    have shape :
        (∃ result, (first :: rest).foldlM (validateGrant isIpv6Addr) (seen, most) = .ok result ∧
          result.2 < bound) ↔
        first.Valid isIpv6Addr ∧ first.id ∉ seen ∧ ∃ result,
          rest.foldlM (validateGrant isIpv6Addr) (insert first.id seen, max most first.id) = .ok result ∧
            result.2 < bound := by
      constructor
      · rintro ⟨result, done, small⟩
        obtain ⟨valid, fresh, later⟩ := (step result).mp done
        exact ⟨valid, fresh, result, later, small⟩
      · rintro ⟨valid, fresh, result, later, small⟩
        exact ⟨result, (step result).mpr ⟨valid, fresh, later⟩, small⟩
    rw [shape, ih]
    simp only [forall_mem_cons, map_cons, nodup_cons, mem_map, not_exists, not_and,
      Finset.mem_insert, not_or, max_lt_iff]
    constructor
    · rintro ⟨valid, fresh, valids, nodup, new, small, most, last⟩
      exact ⟨⟨valid, valids⟩, ⟨fun other member => (new other member).1, nodup⟩,
        ⟨fresh, fun other member => (new other member).2⟩, ⟨last, small⟩, most⟩
    · rintro ⟨⟨valid, valids⟩, ⟨different, nodup⟩, ⟨fresh, new⟩, ⟨last, small⟩, most⟩
      exact ⟨valid, fresh, valids, nodup, fun other member => ⟨different other member, new other member⟩, small, most,
        last⟩

variable {document : PolicyDocument}

theorem validate_ok_iff : document.validate isIpv6Addr = .ok () ↔ document.Valid isIpv6Addr := by
  unfold validate
  simp only [unless_ok_iff, bind_ok_iff, not_not, not_le, and_true]
  rw [foldlM_validateGrant_iff]
  constructor
  · rintro ⟨schema, positive, valid, distinct, _, below, _⟩
    exact ⟨schema, valid, distinct, below, Nat.pos_of_ne_zero positive⟩
  · rintro ⟨schema, valid, distinct, below, positive⟩
    exact ⟨schema, Nat.pos_iff_ne_zero.mp positive, valid, distinct, by simp, below, positive⟩

theorem modifyFirst_eq_map {grants : List Grant} (distinct : (grants.map Grant.id).Nodup) (id : Nat)
    (change : Grant → Grant) :
    modifyFirst (fun grant => grant.id = id) change grants =
      grants.map fun grant => if grant.id = id then change grant else grant := by
  induction grants with
  | nil => rfl
  | cons first rest ih =>
    rw [map_cons, nodup_cons] at distinct
    rw [modifyFirst, map_cons]
    by_cases here : first.id = id
    · have others : rest.map (fun grant => if grant.id = id then change grant else grant) = rest := by
        rw [map_congr_left (g := fun grant => grant), map_id']
        intro grant member
        rw [if_neg]
        intro same
        exact distinct.1 (mem_map.mpr ⟨grant, member, same.trans here.symm⟩)
      rw [if_pos (by simpa using here), if_pos here, others]
    · rw [if_neg (by simpa using here), if_neg here, ih distinct.2]

variable {change : Grant → Grant} {grant : Grant} {id : Nat}

theorem mem_modifyGrant (distinct : (document.grants.map Grant.id).Nodup) :
    grant ∈ (document.modifyGrant id change).grants ↔
      ∃ old ∈ document.grants, (if old.id = id then change old else old) = grant := by
  rw [modifyGrant, modifyFirst_eq_map distinct, mem_map]

theorem Valid.modifyGrant (valid : document.Valid isIpv6Addr) (sameId : ∀ grant, (change grant).id = grant.id)
    (kept : ∀ grant ∈ document.grants, grant.id = id → (change grant).Valid isIpv6Addr) :
    (document.modifyGrant id change).Valid isIpv6Addr where
  schema := valid.schema
  grants grant member := by
    obtain ⟨old, wasThere, rfl⟩ := (mem_modifyGrant valid.distinct).mp member
    split
    · next here => exact kept old wasThere here
    · exact valid.grants old wasThere
  distinct := by
    have ids : (document.modifyGrant id change).grants.map Grant.id = document.grants.map Grant.id := by
      rw [PolicyDocument.modifyGrant, modifyFirst_eq_map valid.distinct, map_map]
      apply map_congr_left
      intro grant _
      dsimp only [Function.comp_apply]
      split
      · exact sameId grant
      · rfl
    rw [ids]
    exact valid.distinct
  below grant member := by
    obtain ⟨old, wasThere, rfl⟩ := (mem_modifyGrant valid.distinct).mp member
    have small := valid.below old wasThere
    split
    · rw [sameId]
      exact small
    · exact small
  positive := valid.positive

theorem findGrant_mem (found : document.findGrant id = some grant) : grant ∈ document.grants ∧ grant.id = id := by
  refine ⟨mem_of_find?_eq_some found, ?_⟩
  simpa using find?_some found

theorem Valid.unique (valid : document.Valid isIpv6Addr) {first second : Grant} (inFirst : first ∈ document.grants)
    (inSecond : second ∈ document.grants) (same : first.id = second.id) : first = second :=
  inj_on_of_nodup_map valid.distinct inFirst inSecond same

theorem findGrant_of_mem (valid : document.Valid isIpv6Addr) (member : grant ∈ document.grants) :
    document.findGrant grant.id = some grant := by
  cases found : document.findGrant grant.id with
  | none =>
    have absent := find?_eq_none.mp found grant member
    simp at absent
  | some other =>
    obtain ⟨inGrants, same⟩ := findGrant_mem found
    rw [valid.unique inGrants member same]

end PolicyDocument

end Nagi.Capability
