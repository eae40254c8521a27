import Nagi.Launch.Tables

/-! What a grant rests on, read off the trace of a run. -/

namespace Nagi.Launch

open Lib Slots Checks List Runs

/-- What a call of the registry shows: a manifest that was accepted, a launch, the exit of a process, a decision that
was recorded. -/
inductive Entry where
  | registered (manifest : AppManifest)
  | launched (processId : UInt32) (appId session : UInt64)
  | exited (processId : UInt32)
  | decided (user : Session) (appId : UInt64) (capability : Name) (decision : GrantDecision)

namespace Entry

def Decides (appId : UInt64) (capability : Name) : Entry → Prop
  | decided _ app other _ => app = appId ∧ other = capability
  | _ => False

/-- The decision of someone who may decide. -/
def Gives (appId : UInt64) (capability : Name) (decision : GrantDecision) (entry : Entry) : Prop :=
  ∃ user : Session, user.CanDecide ∧ entry = decided user appId capability decision

end Entry

/-- Read off a call and its reply. An exit shows whatever the reply is. -/
def entries : Operation → Reply → List Entry
  | .registerManifest manifest, .registered (.ok _) => [.registered manifest]
  | .registerOrMatch manifest, .registered (.ok _) => [.registered manifest]
  | .recordLaunch processId appId placement, .launched (.ok _) => [.launched processId appId placement.appSessionId]
  | .recordExit processId, _ => [.exited processId]
  | .recordDecision user appId capability decision, .decided (.ok _) => [.decided user appId capability decision]
  | .resolveConsent user request (some decision), .decided (.ok _) =>
    [.decided user request.appId request.capability decision]
  | .restoreDecisions user bytes, .restored (.ok _) =>
    ((parseDecisions bytes).toOption.getD []).map fun stored => .decided user stored.1 stored.2.1 stored.2.2
  | _, _ => []

def history (operations : List Operation) : List Entry :=
  (trace (LaunchRegistry.call parseDecisions) .new operations).flatMap fun event => entries event.action event.result

variable {log : List Entry} {appId session : UInt64} {processId : UInt32} {capability : Name} {decision : GrantDecision}

/-- The session was launched in the process, which has not exited since. -/
def Bound (log : List Entry) (processId : UInt32) (appId session : UInt64) : Prop :=
  Since (fun _ entry => entry = .launched processId appId session) (· ≠ .exited processId) log

def LastDecided (log : List Entry) (appId : UInt64) (capability : Name) (decision : GrantDecision) : Prop :=
  Since (fun _ entry => entry.Gives appId capability decision) (¬·.Decides appId capability) log

/-- The last decision about the capability allows it to the session, and was made since that was launched in the
process. -/
def OnceDecided (log : List Entry) (processId : UInt32) (appId session : UInt64) (capability : Name) : Prop :=
  Since (fun earlier entry => Bound earlier processId appId session ∧ entry.Gives appId capability (.allowOnce session))
    (fun entry => ¬entry.Decides appId capability ∧ entry ≠ .exited processId) log

/-- What a grant rests on: the manifest, a launch that has not ended, and the last decision. -/
structure Grounded (log : List Entry) (appId session : UInt64) (capability : Name) : Prop where
  declared : ∃ manifest, .registered manifest ∈ log ∧ manifest.appId = appId ∧ capability ∈ manifest.grants
  decided : ∃ processId, Bound log processId appId session ∧
    (LastDecided log appId capability .allow ∨ OnceDecided log processId appId session capability)

theorem Entry.Gives.decides {entry : Entry} (gives : entry.Gives appId capability decision) :
    entry.Decides appId capability := by
  obtain ⟨user, _, rfl⟩ := gives
  exact ⟨rfl, rfl⟩

theorem OnceDecided.bound (once : OnceDecided log processId appId session capability) :
    Bound log processId appId session := by
  obtain ⟨earlier, entry, later, rfl, ⟨bound, _, _, rfl⟩, since⟩ := once
  exact Since.append bound (forall_mem_cons.mpr ⟨nofun, fun other member => (since other member).2⟩)

theorem OnceDecided.last (once : OnceDecided log processId appId session capability) :
    LastDecided log appId capability (.allowOnce session) := by
  obtain ⟨earlier, entry, later, rfl, ⟨_, gives⟩, since⟩ := once
  exact ⟨earlier, entry, later, rfl, gives, fun other member => (since other member).1⟩

/-- The decision is the last one about its capability; one for a session was made during its present launch. -/
def InForce (log : List Entry) (consent : Consent) : Prop :=
  match consent.decision with
  | .ask => False
  | .allowOnce session => ∃ processId, OnceDecided log processId consent.appId session consent.capability
  | decision => LastDecided log consent.appId consent.capability decision

namespace LaunchRegistry

variable {registry after : LaunchRegistry}

structure Tracked (registry : LaunchRegistry) (log : List Entry) : Prop where
  manifests : ∀ manifest, manifest ∈ registry.manifests.reduceOption ↔ .registered manifest ∈ log
  launches : ∀ processId appId session, registry.Hosts processId appId session ↔ Bound log processId appId session
  consents : ∀ consent, consent ∈ registry.consents.reduceOption ↔ InForce log consent

theorem inForce_concat {entry : Entry} {consent : Consent} (quiet : ∀ appId capability, ¬entry.Decides appId capability)
    (stays : ∀ processId, entry ≠ .exited processId) : InForce (log ++ [entry]) consent ↔ InForce log consent := by
  have gives {appId : UInt64} {capability : Name} {decision : GrantDecision} : ¬entry.Gives appId capability decision :=
    fun given => quiet _ _ given.decides
  rcases consent with ⟨_, _, _ | _ | _ | _⟩ <;>
    simp [InForce, LastDecided, OnceDecided, since_concat, gives, quiet, stays]

namespace Tracked

variable (tracked : registry.Tracked log)
include tracked

theorem register {manifest : AppManifest} (kept : after = { registry with manifests := after.manifests })
    (entries : ∀ other, other ∈ after.manifests.reduceOption ↔
      other = manifest ∨ other ∈ registry.manifests.reduceOption) : after.Tracked (log ++ [.registered manifest]) := by
  rw [kept]
  constructor
  · intro other
    rw [entries, tracked.manifests]
    simp [or_comm]
  · intro processId appId session
    refine (tracked.launches ..).trans ?_
    simp [Bound, since_concat]
  · intro consent
    rw [tracked.consents, inForce_concat (by simp [Entry.Decides]) (by simp)]

theorem registerManifest {manifest : AppManifest}
    (registered : registry.registerManifest manifest = .ok (appId, after)) :
    after.Tracked (log ++ [.registered manifest]) := by
  obtain ⟨-, kept, entries⟩ := registerManifest_ok registered
  exact tracked.register kept fun other => entries.mem_iff.trans mem_cons

theorem launch {placement : LaunchPlacement} {record : LaunchRecord}
    (launched : registry.recordLaunch processId appId placement = .ok (record, after)) :
    after.Tracked (log ++ [.launched processId appId placement.appSessionId]) := by
  obtain ⟨rfl, -, -, kept, entries⟩ := recordLaunch_ok launched
  rw [kept]
  constructor
  · intro other
    rw [tracked.manifests]
    simp
  · intro process app session
    simp only [Hosts, entries.mem_iff, exists_mem_cons_iff]
    rw [← Hosts, tracked.launches]
    simp [Bound, since_concat]
  · intro consent
    rw [tracked.consents, inForce_concat (by simp [Entry.Decides]) (by simp)]

variable (sound : registry.Sound)
include sound

theorem bound_unique {process : UInt32} (first : Bound log processId appId session)
    (second : Bound log process appId session) : processId = process := by
  obtain ⟨record, held, rfl, rfl, rfl⟩ := (tracked.launches ..).mpr first
  obtain ⟨other, member, rfl, app, session⟩ := (tracked.launches ..).mpr second
  rw [inj_on_of_nodup_map sound.sessions held member (by rw [app, session])]

theorem exit (processId : UInt32) :
    (registry.call parseDecisions (.recordExit processId)).2.Tracked (log ++ [.exited processId]) := by
  obtain ⟨manifests, launches, consents, -⟩ := @call_recordExit _ parseDecisions sound processId
  constructor
  · intro manifest
    rw [manifests, tracked.manifests]
    simp
  · intro process app session
    simp only [Bound, since_concat, ne_eq, Entry.exited.injEq, reduceCtorEq, false_or]
    rw [← Bound, ← tracked.launches, Hosts, Hosts]
    simp only [launches.mem_iff, mem_filter, Bool.not_eq_true', decide_eq_false_iff_not]
    constructor
    · rintro ⟨record, ⟨held, other⟩, rfl, same⟩
      exact ⟨⟨record, held, rfl, same⟩, Ne.symm other⟩
    · rintro ⟨⟨record, held, rfl, same⟩, other⟩
      exact ⟨record, ⟨held, Ne.symm other⟩, rfl, same⟩
  · rintro ⟨app, name, decision⟩
    rw [consents, mem_filter, tracked.consents]
    cases decision with
    | ask => simp [InForce]
    | allow | deny => simp [InForce, LastDecided, since_concat, Entry.Gives, Entry.Decides]
    | allowOnce session =>
      -- the process in which the session was launched when the decision was made has not exited since
      have ended (process : UInt32) : OnceDecided (log ++ [.exited processId]) process app session name ↔
          OnceDecided log process app session name ∧ process ≠ processId := by
        simp [OnceDecided, since_concat, Entry.Gives, Entry.Decides, eq_comm]
      simp only [InForce, ended, decide_eq_true_eq, tracked.launches]
      constructor
      · rintro ⟨⟨process, once⟩, kept⟩
        exact ⟨process, once, fun same => kept (same ▸ once.bound)⟩
      · rintro ⟨process, once, other⟩
        exact ⟨⟨process, once⟩, fun bound => other (tracked.bound_unique sound once.bound bound)⟩

theorem decide {user : Session} (decided : registry.recordDecision user appId capability decision = .ok after) :
    after.Tracked (log ++ [.decided user appId capability decision]) := by
  obtain ⟨allowed, live, kept, -, -⟩ := recordDecision_ok sound decided
  have consents := @mem_of_recordDecision _ _ _ _ _ _ sound decided
  rw [kept] at consents ⊢
  constructor
  · intro manifest
    rw [tracked.manifests]
    simp
  · intro process app session
    refine (tracked.launches ..).trans ?_
    simp [Bound, since_concat]
  · rintro ⟨app, name, given⟩
    have about : (⟨app, name, given⟩ : Consent).isAbout appId capability ↔
        (Entry.decided user appId capability decision).Decides app name := by
      simp only [Consent.isAbout, decide_eq_true_eq, Entry.Decides]
      exact and_congr eq_comm eq_comm
    have new : decision ≠ .ask ∧ (⟨app, name, given⟩ : Consent) = ⟨appId, capability, decision⟩ ↔
        given ≠ .ask ∧ (Entry.decided user appId capability decision).Gives app name given := by
      constructor
      · rintro ⟨some, ⟨⟩⟩
        exact ⟨some, user, allowed, rfl⟩
      · rintro ⟨some, _, _, ⟨⟩⟩
        exact ⟨some, rfl⟩
    rw [consents, tracked.consents, about, new]
    cases given with
    | ask => simp [InForce]
    | allow | deny => simp [InForce, LastDecided, since_concat]
    | allowOnce session =>
      constructor
      · rintro (⟨-, gives⟩ | ⟨⟨process, once⟩, other⟩)
        · have bound : ∃ process, Bound log process app session := by
            obtain ⟨_, _, ⟨⟩⟩ := gives
            obtain ⟨record, held, rfl, rfl⟩ := isLive_iff.mp (live session rfl)
            exact ⟨record.processId, (tracked.launches ..).mp ⟨record, held, rfl, rfl, rfl⟩⟩
          exact bound.imp fun process bound => since_concat.mpr (.inl ⟨bound, gives⟩)
        · exact ⟨process, since_concat.mpr (.inr ⟨once, other, by simp⟩)⟩
      · rintro ⟨process, once⟩
        rcases since_concat.mp once with ⟨-, gives⟩ | ⟨once, other, -⟩
        · exact .inl ⟨by simp, gives⟩
        · exact .inr ⟨⟨process, once⟩, other⟩

omit sound

theorem dequeued (pending : List (Option ConsentRequest)) : { registry with pending }.Tracked log :=
  ⟨tracked.manifests, tracked.launches, tracked.consents⟩

end Tracked

theorem recordAll_tracked {user : Session} {decisions : List StoredDecision} (sound : registry.Sound)
    (tracked : registry.Tracked log) (recorded : registry.recordAll user decisions = (.ok (), after)) :
    after.Tracked (log ++ decisions.map fun stored => .decided user stored.1 stored.2.1 stored.2.2) := by
  induction decisions generalizing registry log with
  | nil =>
    cases recorded
    simpa using tracked
  | cons stored rest ih =>
    unfold recordAll at recorded
    split at recorded
    · cases recorded
    next decided =>
    have later := ih (sound.recordDecision decided).sound (tracked.decide sound decided) recorded
    simpa using later

theorem settle_tracked {ε α : Type} {reply : Except ε α → Reply} {result : Except ε (α × LaunchRegistry)}
    {operation : Operation} (tracked : registry.Tracked log)
    (quiet : ∀ error, entries operation (reply (.error error)) = [])
    (keeps : ∀ value after, result = .ok (value, after) →
      after.Tracked (log ++ entries operation (reply (.ok value)))) :
    (registry.settle reply result).2.Tracked (log ++ entries operation (registry.settle reply result).1) := by
  cases result with
  | error error => simpa [settle, quiet] using tracked
  | ok answer => exact keeps answer.1 answer.2 rfl

theorem call_tracked (sound : registry.Sound) (tracked : registry.Tracked log) (operation : Operation) :
    (registry.call parseDecisions operation).2.Tracked
      (log ++ entries operation (registry.call parseDecisions operation).1) := by
  have same : registry.Tracked (log ++ []) := by rwa [append_nil]
  cases operation with
  | registerManifest manifest => exact settle_tracked tracked (fun _ => rfl) fun _ _ => tracked.registerManifest
  | registerOrMatch manifest =>
    refine settle_tracked tracked (fun _ => rfl) fun _ _ registered => ?_
    obtain ⟨known, rfl⟩ | new := registerOrMatch_ok registered
    · exact tracked.register rfl fun other => ⟨.inr, fun either => either.elim (· ▸ known) id⟩
    · exact tracked.registerManifest new
  | recordLaunch processId appId placement =>
    exact settle_tracked tracked (fun _ => rfl) fun _ _ => tracked.launch
  | recordExit processId => exact tracked.exit sound processId
  | recordDecision user appId capability decision =>
    exact settle_tracked tracked (fun _ => rfl) fun _ _ mapped => tracked.decide sound (ok_of_map mapped)
  | requestConsent appId session capability =>
    refine settle_tracked tracked (fun _ => rfl) fun _ _ requested => ?_
    obtain ⟨-, ⟨-, rfl⟩ | ⟨-, kept, -⟩⟩ := sound.requestConsent requested
    · exact same
    · exact kept ▸ same.dequeued _
  | resolveConsent user request answer =>
    refine settle_tracked tracked (fun _ => by cases answer <;> rfl) fun _ _ mapped => ?_
    obtain ⟨decided, pending, recorded, -, rfl⟩ := Sound.resolveConsent_ok (ok_of_map mapped)
    cases answer with
    | none =>
      cases recorded
      exact same.dequeued pending
    | some decision => exact (tracked.decide sound recorded).dequeued pending
  | restoreDecisions user bytes =>
    dsimp only [call]
    obtain ⟨error, failed⟩ | ⟨decisions, after, parsed, -, recorded, restored⟩ :=
      restoreDecisions_cases sound user bytes
    · rw [failed]
      exact same
    · rw [restored]
      have all := recordAll_tracked sound tracked recorded
      simpa [entries, parsed, Except.toOption] using all

theorem manifest_eq_some_iff (sound : registry.Sound) {manifest : AppManifest} :
    registry.manifest appId = some manifest ↔ manifest ∈ registry.manifests.reduceOption ∧ manifest.appId = appId :=
  find?_eq_some_iff (fun _ => decide_eq_true_iff) sound.applications

theorem consent_eq_some_iff (sound : registry.Sound) : registry.consent appId capability = some decision ↔
    ⟨appId, capability, decision⟩ ∈ registry.consents.reduceOption := by
  have found {consent : Consent} :
      registry.consents.reduceOption.find? (Consent.isAbout appId capability) = some consent ↔
      consent ∈ registry.consents.reduceOption ∧ (consent.appId, consent.capability) = (appId, capability) :=
    find?_eq_some_iff (by simp [Consent.isAbout]) sound.decisions
  rw [consent, Option.map_eq_some_iff]
  constructor
  · rintro ⟨consent, first, rfl⟩
    obtain ⟨held, key⟩ := found.mp first
    obtain ⟨rfl, rfl⟩ := Prod.mk.inj key
    exact held
  · exact fun held => ⟨_, found.mpr ⟨held, rfl⟩, rfl⟩

theorem granted_iff (sound : registry.Sound) (tracked : registry.Tracked log) :
    registry.checkGrant appId session capability = .granted ↔ Grounded log appId session capability := by
  have declared : ((registry.manifest appId).any fun manifest => capability ∈ manifest.grants) ↔
      ∃ manifest, .registered manifest ∈ log ∧ manifest.appId = appId ∧ capability ∈ manifest.grants := by
    simp only [Option.any_eq_true, manifest_eq_some_iff sound, tracked.manifests, decide_eq_true_eq, and_assoc]
  have live : registry.isLive appId session ↔ ∃ processId, Bound log processId appId session := by
    simp only [isLive_iff, ← tracked.launches]
    exact ⟨fun ⟨record, held, same⟩ => ⟨_, record, held, rfl, same⟩,
      fun ⟨_, record, held, _, same⟩ => ⟨record, held, same⟩⟩
  rw [checkGrant_granted_iff, declared, live, consent_eq_some_iff sound, consent_eq_some_iff sound, tracked.consents,
    tracked.consents]
  constructor
  · rintro ⟨⟨⟨process, bound⟩, declared⟩, allow | ⟨process', once⟩⟩
    · exact ⟨declared, process, bound, .inl allow⟩
    · exact ⟨declared, process', once.bound, .inr once⟩
  · rintro ⟨declared, process, bound, allow | once⟩
    · exact ⟨⟨⟨process, bound⟩, declared⟩, .inl allow⟩
    · exact ⟨⟨⟨process, bound⟩, declared⟩, .inr ⟨process, once⟩⟩

/-- The call decides against the capability or asks again, or the process of the session exits. -/
def Revokes (log : List Entry) (operation : Operation) (reply : Reply) (appId session : UInt64) (capability : Name) :
    Prop :=
  (∃ decision, Since (fun _ entry => ∃ user, entry = .decided user appId capability decision)
    (¬·.Decides appId capability) (entries operation reply) ∧ (decision = .deny ∨ decision = .ask)) ∨
  ∃ processId, operation = .recordExit processId ∧ Bound log processId appId session

theorem revoked (sound : registry.Sound) (tracked : registry.Tracked log) {operation : Operation}
    (revokes : Revokes log operation (registry.call parseDecisions operation).1 appId session capability) :
    (registry.call parseDecisions operation).2.checkGrant appId session capability ≠ .granted := by
  intro granted
  have next := call_tracked sound tracked operation
  obtain ⟨-, process, bound, decided⟩ := (granted_iff (step_sound sound operation) next).mp granted
  rcases revokes with ⟨decision, against, negative⟩ | ⟨processId, rfl, before⟩
  · obtain ⟨given, last, allows⟩ : ∃ given, LastDecided (log ++ entries operation _) appId capability given ∧
        ¬(given = .deny ∨ given = .ask) := by
      obtain allow | once := decided
      · exact ⟨_, allow, by simp⟩
      · exact ⟨_, once.last, by simp⟩
    obtain ⟨_, _, ⟨_, _, rfl⟩, user, same⟩ := last.unique (against.prepend log)
      (fun _ _ gives => not_not.mpr gives.decides) fun _ _ ⟨_, same⟩ => same ▸ not_not.mpr ⟨rfl, rfl⟩
    cases same
    exact allows negative
  · -- the session was bound to the process that exits, so it cannot be bound to another one
    obtain impossible | ⟨still, other⟩ := since_concat.mp bound
    · cases impossible
    exact other (congrArg Entry.exited (tracked.bound_unique sound before still))

/-- What was allowed once is not allowed to the same session launched again. -/
example :
    let app := AppId.fromIdentifier [0x61]
    let first := [.registerManifest ⟨[0x61], [[0x63]]⟩, .recordLaunch 2 app ⟨1, 1, none⟩,
      .recordDecision ⟨1, false⟩ app [0x63] (.allowOnce 1)]
    let again := [.recordExit 2, .recordLaunch 3 app ⟨1, 1, none⟩]
    (run parseDecisions first).checkGrant app 1 [0x63] = .granted ∧
      (run parseDecisions (first ++ again)).checkGrant app 1 [0x63] = .consentRequired := by
  decide +kernel

end LaunchRegistry

end Nagi.Launch
