import Mathlib.Data.Finset.Card
import Nagi.Launch

/-! The tables of the registry over its operations. What each operation does to them is said once. -/

namespace Nagi.Launch

open Lib Slots Checks List

theorem Name.parse_ok {value : List UInt8} {limit : Nat} {name : Name} (parsed : Name.parse value limit = .ok name) :
    name = value := by
  dsimp only [Name.parse] at parsed
  split at parsed <;> cases parsed
  rfl

variable {appId session : UInt64} {processId : UInt32} {capability : Name} {decision : GrantDecision}

namespace LaunchRegistry

structure Sound (registry : LaunchRegistry) : Prop where
  applications : (registry.manifests.reduceOption.map (·.appId)).Nodup
  processes : (registry.launches.reduceOption.map (·.processId)).Nodup
  sessions : (registry.launches.reduceOption.map fun record => (record.appId, record.appSessionId)).Nodup
  decisions : (registry.consents.reduceOption.map fun consent => (consent.appId, consent.capability)).Nodup
  once : ∀ consent ∈ registry.consents.reduceOption, ∀ session, consent.decision = .allowOnce session →
    registry.isLive consent.appId session
  prompts : ∀ request ∈ registry.pending.reduceOption, registry.isLive request.appId request.appSessionId ∧
    ∃ manifest ∈ registry.manifests.reduceOption, manifest.appId = request.appId ∧ request.capability ∈ manifest.grants

/-- A registry that is sound again, with no prompt that was not there before. -/
structure Follows (registry after : LaunchRegistry) : Prop where
  sound : after.Sound
  prompts : after.pending.reduceOption.Sublist registry.pending.reduceOption

variable {registry after : LaunchRegistry} {parse : List UInt8 → Except DecisionStoreError (List StoredDecision)}

theorem isLive_iff : registry.isLive appId session ↔
    ∃ record ∈ registry.launches.reduceOption, record.appId = appId ∧ record.appSessionId = session := by
  simp [isLive]

/-- The session was launched in the process. -/
def Hosts (registry : LaunchRegistry) (processId : UInt32) (appId session : UInt64) : Prop :=
  ∃ record ∈ registry.launches.reduceOption,
    record.processId = processId ∧ record.appId = appId ∧ record.appSessionId = session

instance : Decidable (registry.Hosts processId appId session) :=
  inferInstanceAs (Decidable (∃ record ∈ registry.launches.reduceOption, _))

theorem checkGrant_declared {check : GrantCheck} (same : registry.checkGrant appId session capability = check)
    (first : check ≠ .notLive) (second : check ≠ .notDeclared) :
    registry.isLive appId session ∧ (registry.manifest appId).any fun manifest => capability ∈ manifest.grants := by
  subst same
  unfold checkGrant at first second
  split_ifs at first second with live declared
  · exact ⟨live, declared⟩
  · exact absurd rfl second
  · exact absurd rfl first

theorem checkGrant_granted_iff : registry.checkGrant appId session capability = .granted ↔
    (registry.isLive appId session ∧ (registry.manifest appId).any fun manifest => capability ∈ manifest.grants) ∧
      (registry.consent appId capability = some .allow ∨
        registry.consent appId capability = some (.allowOnce session)) := by
  have declared : registry.checkGrant appId session capability = .granted → _ :=
    fun granted => checkGrant_declared granted nofun nofun
  rw [← and_iff_right_of_imp declared]
  refine and_congr_right fun declared => ?_
  rw [checkGrant, if_neg (not_not.mpr declared.1), if_neg (not_not.mpr declared.2)]
  cases registry.consent appId capability with
  | none => simp
  | some decision => cases decision <;> simp

theorem new_sound : new.Sound := by
  constructor <;> simp [new]

variable {manifest : AppManifest}

theorem registerManifest_ok (registered : registry.registerManifest manifest = .ok (appId, after)) :
    manifest.appId ∉ registry.manifests.reduceOption.map (·.appId) ∧
      after = { registry with manifests := after.manifests } ∧
      after.manifests.reduceOption.Perm (manifest :: registry.manifests.reduceOption) := by
  simp only [registerManifest, unless_ok_iff] at registered
  obtain ⟨fresh, registered⟩ := registered
  split at registered
  · cases registered
  next manifests placed =>
  cases registered
  exact ⟨by simpa using fresh, rfl, place_perm placed⟩

theorem registerOrMatch_ok (registered : registry.registerOrMatch manifest = .ok (appId, after)) :
    manifest ∈ registry.manifests.reduceOption ∧ after = registry ∨
      registry.registerManifest manifest = .ok (appId, after) := by
  revert registered
  fun_cases registerOrMatch registry manifest with
  | case1 found =>
    rintro ⟨⟩
    exact .inl ⟨mem_of_find?_eq_some found, rfl⟩
  | case2 => rintro ⟨⟩
  | case3 => exact .inr

theorem recordLaunch_ok {placement : LaunchPlacement} {record : LaunchRecord}
    (launched : registry.recordLaunch processId appId placement = .ok (record, after)) :
    record = { placement with processId, appId } ∧
      processId ∉ registry.launches.reduceOption.map (·.processId) ∧
      ¬registry.isLive appId placement.appSessionId ∧ after = { registry with launches := after.launches } ∧
      after.launches.reduceOption.Perm (record :: registry.launches.reduceOption) := by
  simp only [recordLaunch, checkLaunch, unless_ok_iff, bind_ok_iff] at launched
  obtain ⟨-, unused, _, ⟨-, ended, -, -⟩, launched⟩ := launched
  split at launched
  · cases launched
  next launches placed =>
  cases launched
  exact ⟨rfl, by simpa using unused, ended, rfl, place_perm placed⟩

/-- An exit takes out the launch of the process and everything that names its session. -/
theorem call_recordExit (sound : registry.Sound) (processId : UInt32) :
    let after := (registry.call parse (.recordExit processId)).2
    after.manifests = registry.manifests ∧
      after.launches.reduceOption.Perm (registry.launches.reduceOption.filter (!·.processId = processId)) ∧
      (after.consents.reduceOption = registry.consents.reduceOption.filter fun consent =>
        match consent.decision with
        | .allowOnce session => ¬registry.Hosts processId consent.appId session
        | _ => true) ∧
      after.pending.reduceOption = registry.pending.reduceOption.filter fun request =>
        ¬registry.Hosts processId request.appId request.appSessionId := by
  intro after
  cases removed : replaceFirst (·.any fun record => decide (record.processId = processId)) none registry.launches with
  | none =>
    have idle (appId session : UInt64) : ¬registry.Hosts processId appId session :=
      fun ⟨record, held, same, _⟩ => exchange_missed removed record held (decide_eq_true same)
    have same : after = registry := by simp [after, call, recordExit, removed]
    rw [same]
    refine ⟨rfl, .of_eq (filter_missed removed).symm, (filter_eq_self.mpr fun consent _ => ?_).symm, ?_⟩
    · split <;> simp [idle]
    · simp [idle]
  | some launches =>
    obtain ⟨⟨record, found⟩, entries⟩ := exchange_perm (fun _ => decide_eq_true_iff) sound.processes removed
    obtain ⟨held, rfl⟩ := (find?_eq_some_iff (fun _ => decide_eq_true_iff) sound.processes).mp found
    -- the process has no other launch
    have only (appId session : UInt64) : registry.Hosts record.processId appId session ↔
        appId = record.appId ∧ session = record.appSessionId := by
      constructor
      · rintro ⟨other, member, same, rfl, rfl⟩
        rw [inj_on_of_nodup_map sound.processes member held same]
        exact ⟨rfl, rfl⟩
      · rintro ⟨rfl, rfl⟩
        exact ⟨record, held, rfl, rfl, rfl⟩
    dsimp only [after, call, recordExit]
    rw [found, removed]
    refine ⟨rfl, entries, ?_, ?_⟩
    · rw [reduceOption_clear]
      refine filter_congr fun consent _ => ?_
      rcases consent with ⟨_, _, _ | _ | _ | _⟩ <;> simp [only]
    · simp [reduceOption_clear, only]

variable {user : Session} {name : List UInt8}

/-- What a decision that is recorded does to the table: it takes the place of what was decided about the same. -/
theorem recordDecision_ok (sound : registry.Sound)
    (decided : registry.recordDecision user appId name decision = .ok after) :
    user.CanDecide ∧ (∀ session, decision = .allowOnce session → registry.isLive appId session) ∧
      after = { registry with consents := after.consents } ∧ after.consents.length = registry.consents.length ∧
      after.consents.reduceOption.Perm ((if decision = .ask then [] else [⟨appId, name, decision⟩]) ++
        registry.consents.reduceOption.filter (!·.isAbout appId name)) := by
  simp only [recordDecision, unless_ok_iff, bind_ok_iff] at decided
  obtain ⟨allowed, capability, parsed, lapsed, decided⟩ := decided
  obtain rfl := Name.parse_ok parsed
  refine ⟨allowed, ?_, ?_⟩
  · rintro session rfl
    simpa using lapsed
  have named (consent : Consent) : consent.isAbout appId capability ↔
      (consent.appId, consent.capability) = (appId, capability) := by simp [Consent.isAbout]
  split at decided
  · next ask =>
    cases decided
    rw [if_pos ask, nil_append]
    refine ⟨rfl, ?_, removed_perm named sound.decisions⟩
    dsimp only
    cases replaced : replaceFirst (·.any (Consent.isAbout appId capability)) none registry.consents with
    | none => rfl
    | some consents => exact length_replaceFirst replaced
  · next given =>
    split at decided
    · cases decided
    next consents replaced =>
    cases decided
    rw [if_neg given]
    obtain first | ⟨missed, free⟩ := Option.or_eq_some_iff.mp replaced
    · exact ⟨rfl, length_replaceFirst first, (exchange_perm named sound.decisions first).2⟩
    · exact ⟨rfl, length_replaceFirst free, (place_perm free).trans (.of_eq (by rw [filter_missed missed]; rfl))⟩

theorem mem_of_recordDecision (sound : registry.Sound)
    (decided : registry.recordDecision user appId name decision = .ok after) {consent : Consent} :
    consent ∈ after.consents.reduceOption ↔ decision ≠ .ask ∧ consent = ⟨appId, name, decision⟩ ∨
      consent ∈ registry.consents.reduceOption ∧ ¬consent.isAbout appId name := by
  obtain ⟨-, -, -, -, entries⟩ := recordDecision_ok sound decided
  rw [entries.mem_iff, mem_append, mem_filter]
  split
  · next ask => simp [ask]
  · next given => simp [given]

namespace Sound

variable (sound : registry.Sound)
include sound

theorem registerManifest (registered : registry.registerManifest manifest = .ok (appId, after)) :
    registry.Follows after := by
  obtain ⟨fresh, same, entries⟩ := registerManifest_ok registered
  rw [same]
  refine ⟨{ sound with
    applications := (entries.map _).nodup_iff.mpr (nodup_cons.mpr ⟨fresh, sound.applications⟩)
    prompts := fun request member => ?_ }, .refl _⟩
  obtain ⟨live, other, held, declares⟩ := sound.prompts request member
  exact ⟨live, other, entries.mem_iff.mpr (mem_cons_of_mem _ held), declares⟩

theorem registerOrMatch (registered : registry.registerOrMatch manifest = .ok (appId, after)) :
    registry.Follows after := by
  obtain ⟨-, rfl⟩ | new := registerOrMatch_ok registered
  · exact ⟨sound, .refl _⟩
  · exact sound.registerManifest new

theorem recordLaunch {placement : LaunchPlacement} {record : LaunchRecord}
    (launched : registry.recordLaunch processId appId placement = .ok (record, after)) : registry.Follows after := by
  obtain ⟨rfl, unused, ended, same, entries⟩ := recordLaunch_ok launched
  have longer {appId session : UInt64} (live : registry.isLive appId session) : after.isLive appId session := by
    rw [isLive_iff] at live ⊢
    obtain ⟨record, held, same⟩ := live
    exact ⟨record, entries.mem_iff.mpr (mem_cons_of_mem _ held), same⟩
  rw [same] at longer ⊢
  refine ⟨{ sound with
    processes := (entries.map _).nodup_iff.mpr (nodup_cons.mpr ⟨unused, sound.processes⟩)
    sessions := (entries.map _).nodup_iff.mpr (nodup_cons.mpr ⟨?_, sound.sessions⟩)
    once := fun consent member session once => longer (sound.once consent member session once)
    prompts := fun request member => (sound.prompts request member).imp_left longer }, .refl _⟩
  intro again
  obtain ⟨record, held, same⟩ := mem_map.mp again
  obtain ⟨app, other⟩ := Prod.mk.inj same
  exact ended (isLive_iff.mpr ⟨record, held, app, other⟩)

theorem recordExit (processId : UInt32) : registry.Follows (registry.call parse (.recordExit processId)).2 := by
  obtain ⟨manifests, launches, consents, prompts⟩ := @call_recordExit _ parse sound processId
  generalize (registry.call parse (.recordExit processId)).2 = after at *
  have stays {appId session : UInt64} (live : registry.isLive appId session)
      (other : ¬registry.Hosts processId appId session) : after.isLive appId session := by
    rw [isLive_iff] at live ⊢
    obtain ⟨record, held, rfl, rfl⟩ := live
    refine ⟨record, launches.mem_iff.mpr (mem_filter.mpr ⟨held, ?_⟩), rfl, rfl⟩
    simpa using fun same => other ⟨record, held, same, rfl, rfl⟩
  refine ⟨⟨manifests ▸ sound.applications, ?_, ?_, consents ▸ sound.decisions.sublist (filter_sublist.map _), ?_, ?_⟩,
    prompts ▸ filter_sublist⟩
  · exact (launches.map _).nodup_iff.mpr (sound.processes.sublist (filter_sublist.map _))
  · exact (launches.map _).nodup_iff.mpr (sound.sessions.sublist (filter_sublist.map _))
  · intro consent member session once
    rw [consents, mem_filter, once] at member
    exact stays (sound.once consent member.1 session once) (of_decide_eq_true member.2)
  · intro request member
    rw [prompts, mem_filter, decide_eq_true_eq] at member
    rw [manifests]
    exact (sound.prompts request member.1).imp_left fun live => stays live member.2

theorem recordDecision (decided : registry.recordDecision user appId name decision = .ok after) :
    registry.Follows after := by
  obtain ⟨-, live, same, -, entries⟩ := recordDecision_ok sound decided
  have once (consent : Consent) (member : consent ∈ after.consents.reduceOption) (session : UInt64)
      (once : consent.decision = .allowOnce session) : registry.isLive consent.appId session := by
    obtain ⟨-, rfl⟩ | ⟨held, -⟩ := (mem_of_recordDecision sound decided).mp member
    · exact live session once
    · exact sound.once consent held session once
  rw [same] at once ⊢
  refine ⟨{ sound with decisions := (entries.map _).nodup_iff.mpr ?_, once }, .refl _⟩
  have distinct : ((registry.consents.reduceOption.filter (!·.isAbout appId name)).map
      fun consent => (consent.appId, consent.capability)).Nodup := sound.decisions.sublist (filter_sublist.map _)
  split
  · exact distinct
  · refine nodup_cons.mpr ⟨fun again => ?_, distinct⟩
    obtain ⟨consent, member, key⟩ := mem_map.mp again
    have other := (mem_filter.mp member).2
    simp [Consent.isAbout, Prod.mk.inj key] at other

variable {request : ConsentRequest}

theorem requestConsent (requested : registry.requestConsent appId session name = .ok (request, after)) :
    after.Sound ∧ (request ∈ registry.pending.reduceOption ∧ after = registry ∨
      request ∉ registry.pending.reduceOption ∧ after = { registry with pending := after.pending } ∧
        replaceFirst Option.isNone (some request) registry.pending = some after.pending) := by
  revert requested
  fun_cases LaunchRegistry.requestConsent registry appId session name with
  | case2 _ _ _ _ _ _ _ known =>
    intro same
    obtain ⟨rfl, rfl⟩ := Prod.mk.inj (Except.ok.inj same)
    exact ⟨sound, .inl ⟨known, rfl⟩⟩
  | case4 _ asks manifest capability parsed found _ fresh pending placed =>
    intro same
    obtain ⟨rfl, rfl⟩ := Prod.mk.inj (Except.ok.inj same)
    refine ⟨{ sound with prompts := fun other member => ?_ }, .inr ⟨fresh, rfl, placed⟩⟩
    obtain rfl | held := mem_cons.mp ((place_perm placed).mem_iff.mp member)
    · obtain ⟨live, declared⟩ := checkGrant_declared (not_not.mp asks) nofun nofun
      refine ⟨live, manifest, mem_of_find?_eq_some found, by simpa using find?_some found, ?_⟩
      rw [found, ← Name.parse_ok parsed] at declared
      exact of_decide_eq_true declared
    · exact sound.prompts other held
  | _ => rintro ⟨⟩

omit sound in
/-- What answering a prompt does: the decision is recorded and the prompt is taken out. -/
theorem resolveConsent_ok {answer : Option GrantDecision}
    (resolved : registry.resolveConsent user request answer = .ok after) :
    ∃ decided pending, (match answer with
      | some decision => registry.recordDecision user request.appId request.capability decision = .ok decided
      | none => decided = registry) ∧
      replaceFirst (· = some request) none registry.pending = some pending ∧ after = { decided with pending } := by
  unfold LaunchRegistry.resolveConsent at resolved
  split at resolved
  · cases resolved
  next pending removed =>
  have answered := (unless_ok_iff.mp resolved).2
  cases answer with
  | none =>
    cases answered
    exact ⟨registry, pending, rfl, removed, rfl⟩
  | some decision =>
    obtain ⟨decided, recorded, same⟩ := bind_ok_iff.mp answered
    cases same
    exact ⟨decided, pending, recorded, removed, rfl⟩

theorem dequeue {pending : List (Option ConsentRequest)}
    (removed : replaceFirst (· = some request) none registry.pending = some pending) :
    registry.Follows { registry with pending } := by
  have part := emptied_sublist removed
  exact ⟨{ sound with prompts := fun other member => sound.prompts other (part.subset member) }, part⟩

theorem resolveConsent {answer : Option GrantDecision}
    (resolved : registry.resolveConsent user request answer = .ok after) : registry.Follows after := by
  obtain ⟨decided, pending, recorded, removed, rfl⟩ := resolveConsent_ok resolved
  cases answer with
  | none =>
    cases recorded
    exact sound.dequeue removed
  | some decision =>
    obtain ⟨-, -, kept, -, -⟩ := recordDecision_ok sound recorded
    have queue : decided.pending = registry.pending := by rw [kept]
    have next := (sound.recordDecision recorded).sound.dequeue (queue ▸ removed)
    exact ⟨next.sound, queue ▸ next.prompts⟩

end Sound

theorem recordAll_follows (user : Session) (decisions : List StoredDecision) (sound : registry.Sound) :
    registry.Follows (registry.recordAll user decisions).2 := by
  induction decisions generalizing registry with
  | nil => exact ⟨sound, .refl _⟩
  | cons decision rest ih =>
    unfold recordAll
    split
    · exact ⟨sound, .refl _⟩
    · next decided =>
      have first := sound.recordDecision decided
      exact ⟨(ih first.sound).sound, (ih first.sound).prompts.trans first.prompts⟩

theorem ok_of_map {result : Except LaunchError LaunchRegistry} {value : Unit}
    (mapped : result.map ((), ·) = .ok (value, after)) : result = .ok after := by
  cases result <;> cases mapped
  rfl

theorem settle_follows {ε α : Type} {reply : Except ε α → Reply} {result : Except ε (α × LaunchRegistry)}
    (sound : registry.Sound) (keeps : ∀ value after, result = .ok (value, after) → registry.Follows after) :
    registry.Follows (registry.settle reply result).2 := by
  cases result with
  | error error => exact ⟨sound, .refl _⟩
  | ok answer => exact keeps answer.1 answer.2 rfl

theorem restoreDecisions_follows (sound : registry.Sound) (user : Session) (bytes : List UInt8) :
    registry.Follows (registry.restoreDecisions parse user bytes).2 := by
  fun_cases restoreDecisions registry parse user bytes with
  | case4 _ decisions _ _ _ _ _ _ same | case5 _ decisions _ _ _ _ _ same =>
    have all := recordAll_follows user decisions sound
    rwa [same] at all
  | _ => exact ⟨sound, .refl _⟩

def queued (registry : LaunchRegistry) : Operation → Option ConsentRequest
  | .requestConsent appId session capability =>
    ((registry.requestConsent appId session capability).toOption.map (·.1)).filter (· ∉ registry.pending.reduceOption)
  | _ => none

/-- An operation queues one prompt in the first free slot, or none. -/
theorem step_cases (sound : registry.Sound) (operation : Operation) :
    registry.queued operation = none ∧ registry.Follows (registry.step parse operation) ∨
      ∃ request, registry.queued operation = some request ∧ (registry.step parse operation).Sound ∧
        request ∉ registry.pending.reduceOption ∧ replaceFirst Option.isNone (some request) registry.pending =
          some (registry.step parse operation).pending := by
  cases operation with
  | registerManifest manifest => exact .inl ⟨rfl, settle_follows sound fun _ _ => sound.registerManifest⟩
  | registerOrMatch manifest => exact .inl ⟨rfl, settle_follows sound fun _ _ => sound.registerOrMatch⟩
  | recordLaunch processId appId placement => exact .inl ⟨rfl, settle_follows sound fun _ _ => sound.recordLaunch⟩
  | recordDecision user appId capability decision =>
    exact .inl ⟨rfl, settle_follows sound fun _ _ mapped => sound.recordDecision (ok_of_map mapped)⟩
  | resolveConsent user request decision =>
    exact .inl ⟨rfl, settle_follows sound fun _ _ mapped => sound.resolveConsent (ok_of_map mapped)⟩
  | restoreDecisions user bytes => exact .inl ⟨rfl, restoreDecisions_follows sound user bytes⟩
  | recordExit processId => exact .inl ⟨rfl, sound.recordExit processId⟩
  | requestConsent appId session capability =>
    simp only [queued, step, call]
    cases requested : registry.requestConsent appId session capability with
    | error check => exact .inl ⟨rfl, sound, .refl _⟩
    | ok result =>
      obtain ⟨next, ⟨known, same⟩ | ⟨fresh, -, placed⟩⟩ := sound.requestConsent requested
      · exact .inl ⟨by simp [Except.toOption, known], next, same ▸ .refl _⟩
      · exact .inr ⟨result.1, by simp [Except.toOption, fresh], next, fresh, placed⟩

theorem step_sound (sound : registry.Sound) (operation : Operation) : (registry.step parse operation).Sound := by
  obtain ⟨_, follows⟩ | ⟨_, _, next, _⟩ := @step_cases _ parse sound operation
  · exact follows.sound
  · exact next

end LaunchRegistry

/-- What a record of decisions can hold. -/
structure Storable (stored : StoredDecision) : Prop where
  named : Name.parse stored.2.1 maxGrantName = .ok stored.2.1
  lasting : stored.2.2 = .allow ∨ stored.2.2 = .deny

theorem Storable.given {stored : StoredDecision} (storable : Storable stored) : stored.2.2 ≠ .ask := by
  rcases storable.lasting with same | same <;> rw [same] <;> nofun

theorem parseWord_some {word : List UInt8} {decision : GrantDecision} (parsed : parseWord word = some decision) :
    decision = .allow ∨ decision = .deny := by
  unfold parseWord at parsed
  split at parsed
  · exact .inl (Option.some.inj parsed).symm
  · split at parsed
    · exact .inr (Option.some.inj parsed).symm
    · cases parsed

theorem parseLine_some {line : List UInt8} {stored : StoredDecision} (parsed : parseLine line = some stored) :
    Storable stored := by
  unfold parseLine at parsed
  split at parsed
  case h_2 => cases parsed
  case h_1 word app capability _ =>
    simp only [Option.bind_eq_bind, Option.bind_eq_some_iff] at parsed
    obtain ⟨decision, word, rest⟩ := parsed
    split at rest
    · cases rest
    obtain ⟨appId, -, name, named, same⟩ := by simpa only [Option.bind_eq_some_iff] using rest
    cases same
    refine ⟨?_, parseWord_some word⟩
    cases parsed : Name.parse capability maxGrantName with
    | error error => simp [parsed, Except.toOption] at named
    | ok value =>
      obtain rfl : value = name := by simpa [parsed, Except.toOption] using named
      rwa [← Name.parse_ok parsed] at parsed

theorem addLine_storable {decisions after : List StoredDecision} {line : List UInt8}
    (storable : ∀ stored ∈ decisions, Storable stored) (added : addLine decisions line = some after) :
    ∀ stored ∈ after, Storable stored := by
  unfold addLine at added
  split at added
  · cases added
    exact storable
  · obtain ⟨⟨appId, capability, decision⟩, parsed, added⟩ := Option.bind_eq_some_iff.mp added
    dsimp only at added
    rw [unless_bind_some_iff] at added
    obtain ⟨-, same⟩ := added
    cases same
    exact forall_mem_append.mpr ⟨storable, forall_mem_singleton.mpr (parseLine_some parsed)⟩

theorem parseDecisions_storable {bytes : List UInt8} {decisions : List StoredDecision}
    (parsed : parseDecisions bytes = .ok decisions) : ∀ stored ∈ decisions, Storable stored := by
  have added (lines : List (List UInt8)) : ∀ earlier, (∀ stored ∈ earlier, Storable stored) → ∀ after,
      lines.foldlM addLine earlier = some after → ∀ stored ∈ after, Storable stored := by
    induction lines with
    | nil =>
      rintro earlier storable after ⟨⟩
      exact storable
    | cons line rest ih =>
      intro earlier storable after done
      obtain ⟨next, first, later⟩ := Option.bind_eq_some_iff.mp done
      exact ih next (addLine_storable storable first) after later
  unfold parseDecisions at parsed
  split at parsed
  case h_2 => cases parsed
  case h_1 read =>
    cases parsed
    simp only [readDecisions, unless_bind_some_iff] at read
    obtain ⟨-, -, -, read⟩ := read
    obtain ⟨_, -, read⟩ := Option.bind_eq_some_iff.mp read
    exact added _ [] nofun decisions (unless_bind_some_iff.mp read).2

namespace LaunchRegistry

variable {registry after : LaunchRegistry} {user : Session}

theorem consent_eq_none_iff : registry.consent appId capability = none ↔
    ∀ consent ∈ registry.consents.reduceOption, ¬consent.isAbout appId capability := by
  rw [consent, Option.map_eq_none_iff, find?_eq_none]

/-- A decision that lasts is recorded if it replaces one or has a free slot. -/
theorem recordDecision_stores (allowed : user.CanDecide) (storable : Storable (appId, capability, decision))
    (room : registry.consent appId capability = none →
      registry.consents.reduceOption.length < registry.consents.length) :
    ∃ after, registry.recordDecision user appId capability decision = .ok after := by
  unfold recordDecision
  rw [if_neg allowed, storable.named, ok_bind]
  dsimp only
  rw [if_neg (by rcases storable.lasting with rfl | rfl <;> nofun), if_neg storable.given]
  split
  case h_2 consents _ => exact ⟨{ registry with consents }, rfl⟩
  case h_1 full =>
    obtain ⟨missed, none⟩ := Option.or_eq_none_iff.mp full
    have free := reduceOption_length_lt_iff.mp (room (consent_eq_none_iff.mpr (exchange_missed missed)))
    exact absurd rfl (replaceFirst_eq_none none _ free)

/-- The applications and capabilities that are decided. -/
def decided (registry : LaunchRegistry) : Finset (UInt64 × Name) :=
  (registry.consents.reduceOption.map fun consent => (consent.appId, consent.capability)).toFinset

theorem mem_decided_iff : (appId, capability) ∈ registry.decided ↔ registry.consent appId capability ≠ none := by
  simp [decided, consent_eq_none_iff, Consent.isAbout]

theorem Sound.card_decided (sound : registry.Sound) :
    registry.decided.card = registry.consents.reduceOption.length := by
  rw [decided, toFinset_card_of_nodup sound.decisions, length_map]

theorem decided_recorded (sound : registry.Sound)
    (recorded : registry.recordDecision user appId capability decision = .ok after) (given : decision ≠ .ask) :
    after.decided = insert (appId, capability) registry.decided := by
  ext ⟨app, name⟩
  simp only [decided, mem_toFinset, mem_map, mem_of_recordDecision sound recorded, Finset.mem_insert, Consent.isAbout,
    decide_eq_true_eq, Prod.mk.injEq, given, ne_eq, not_false_eq_true, true_and, or_and_right, exists_or,
    exists_eq_left]
  grind

def subjects (decisions : List StoredDecision) : Finset (UInt64 × Name) :=
  (decisions.map fun stored => (stored.1, stored.2.1)).toFinset

theorem subjects_cons (stored : StoredDecision) (rest : List StoredDecision) :
    subjects (stored :: rest) = insert (stored.1, stored.2.1) (subjects rest) := toFinset_cons

theorem recordAll_ok {decisions : List StoredDecision} (sound : registry.Sound) (allowed : user.CanDecide)
    (storable : ∀ stored ∈ decisions, Storable stored)
    (room : (registry.decided ∪ subjects decisions).card ≤ registry.consents.length) :
    (registry.recordAll user decisions).1 = .ok () := by
  induction decisions generalizing registry with
  | nil => rfl
  | cons stored rest ih =>
    obtain ⟨appId, capability, decision⟩ := stored
    obtain ⟨first, later⟩ := forall_mem_cons.mp storable
    rw [subjects_cons, Finset.union_insert, ← Finset.insert_union] at room
    obtain ⟨after, recorded⟩ : ∃ after, registry.recordDecision user appId capability decision = .ok after := by
      refine recordDecision_stores allowed first fun absent => ?_
      have fits := (Finset.card_le_card Finset.subset_union_left).trans room
      rwa [Finset.card_insert_of_notMem fun known => mem_decided_iff.mp known absent, sound.card_decided] at fits
    obtain ⟨-, -, -, size, -⟩ := recordDecision_ok sound recorded
    -- what is decided or still to be recorded has not changed
    rw [← decided_recorded sound recorded first.given, ← size] at room
    rw [recordAll, recorded]
    exact ih (sound.recordDecision recorded).sound later room

theorem card_subjects_le (sound : registry.Sound) (decisions : List StoredDecision) :
    (registry.decided ∪ subjects decisions).card ≤ registry.consents.reduceOption.length +
      decisions.countP fun stored => (registry.consent stored.1 stored.2.1).isNone := by
  rw [← sound.card_decided]
  induction decisions with
  | nil => simp [subjects]
  | cons stored rest ih =>
    rw [subjects_cons, Finset.union_insert, countP_cons]
    by_cases known : (stored.1, stored.2.1) ∈ registry.decided
    · rw [Finset.insert_eq_of_mem (Finset.mem_union_left _ known)]
      omega
    · have more := Finset.card_insert_le (stored.1, stored.2.1) (registry.decided ∪ subjects rest)
      rw [if_pos (Option.isNone_iff_eq_none.mpr (not_not.mp (mem_decided_iff.not.mp known)))]
      omega

/-- An error leaves the registry as it is; otherwise every decision of the record is recorded. -/
theorem restoreDecisions_cases (sound : registry.Sound) (user : Session) (bytes : List UInt8) :
    (∃ error, registry.restoreDecisions parseDecisions user bytes = (.error error, registry)) ∨
      ∃ decisions after, parseDecisions bytes = .ok decisions ∧ user.CanDecide ∧
        registry.recordAll user decisions = (.ok (), after) ∧
        registry.restoreDecisions parseDecisions user bytes = (.ok decisions.length, after) := by
  unfold restoreDecisions
  split
  · exact .inl ⟨_, rfl⟩
  next allowed =>
  split
  · exact .inl ⟨_, rfl⟩
  next decisions parsed =>
  dsimp only
  split
  · exact .inl ⟨_, rfl⟩
  next enough =>
  have whole := length_eq_reduceOption_length_add_filter_none (l := registry.consents)
  have recorded : (registry.recordAll user decisions).1 = .ok () := by
    refine recordAll_ok sound allowed (parseDecisions_storable parsed) ((card_subjects_le sound decisions).trans ?_)
    refine (Nat.add_le_add_left (Nat.not_lt.mp enough) _).trans ?_
    rw [whole, countP_eq_length_filter]
  split
  · next all => rw [all] at recorded; cases recorded
  · next after all => exact .inr ⟨decisions, after, parsed, allowed, all, rfl⟩

end LaunchRegistry

end Nagi.Launch
