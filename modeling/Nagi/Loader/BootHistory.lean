import Nagi.Loader.BootSelection
import Nagi.Loader.Trials

/-! What a sequence of boots can do to the journal.

Every change of the journal comes with a new generation, so that an old readiness
record matches only while nothing has changed since. -/

namespace Nagi.Loader

open Nagi.BootInfo Lib Runs

def Store.journalState (store : Store) : Option BootControlState := store.current.toOption.map CurrentState.state

variable {store : Store} {state : BootControlState}

theorem Store.journalState_eq_some : store.journalState = some state ↔ ∃ copy, store.current = .ok ⟨state, copy⟩ := by
  unfold Store.journalState
  cases store.current with
  | error _ => simp [Except.toOption]
  | ok found =>
    obtain ⟨held, copy⟩ := found
    simp [Except.toOption]

theorem Store.Leading.journalState {copy : RecordCopy} (leading : store.Leading copy state) :
    store.journalState = some state :=
  Store.journalState_eq_some.mpr ⟨some copy, leading⟩

/-- What an operation does to the journal if no write is cut short. -/
inductive Done (state : BootControlState) (operation : Operation) :
    Except BootControlError (Option BootDecision) → BootControlState → Prop where
  | refused {error : BootControlError} : Done state operation (.error error) state
  | answered {reply : Option BootDecision} (intends : operation.intends state = .ok (reply, none)) :
      Done state operation (.ok reply) state
  | written {reply : Option BootDecision} {next : BootControlState} {generation : BitVec 64}
      (intends : operation.intends state = .ok (reply, some next)) (newer : state.generation < generation) :
      Done state operation (.ok reply) { next with generation := generation }

theorem Store.current_blank (blank : store.current = .ok ⟨state, none⟩) :
    state = .initial ∧ store.record .first = none ∧ store.record .second = none := by
  revert blank
  fun_cases Store.current store with
  | case1 _ _ absent =>
    rintro ⟨⟩
    exact ⟨rfl, absent⟩
  | _ => rintro ⟨⟩

theorem stageUpdate_blank (absent : ∀ copy, store.record copy = none) (faithful : store.interruption = none) :
    ∃ after, stageUpdate .b store = .ok () after ∧
      after.journalState = some { BootControlState.initial with pending := some .b, generation := 2 } := by
  let based : Store :=
    { store with
      record := Function.update store.record .first (some baselineRecord)
      writes := store.writes ++ [(.first, baselineRecord)] }
  have written : writeRecord .first baselineRecord store = .ok () based := by
    simp [writeRecord, faithful, based]
  have unwritten : accepted (based.record .second) = none := by
    simp [based, absent, accepted]
  have leading : based.Leading .first baseline := load_baseline rfl unwritten
  have succ : checkedSucc baseline.generation = some 2 := rfl
  obtain ⟨after, _, ⟨done, leads⟩ | ⟨_, ⟨_, crashed⟩, _⟩⟩ :=
    leading.persisted { baseline with pending := some .b, attempts := 0 } succ (encodeRecord_eq rfl)
  · refine ⟨after, ?_, leads.journalState⟩
    rw [stageUpdate_absent absent, bind_ok written, bind_ok leading.current_apply]
    exact done
  · cases faithful.symm.trans crashed

theorem step_blank (blank : store.current = .ok ⟨.initial, none⟩) (operation : Operation) :
    ∃ state, (step store (operation, none)).2.journalState = some state ∧
      Done .initial operation (step store (operation, none)).1 state := by
  have found : current (store.armed none) = .ok ⟨.initial, none⟩ (store.armed none) := by
    have same : (store.armed none).current = .ok ⟨.initial, none⟩ := blank
    simp [current, same]
  have unchanged : (store.armed none).journalState = some .initial := Store.journalState_eq_some.mpr ⟨none, blank⟩
  rcases operation with (_ | _) | _ | (_ | _)
  case stageUpdate.b =>
    obtain ⟨_, first, second⟩ := Store.current_blank blank
    have absent (copy : RecordCopy) : (store.armed none).record copy = none := by
      cases copy
      · exact first
      · exact second
    obtain ⟨after, done, holds⟩ := stageUpdate_blank absent rfl
    have intends : Operation.intends .initial (.stageUpdate .b) = .ok (none, some ⟨.a, some .b, 0, 0⟩) := rfl
    refine ⟨⟨.a, some .b, 0, 2⟩, ?_⟩
    simp only [step, settle, perform, bind_apply, done]
    exact ⟨holds, .written intends (by decide)⟩
  -- the other operations read the journal and change nothing
  all_goals
    refine ⟨.initial, ?_⟩
    simp only [step, settle, perform, stageUpdate, beginBoot, markBootSuccess, bind_apply, found]
  · exact ⟨unchanged, .refused⟩
  · exact ⟨unchanged, .answered rfl⟩
  · exact ⟨unchanged, .answered rfl⟩
  · exact ⟨unchanged, .refused⟩

theorem step_done (known : store.journalState = some state) (operation : Operation) :
    ∃ state', (step store (operation, none)).2.journalState = some state' ∧
      Done state operation (step store (operation, none)).1 state' := by
  obtain ⟨_ | copy, held⟩ := Store.journalState_eq_some.mp known
  · obtain ⟨rfl, _⟩ := Store.current_blank held
    exact step_blank held operation
  · obtain ⟨_, state', leading, outcome, _⟩ := step_moves held (operation, none)
    refine ⟨state', leading.journalState, ?_⟩
    generalize (step store (operation, none)).1 = result at outcome
    cases outcome with
    | refused => exact .refused
    | answered intends => exact .answered intends
    | exhausted => exact .refused
    | lost _ crashed => cases crashed
    | cut _ _ crashed => cases crashed
    | written intends succ => exact .written intends (lt_checkedSucc succ)

/-- The readiness record of a boot reports the trial of the slot that the journal is in. -/
structure Reported (input : BootInput) (state : BootControlState) (slot : SystemSlot) : Prop where
  pending : state.pending = some slot
  record : ∃ record, readyRecord input = some record ∧ record.slot = slot.code ∧ record.attempt = state.attempts ∧
    record.journalGeneration = state.generation

/-- The stage record of a boot asks for a slot that may be tried. -/
structure Requested (input : BootInput) (state : BootControlState) (slot : SystemSlot) : Prop where
  idle : state.pending = none
  unconfirmed : slot ≠ state.confirmed
  record : ∃ record, stageRecord input = some record ∧ record.slot = slot.code ∧
    record.journalGeneration = state.generation
  manifests : ∃ candidate confirmed, readSlotManifest input slot = .ok candidate ∧
    readSlotManifest input state.confirmed = .ok confirmed ∧ confirmed.rollbackIndex ≤ candidate.rollbackIndex

inductive Promotes (input : BootInput) (state : BootControlState) : BootControlState → Prop where
  | kept : Promotes input state state
  | promoted {slot : SystemSlot} {generation : BitVec 64} (reported : Reported input state slot)
      (newer : state.generation < generation) : Promotes input state ⟨slot, none, 0, generation⟩

inductive Stages (input : BootInput) (state : BootControlState) : BootControlState → Prop where
  | kept : Stages input state state
  | staged {slot : SystemSlot} {generation : BitVec 64} (requested : Requested input state slot)
      (newer : state.generation < generation) : Stages input state ⟨state.confirmed, some slot, 0, generation⟩

inductive Decides (state : BootControlState) : BootControlState → Prop where
  | kept : Decides state state
  | tried {attempts : UInt8} {generation : BitVec 64} (newer : state.generation < generation) :
      Decides state ⟨state.confirmed, state.pending, attempts, generation⟩
  | rolledBack {generation : BitVec 64} (newer : state.generation < generation) :
      Decides state ⟨state.confirmed, none, 0, generation⟩

def Follows (state state' : BootControlState) : Prop := state' = state ∨ state.generation < state'.generation

theorem Follows.trans {first second third : BootControlState} (one : Follows first second)
    (two : Follows second third) : Follows first third := by
  rcases one with rfl | less
  · exact two
  · rcases two with rfl | more
    · exact .inr less
    · exact .inr (BitVec.lt_trans less more)

variable {input : BootInput} {state' : BootControlState}

theorem Promotes.follows (promotes : Promotes input state state') : Follows state state' := by
  cases promotes with
  | kept => exact .inl rfl
  | promoted _ newer => exact .inr newer

theorem Stages.follows (stages : Stages input state state') : Follows state state' := by
  cases stages with
  | kept => exact .inl rfl
  | staged _ newer => exact .inr newer

theorem Decides.follows (decides : Decides state state') : Follows state state' := by
  cases decides with
  | kept => exact .inl rfl
  | tried newer => exact .inr newer
  | rolledBack newer => exact .inr newer

/-- Where the journal is behind a part of a boot, if it fails and if it answers. -/
def Leaves {α : Type} (failed : BootControlState → Prop) (done : α → BootControlState → Prop)
    (result : Except String α) (after : Store) : Prop :=
  ∃ state, after.journalState = some state ∧
    match result with
    | .error _ => failed state
    | .ok value => done value state

section
variable {α β : Type} {failed : BootControlState → Prop}
  {done : α → BootControlState → Prop}

theorem leaves_bind {call : Boot β} {next : β → Boot α} {first : BootControlState → Prop}
    {mid : β → BootControlState → Prop} (ensures : Ensures call store (Leaves first mid))
    (weaker : ∀ state, first state → failed state)
    (rest : ∀ value state after, after.journalState = some state → mid value state →
      Ensures (next value) after (Leaves failed done)) : Ensures (call >>= next) store (Leaves failed done) :=
  ensures.bind (fun value after ⟨state, holds, now⟩ => rest value state after holds now)
    fun _ _ ⟨state, holds, bad⟩ => ⟨state, holds, weaker state bad⟩

variable (input) (failure : String)

theorem ensures_load (known : store.journalState = some state) :
    Ensures (onJournal input failure load) store
      (Leaves (· = state) fun loaded now => loaded = state ∧ now = state) := by
  obtain ⟨copy, held⟩ := Store.journalState_eq_some.mp known
  by_cases readable : input.journalReadable
  · have loads : settle load (store.armed none) = (.ok state, store.armed none) := by
      have found : (store.armed none).current = .ok ⟨state, copy⟩ := held
      simp [settle, load, bind_apply, current, found, pure_apply]
    have answered : onJournal input failure load store = .ok state (store.armed none) := by
      simp [onJournal, readable, loads]
    exact .of_ok answered ⟨state, known, rfl, rfl⟩
  · have failed : onJournal input failure load store = .error failure store := by
      simp [onJournal, readable]
    exact .of_error failed ⟨state, known, rfl⟩

theorem load_bind (known : store.journalState = some state) {next : BootControlState → Boot α} (bad : failed state)
    (rest : ∀ after, after.journalState = some state → Ensures (next state) after (Leaves failed done)) :
    Ensures (onJournal input failure load >>= next) store (Leaves failed done) := by
  refine leaves_bind (ensures_load input failure known) (fun _ same => same ▸ bad) ?_
  rintro _ _ after holds ⟨rfl, rfl⟩
  exact rest after holds

theorem ensures_operation (known : store.journalState = some state) {call : Journal α}
    (operation : Operation) {answer : α → Option BootDecision}
    (performs : perform operation = do return answer (← call)) :
    Ensures (onJournal input failure call) store
      (Leaves (· = state) fun value => Done state operation (.ok (answer value))) := by
  by_cases readable : input.journalReadable
  · obtain ⟨state', holds, done⟩ := step_done known operation
    cases called : call (store.armed none) with
    | ok value after =>
      have stepped : step store (operation, none) = (.ok (answer value), after) := by
        simp [step, performs, settle, bind_apply, called, pure_apply]
      rw [stepped] at holds done
      have answered : onJournal input failure call store = .ok value after := by
        simp [onJournal, readable, settle, called]
      exact .of_ok answered ⟨state', holds, done⟩
    | error error after =>
      have stepped : step store (operation, none) = (.error error, after) := by
        simp [step, performs, settle, bind_apply, called]
      rw [stepped] at holds done
      have answered : onJournal input failure call store = .error failure after := by
        simp [onJournal, readable, settle, called]
      cases done
      exact .of_error answered ⟨state, holds, rfl⟩
  · have failed : onJournal input failure call store = .error failure store := by
      simp [onJournal, readable]
    exact .of_error failed ⟨state, known, rfl⟩

variable {R : BootControlState → Prop}

theorem ensures_reloaded (reading : String) (known : store.journalState = some state) {call : Journal Unit}
    (operation : Operation) {answer : Unit → Option BootDecision}
    (performs : perform operation = do return answer (← call))
    (kept : R state) (done : ∀ state', Done state operation (.ok (answer ())) state' → R state') :
    Ensures (do onJournal input failure call; onJournal input reading load) store
      (Leaves R fun next now => next = now ∧ R now) := by
  refine leaves_bind (ensures_operation input failure known operation performs) (fun _ same => same ▸ kept) ?_
  intro _ state' after holds finished
  apply (ensures_load input reading holds).mono
  rintro (error | next) last ⟨_, still, same⟩
  · exact ⟨_, still, same ▸ done state' finished⟩
  · exact ⟨_, still, same.1.trans same.2.symm, same.2 ▸ done state' finished⟩

end

theorem slotOfCode_code (slot : SystemSlot) : slotOfCode slot.code = slot := by
  cases slot <;> rfl

variable {record : BootReadyRecord}

theorem reported_of_matching (found : readyRecord input = some record) (matching : matchingPending record state) :
    Reported input state (slotOfCode record.slot) := by
  unfold matchingPending at matching
  cases pending : state.pending with
  | none => simp [pending] at matching
  | some slot =>
    simp only [pending, Bool.and_eq_true, decide_eq_true_eq] at matching
    obtain ⟨⟨code, attempt⟩, generation⟩ := matching
    rw [code, slotOfCode_code]
    exact ⟨pending, record, found, code, attempt, generation⟩

theorem code_of_stageRecord {record : BootStageRecord} (found : stageRecord input = some record) :
    record.slot = (slotOfCode record.slot).code := by
  obtain ⟨bytes, _, decoded⟩ := Option.bind_eq_some_iff.mp found
  have encoded := (record.encode_eq_some_iff bytes).mpr decoded
  -- only the codes of the two slots can be encoded
  unfold BootStageRecord.encode at encoded
  split_ifs at encoded with large
  have small : record.slot.toNat < 2 := Nat.lt_succ_of_le (UInt8.le_iff_toNat_le.mp (UInt8.not_lt.mp large))
  unfold slotOfCode
  split_ifs with zero
  · exact zero
  · apply UInt8.toNat_inj.mp
    have nonzero : record.slot.toNat ≠ 0 := fun same => zero (UInt8.toNat_inj.mp same)
    show record.slot.toNat = 1
    omega

variable {slot : SystemSlot}

theorem requested_of_accepted (accepted : acceptStageRequest input (stageRecord input) state = .ok slot) :
    Requested input state slot := by
  unfold acceptStageRequest at accepted
  split at accepted
  · next record found =>
    simp only [Checks.bind_ok_iff, Checks.unless_bind_ok_iff, Checks.mapError_ok_iff, throw, throwThe,
      MonadExceptOf.throw] at accepted
    push Not at accepted
    obtain ⟨⟨idle, generation, unconfirmed⟩, candidate, verified, confirmed, other, permitted, same⟩ := accepted
    cases same
    have known : readSlotManifest input state.confirmed = .ok confirmed := by
      cases slot : slotOfCode record.slot <;> cases holds : state.confirmed <;> simp_all
    refine ⟨by simpa using idle, unconfirmed, ⟨record, found, code_of_stageRecord found, generation⟩, ?_⟩
    exact ⟨candidate, confirmed, verified, known, by simpa [permitsTrial] using permitted⟩
  · cases accepted

/-- What the kernel is told of a trial is what the journal says of it. -/
def TrialOf (info : BootControlInfo) (state : BootControlState) : Prop :=
  info.attempt = state.attempts.toNat ∧ info.journalGeneration = state.generation.toNat ∧
    ∃ slot, state.pending = some slot ∧ info.slot = slot.code.toNat

theorem Done.decides {reply : Option BootDecision} (done : Done state .beginBoot (.ok reply) state') :
    Decides state state' := by
  cases done with
  | answered => exact .kept
  | written intends newer =>
    cases Operation.intended intends with
    | rolledBack => exact .rolledBack newer
    | tried => exact .tried newer

/-- The three changes that a boot can make to the journal, one after the other. -/
structure Course (input : BootInput) (state state' : BootControlState) : Prop where
  passes : ∃ promoted staged, Promotes input state promoted ∧ Stages input promoted staged ∧ Decides staged state'

section
variable (known : store.journalState = some state) (input : BootInput)
include known

theorem ensures_consumeReady :
    Ensures (consumeReady input state) store
      (Leaves (Promotes input state) fun next now => next = now ∧ Promotes input state now) := by
  fun_cases consumeReady input state with
  | case1 record found matching =>
    have reported := reported_of_matching found matching
    apply ensures_reloaded input _ _ known (.markBootSuccess (slotOfCode record.slot)) rfl .kept
    intro state' done
    cases done with
    | answered intends => simp [Operation.intends, reported.pending] at intends
    | written intends newer =>
      cases Operation.intended intends
      exact .promoted reported newer
  | _ => exact .of_ok rfl ⟨state, known, rfl, .kept⟩

theorem ensures_consumeStage :
    Ensures (consumeStage input state) store
      (Leaves (Stages input state) fun next now => next = now ∧ Stages input state now) := by
  fun_cases consumeStage input state with
  | case3 _ _ slot accepted =>
    have requested := requested_of_accepted accepted
    apply ensures_reloaded input _ _ known (.stageUpdate slot) rfl .kept
    intro state' done
    cases done with
    | answered intends => simp [Operation.intends, requested.idle, requested.unconfirmed] at intends
    | written intends newer =>
      cases Operation.intended intends
      exact .staged requested newer
  | _ => exact .of_ok rfl ⟨state, known, rfl, .kept⟩

theorem address_bind {α : Type} {failed : BootControlState → Prop} {done : α → BootControlState → Prop}
    {next : Nat → Boot α} (bad : failed state)
    (rest : ∀ address, Ensures (next address) store (Leaves failed done)) :
    Ensures (runtimeSetVariableAddress input >>= next) store (Leaves failed done) := by
  unfold runtimeSetVariableAddress
  split
  · exact .of_error rfl ⟨state, known, bad⟩
  · exact .of_error rfl ⟨state, known, bad⟩
  · exact rest _

theorem ensures_bootContext (decision : BootDecision) :
    Ensures (bootContext input decision) store
      (Leaves (· = state) fun info now => now = state ∧ (info.attempt ≠ 0 → TrialOf info now)) := by
  unfold bootContext
  split
  · refine load_bind input _ known rfl fun after holds => ?_
    split
    · refine address_bind holds input rfl fun address => ?_
      exact .of_ok rfl ⟨state, holds, rfl, fun attempt => absurd rfl attempt⟩
    · exact .of_ok rfl ⟨state, holds, rfl, fun attempt => absurd rfl attempt⟩
  · refine load_bind input _ known rfl fun after holds => ?_
    split
    · exact .of_error rfl ⟨state, holds, rfl⟩
    next agrees =>
    push Not at agrees
    refine address_bind holds input rfl fun address => .of_ok rfl ⟨state, holds, rfl, fun _ => ?_⟩
    exact ⟨congrArg UInt8.toNat agrees.2.symm, rfl, decision.slot, agrees.1, rfl⟩

theorem ensures_decideBoot :
    Ensures (decideBoot input state) store
      (Leaves (Decides state) fun answer now => Decides state now ∧ (answer.2.attempt ≠ 0 → TrialOf answer.2 now)) := by
  unfold decideBoot
  dsimp only
  split
  · exact .of_ok rfl ⟨state, known, .kept, fun attempt => absurd rfl attempt⟩
  split
  · exact .of_ok rfl ⟨state, known, .kept, fun attempt => absurd rfl attempt⟩
  refine leaves_bind (ensures_operation input _ known .beginBoot rfl) (fun _ same => same ▸ .kept) ?_
  intro decision state' after holds done
  have told (store : Store) (holds : store.journalState = some state') :
      Ensures (bootContext input decision >>= fun context =>
        pure (BootImageSelection.ofSlot decision.slot, context)) store
        (Leaves (Decides state) fun answer now => Decides state now ∧
          (answer.2.attempt ≠ 0 → TrialOf answer.2 now)) := by
    refine leaves_bind (ensures_bootContext holds input decision) (fun _ same => same ▸ done.decides) ?_
    rintro context _ last still ⟨rfl, trial⟩
    exact .of_ok rfl ⟨_, still, done.decides, trial⟩
  split
  · exact load_bind input _ holds done.decides told
  · exact told after holds

theorem boot_course :
    ∃ state', (boot store input).2.journalState = some state' ∧ Course input state state' ∧
      ∀ selection info, (boot store input).1 = .ok (selection, info) → info.attempt ≠ 0 → TrialOf info state' := by
  have ensures : Ensures (m27BootControlDecision input) store (Leaves (Course input state) fun answer now =>
      Course input state now ∧ (answer.2.attempt ≠ 0 → TrialOf answer.2 now)) := by
    refine load_bind input _ known ⟨state, state, .kept, .kept, .kept⟩ fun after holds => ?_
    refine leaves_bind (ensures_consumeReady holds input)
      (fun promoted promotes => ⟨promoted, promoted, promotes, .kept, .kept⟩) ?_
    rintro promoted _ after holds ⟨rfl, promotes⟩
    refine leaves_bind (ensures_consumeStage holds input)
      (fun staged stages => ⟨promoted, staged, promotes, stages, .kept⟩) ?_
    rintro staged _ after holds ⟨rfl, stages⟩
    have course {state' : BootControlState} (decides : Decides staged state') : Course input state state' :=
      ⟨promoted, staged, promotes, stages, decides⟩
    apply (ensures_decideBoot holds input).mono
    rintro (error | answer) last ⟨state', still, outcome⟩
    · exact ⟨state', still, course outcome⟩
    · exact ⟨state', still, course outcome.1, outcome.2⟩
  obtain ⟨state', holds, outcome⟩ := ensures
  refine ⟨state', holds, ?_⟩
  unfold boot
  cases result : (settle (m27BootControlDecision input) store).1 with
  | error error => exact ⟨by simpa [result] using outcome, by simp⟩
  | ok answer =>
    rw [result] at outcome
    refine ⟨outcome.1, fun selection info same => ?_⟩
    cases same
    exact outcome.2

end

theorem boot_corrupt (corrupt : store.journalState = none) (input : BootInput) :
    (boot store input).2.journalState = none := by
  cases held : store.current with
  | ok found => simp [Store.journalState, held, Except.toOption] at corrupt
  | error error =>
    by_cases readable : input.journalReadable
    · have unread : current (store.armed none) = .error error (store.armed none) := by
        have same : (store.armed none).current = .error error := held
        rw [current, same]
      have unloaded : load (store.armed none) = .error error (store.armed none) := bind_error unread _
      have failed : (boot store input).2 = store.armed none := by
        simp [boot, m27BootControlDecision, settle, bind_apply, onJournal, readable, unloaded]
      rw [failed]
      exact corrupt
    · have failed : (boot store input).2 = store := by
        simp [boot, m27BootControlDecision, settle, bind_apply, onJournal, readable]
      rw [failed]
      exact corrupt

section
variable (course : Course input state state')
include course

theorem Course.follows : Follows state state' := by
  obtain ⟨promoted, staged, promotes, stages, decides⟩ := course
  exact promotes.follows.trans (stages.follows.trans decides.follows)

theorem Course.confirmed (changed : state'.confirmed ≠ state.confirmed) : Reported input state state'.confirmed := by
  obtain ⟨promoted, staged, promotes, stages, decides⟩ := course
  have same : state'.confirmed = promoted.confirmed := by
    cases decides <;> cases stages <;> rfl
  rw [same] at changed ⊢
  cases promotes with
  | kept => exact absurd rfl changed
  | promoted reported _ => exact reported

theorem Course.pending (pending : state'.pending = some slot) (fresh : state.pending ≠ some slot) :
    ∃ promoted, Promotes input state promoted ∧ Requested input promoted slot := by
  obtain ⟨promoted, staged, promotes, stages, decides⟩ := course
  refine ⟨promoted, promotes, ?_⟩
  have waiting : staged.pending = some slot := by
    cases decides with
    | kept => exact pending
    | tried => exact pending
    | rolledBack => cases pending
  cases stages with
  | kept =>
    cases promotes with
    | kept => exact absurd waiting fresh
    | promoted => cases waiting
  | staged requested _ =>
    cases waiting
    exact requested

end

theorem run_follows (known : store.journalState = some state) (inputs : List BootInput) :
    ∃ state', (run boot store inputs).journalState = some state' ∧ Follows state state' := by
  apply run_invariant (P := fun store : Store => ∃ state', store.journalState = some state' ∧ Follows state state')
  · rintro store input ⟨reached, holds, follows⟩
    obtain ⟨state', after, course, _⟩ := boot_course holds input
    exact ⟨state', after, follows.trans course.follows⟩
  · exact ⟨state, known, .inl rfl⟩

/-- Boots that end in the generation they started from have not changed the journal. -/
theorem always_same {last : BootControlState} (known : store.journalState = some state) {inputs : List BootInput}
    (ends : (run boot store inputs).journalState = some last) (unmoved : last.generation = state.generation) :
    Runs.Always boot (fun reached => reached.journalState = some state) store inputs := by
  apply always_of_prefixes
  intro n _
  obtain ⟨reached, holds, follows⟩ := run_follows known (inputs.take n)
  obtain ⟨final, reaches, later⟩ := run_follows holds (inputs.drop n)
  rw [← run_append, List.take_append_drop, ends, Option.some.injEq] at reaches
  subst reaches
  rcases follows with rfl | less
  · exact holds
  · rcases later with rfl | more
    · exact absurd less (unmoved ▸ BitVec.lt_irrefl _)
    · exact absurd (BitVec.lt_trans less more) (unmoved ▸ BitVec.lt_irrefl _)

/-- The record that the kernel writes when a trial has reached the desktop. -/
def readinessRecord (context : BootControlInfo) : Option BootReadyRecord :=
  if context.isTrial then
    some ⟨UInt8.ofNat context.slot, UInt8.ofNat context.attempt, BitVec.ofNat 64 context.journalGeneration⟩
  else
    none

theorem generation_of_readinessRecord {context : BootControlInfo}
    (trial : context.attempt ≠ 0 → TrialOf context state) (written : readinessRecord context = some record) :
    record.journalGeneration = state.generation := by
  unfold readinessRecord at written
  split_ifs at written with isTrial
  cases written
  have attempt : context.attempt ≠ 0 := by
    simp only [BootControlInfo.isTrial, decide_eq_true_eq] at isTrial
    omega
  simp [(trial attempt).2.1]

/-- Over any boots, with any contents of the two variables and any choice in the menu, a slot is confirmed only
by a record of its current trial and staged only by a request that the journal and both manifests allow. A
record written in one trial confirms nothing once the journal has changed. -/
theorem boots_guarded (store : Store) :
    (∀ inputs, ∀ event ∈ Runs.trace boot store inputs, ∀ state', event.after.journalState = some state' →
      ∃ state, event.before.journalState = some state ∧
        (state'.confirmed ≠ state.confirmed → Reported event.action state state'.confirmed) ∧
        ∀ slot, state'.pending = some slot → state.pending ≠ some slot →
          ∃ promoted, Promotes event.action state promoted ∧ Requested event.action promoted slot) ∧
    ∀ first selection context record, (boot store first).1 = .ok (selection, context) →
      readinessRecord context = some record → ∀ between last, readyRecord last = some record →
      ∀ state state', (Runs.run boot (boot store first).2 between).journalState = some state →
        (boot (Runs.run boot (boot store first).2 between) last).2.journalState = some state' →
        state'.confirmed ≠ state.confirmed →
        Runs.Always boot (fun reached => reached.journalState = some state) (boot store first).2 between := by
  constructor
  · intro inputs
    refine forall_event (I := fun _ => True) (fun _ _ _ => trivial) ?_ trivial inputs
    intro store input _ state' after
    cases known : store.journalState with
    | none =>
      rw [event, boot_corrupt known input] at after
      cases after
    | some state =>
      obtain ⟨reached, holds, course, _⟩ := boot_course known input
      rw [event, holds, Option.some.injEq] at after
      subst after
      exact ⟨state, known, course.confirmed, fun slot => course.pending⟩
  · intro first selection context record started written between last present state state' before after changed
    cases known : store.journalState with
    | none =>
      have corrupt : (run boot (boot store first).2 between).journalState = none :=
        run_invariant (P := fun store : Store => store.journalState = none)
          (fun _ input corrupt => boot_corrupt corrupt input) (boot_corrupt known first) between
      rw [corrupt] at before
      cases before
    | some earlier =>
      obtain ⟨tried, holds, _, trial⟩ := boot_course known first
      obtain ⟨_, holds', course, _⟩ := boot_course before last
      rw [holds', Option.some.injEq] at after
      subst after
      -- the record names the generation of the trial and of the state it confirms
      obtain ⟨_, same, _, _, generation⟩ := (course.confirmed changed).record
      rw [present, Option.some.injEq] at same
      subst same
      have unmoved := generation.symm.trans (generation_of_readinessRecord (trial selection context started) written)
      have always := always_same holds before unmoved
      obtain rfl : tried = state := Option.some.inj (always.last.symm.trans before)
      exact always

end Nagi.Loader
