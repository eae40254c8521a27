import Nagi.Lib.Calls
import Nagi.Lib.Runs
import Nagi.Loader.BootControl

/-! The journal after interrupted writes.

The copy that holds the newest state is never the one that is written. `Outcome` says
what an operation can do; what holds of runs follows from it. -/

namespace Nagi.Loader

open Lib Function

inductive Operation where
  | stageUpdate (slot : SystemSlot)
  | beginBoot
  | markBootSuccess (slot : SystemSlot)

def perform : Operation → Journal (Option BootDecision)
  | .stageUpdate slot => do stageUpdate slot; return none
  | .beginBoot => do return some (← beginBoot)
  | .markBootSuccess slot => do markBootSuccess slot; return none

abbrev Attempt := Operation × Option (Nat × Interruption)

variable (store : Store)

def step (attempt : Attempt) : Except BootControlError (Option BootDecision) × Store :=
  settle (perform attempt.1) { store with interruption := attempt.2, writes := [] }

abbrev Store.armed (interruption : Option (Nat × Interruption)) : Store :=
  { store with interruption, writes := [] }

/-- The state an operation wants to write, if any, and what it then answers. -/
def Operation.intends (state : BootControlState) :
    Operation → Except BootControlError (Option BootDecision × Option BootControlState)
  | .stageUpdate slot =>
    if state.pending.isSome then .error .updateAlreadyPending
    else if slot = state.confirmed then .error .cannotUpdateConfirmedSlot
    else .ok (none, some { state with pending := some slot, attempts := 0 })
  | .beginBoot =>
    match state.pending with
    | none => .ok (some ⟨state.confirmed, 0, false⟩, none)
    | some pending =>
      if state.attempts ≥ maxBootAttempts then
        .ok (some ⟨state.confirmed, 0, true⟩, some { state with pending := none, attempts := 0 })
      else
        .ok (some ⟨pending, state.attempts + 1, false⟩, some { state with attempts := state.attempts + 1 })
  | .markBootSuccess slot =>
    match state.pending with
    | some pending =>
      if pending = slot then
        .ok (none, some { state with confirmed := pending, pending := none, attempts := 0 })
      else
        .error .unexpectedBootSuccess
    | none => if state.confirmed = slot then .ok (none, none) else .error .unexpectedBootSuccess

/-- What an attempt at an operation does to a journal with a current state. -/
inductive Outcome (state : BootControlState) (attempt : Attempt) :
    Except BootControlError (Option BootDecision) → BootControlState → Prop where
  | refused {error : BootControlError} (intends : attempt.1.intends state = .error error) :
      Outcome state attempt (.error error) state
  | answered {reply : Option BootDecision} (intends : attempt.1.intends state = .ok (reply, none)) :
      Outcome state attempt (.ok reply) state
  | exhausted {reply : Option BootDecision} {next : BootControlState}
      (intends : attempt.1.intends state = .ok (reply, some next)) (last : checkedSucc state.generation = none) :
      Outcome state attempt (.error .generationExhausted) state
  | lost {reply : Option BootDecision} {next : BootControlState} {how : Interruption}
      (intends : attempt.1.intends state = .ok (reply, some next)) (crashed : attempt.2 = some (0, how)) :
      Outcome state attempt (.error (.storage .io)) state
  | cut {reply : Option BootDecision} {next : BootControlState} {generation : BitVec 64} {how : Interruption}
      (intends : attempt.1.intends state = .ok (reply, some next))
      (succ : checkedSucc state.generation = some generation) (crashed : attempt.2 = some (0, how)) :
      Outcome state attempt (.error (.storage .io)) { next with generation := generation }
  | written {reply : Option BootDecision} {next : BootControlState} {generation : BitVec 64}
      (intends : attempt.1.intends state = .ok (reply, some next))
      (succ : checkedSucc state.generation = some generation) :
      Outcome state attempt (.ok reply) { next with generation := generation }

namespace Store

def Present : Prop := ∃ copy, (accepted (store.record copy)).isSome

/-- Some copy holds a record, and two records are of different generations. -/
def Recoverable : Prop :=
  (∃ copy, (accepted (store.record copy)).isSome) ∧
    ∀ first second, accepted (store.record .first) = some first → accepted (store.record .second) = some second →
      first.generation ≠ second.generation

/-- The copy holds the state, and a record in the other copy is older. -/
structure Newest (copy : RecordCopy) (state : BootControlState) : Prop where
  holds : accepted (store.record copy) = some state
  older : ∀ before, accepted (store.record copy.other) = some before → before.generation < state.generation

/-- The state is in an accepted record, and no accepted record is newer. -/
structure Latest (state : BootControlState) : Prop where
  held : ∃ copy, accepted (store.record copy) = some state
  newest : ∀ copy other, accepted (store.record copy) = some other → other.generation ≤ state.generation

theorem Newest.current {store : Store} {copy : RecordCopy} {state : BootControlState}
    (newest : store.Newest copy state) : store.current = .ok ⟨state, some copy⟩ := by
  obtain ⟨holds, older⟩ := newest
  cases copy with
  | first =>
    cases second : accepted (store.record .second) with
    | none => simp [Store.current, holds, second]
    | some before =>
      have less := older before second
      simp [Store.current, holds, second, less, (BitVec.ne_of_lt less).symm]
  | second =>
    cases first : accepted (store.record .first) with
    | none => simp [Store.current, holds, first]
    | some before =>
      have less := older before first
      simp [Store.current, holds, first, BitVec.ne_of_lt less, BitVec.not_lt.mpr (BitVec.le_of_lt less)]

end Store

variable {state : BootControlState}

theorem validateState_ok_iff :
    validateState state = some () ↔ state.attempts ≤ maxBootAttempts ∧ state.pending ≠ some state.confirmed ∧
      (state.pending = none → state.attempts = 0) := by
  simp [validateState, UInt8.not_lt]

theorem toNat_succ_attempts {attempts : UInt8} (left : ¬attempts ≥ maxBootAttempts) :
    (attempts + 1).toNat = attempts.toNat + 1 ∧ attempts.toNat < 3 := by
  have less : attempts.toNat < 3 := UInt8.lt_iff_toNat_lt.mp (UInt8.not_le.mp left)
  rw [UInt8.toNat_add]
  have one : (1 : UInt8).toNat = 1 := rfl
  omega

variable {next : BootControlState} {operation : Operation} {reply : Option BootDecision}

/-- The states that operations want to write. -/
inductive Intended (state : BootControlState) : Operation → Option BootDecision → BootControlState → Prop where
  | staged {slot : SystemSlot} (idle : state.pending = none) (other : slot ≠ state.confirmed) :
      Intended state (.stageUpdate slot) none { state with pending := some slot, attempts := 0 }
  | rolledBack {slot : SystemSlot} (pending : state.pending = some slot) (tried : state.attempts ≥ maxBootAttempts) :
      Intended state .beginBoot (some ⟨state.confirmed, 0, true⟩) { state with pending := none, attempts := 0 }
  | tried {slot : SystemSlot} (pending : state.pending = some slot) (left : ¬state.attempts ≥ maxBootAttempts) :
      Intended state .beginBoot (some ⟨slot, state.attempts + 1, false⟩) { state with attempts := state.attempts + 1 }
  | confirmed {slot : SystemSlot} (pending : state.pending = some slot) :
      Intended state (.markBootSuccess slot) none { state with confirmed := slot, pending := none, attempts := 0 }

theorem Operation.intended (intends : operation.intends state = .ok (reply, some next)) :
    Intended state operation reply next := by
  revert intends
  fun_cases Operation.intends state operation with
  | case3 slot waiting other =>
    rintro ⟨⟩
    exact .staged (by simpa using waiting) other
  | case5 slot pending tried =>
    rintro ⟨⟩
    exact .rolledBack pending tried
  | case6 slot pending left =>
    rintro ⟨⟩
    exact .tried pending left
  | case7 slot pending =>
    rintro ⟨⟩
    exact .confirmed pending
  | _ => nofun

theorem Intended.valid (intended : Intended state operation reply next) (valid : validateState state = some ())
    (generation : BitVec 64) : validateState { next with generation := generation } = some () := by
  have zero : (0 : UInt8) ≤ maxBootAttempts := by decide
  apply validateState_ok_iff.mpr
  cases intended with
  | staged _ other => exact ⟨zero, fun same => other (Option.some.inj same), nofun⟩
  | rolledBack | confirmed => exact ⟨zero, nofun, fun _ => rfl⟩
  | tried pending left =>
    obtain ⟨succ, less⟩ := toNat_succ_attempts left
    refine ⟨?_, (validateState_ok_iff.mp valid).2.1, fun idle => absurd (pending.symm.trans idle) nofun⟩
    rw [UInt8.le_iff_toNat_le, succ]
    exact less

namespace Store

def Leading (copy : RecordCopy) (state : BootControlState) : Prop :=
  store.current = .ok ⟨state, some copy⟩

variable {store} {copy : RecordCopy}

section
variable (leading : store.Leading copy state)
include leading

theorem Leading.holds : accepted (store.record copy) = some state := by
  revert leading
  unfold Leading
  fun_cases Store.current store with
  | case3 state _ first | case6 state _ _ first | case7 state _ _ first =>
    rintro ⟨⟩
    exact first
  | case4 state second | case8 _ state second =>
    rintro ⟨⟩
    exact second
  | _ => nofun

theorem Leading.latest : store.Latest state := by
  refine ⟨⟨copy, leading.holds⟩, fun other found held => ?_⟩
  revert leading
  unfold Leading
  fun_cases Store.current store with
  -- one record is accepted, or both are
  | case3 | case4 =>
    rintro ⟨⟩
    cases other <;> simp_all
  | case6 | case7 | case8 =>
    rintro ⟨⟩
    cases other <;> simp_all [BitVec.le_of_lt, BitVec.not_lt]
  | _ => rintro ⟨⟩

theorem Leading.valid : validateState state = some () := by
  obtain ⟨bytes, _, decoded⟩ := Option.bind_eq_some_iff.mp leading.holds
  split_ifs at decoded with size
  exact (encodeRecord_decodeRecord size decoded).1

theorem Leading.current_apply : Loader.current store = .ok ⟨state, some copy⟩ store := by
  rw [Loader.current, leading]

theorem Leading.load : Loader.load store = .ok state store := by
  rw [Loader.load, bind_ok leading.current_apply]
  rfl

theorem Leading.present : store.Present :=
  ⟨copy, by rw [leading.holds]; rfl⟩

end

/-- A journal with a record is led by it, unless two records of one generation contradict each other. -/
theorem Present.leading_or_corrupt (present : store.Present) :
    (∃ copy state, store.Leading copy state) ∨ store.current = .error .corruptRecords ∧ ∃ first second,
      accepted (store.record .first) = some first ∧ accepted (store.record .second) = some second ∧
        first.generation = second.generation := by
  obtain ⟨copy, held⟩ := present
  unfold Leading
  fun_cases Store.current store with
  | case1 second first | case2 second first =>
    cases copy
    · simp [first] at held
    · simp [second] at held
  | case5 first second other held same => exact .inr ⟨rfl, first, second, held, other, same⟩
  | _ => exact .inl ⟨_, _, rfl⟩

theorem Recoverable.leading (recoverable : store.Recoverable) : ∃ copy state, store.Leading copy state := by
  rcases Present.leading_or_corrupt recoverable.1 with leading | ⟨_, first, second, held, other, same⟩
  · exact leading
  · exact absurd same (recoverable.2 first second held other)

variable {contents : Option (List UInt8)}

theorem Leading.kept {after : Store} (leading : store.Leading copy state)
    (records : after.record = update store.record copy.other contents)
    (same : contents = store.record copy.other ∨ accepted contents = none) : after.Leading copy state := by
  rcases same with rfl | rejected
  · rw [update_eq_self] at records
    unfold Leading Store.current at leading ⊢
    rw [records]
    exact leading
  · have newest : after.Newest copy state := by
      constructor
      · rw [records, update_of_ne (RecordCopy.ne_other copy), leading.holds]
      · rw [records, update_self, rejected]
        exact nofun
    exact newest.current

theorem Leading.replaced {after : Store} {next : BootControlState} (leading : store.Leading copy state)
    (records : after.record = update store.record copy.other contents)
    (holds : accepted contents = some next) (newer : state.generation < next.generation) :
    after.Leading copy.other next := by
  have newest : after.Newest copy.other next := by
    constructor
    · rw [records, update_self, holds]
    · intro before found
      rw [RecordCopy.other_other, records, update_of_ne (RecordCopy.ne_other copy), leading.holds,
        Option.some.injEq] at found
      exact found ▸ newer
  exact newest.current

end Store

variable {generation : BitVec 64} {store} {copy : RecordCopy} {bytes : List UInt8}

theorem lt_checkedSucc {next : BitVec 64} (succ : checkedSucc generation = some next) : generation < next := by
  unfold checkedSucc at succ
  split at succ
  · cases succ
  next below =>
  cases succ
  have notAll : generation.toNat ≠ 2 ^ 64 - 1 := by
    intro all
    exact below (BitVec.eq_of_toNat_eq (by rw [all, BitVec.toNat_allOnes]))
  have one : (1 : BitVec 64).toNat = 1 := rfl
  rw [BitVec.lt_def, BitVec.toNat_add, one]
  omega

theorem accepted_encoded (encoded : encodeRecord state = some bytes) : accepted (some bytes) = some state := by
  simp [accepted, length_encodeRecord encoded, decodeRecord_encodeRecord encoded]

theorem writeRecord_cases (copy : RecordCopy) (bytes : List UInt8) (store : Store) :
    ∃ after contents, after.record = update store.record copy contents ∧
      after.writes = store.writes ++ [(copy, bytes)] ∧
      (writeRecord copy bytes store = .ok () after ∧ contents = some bytes ∨
        writeRecord copy bytes store = .error (.storage .io) after ∧ (∃ how, store.interruption = some (0, how)) ∧
          (contents = store.record copy ∨ contents = some bytes ∨ accepted contents = none)) := by
  unfold writeRecord
  rcases store.interruption with _ | ⟨_ | later, interruption⟩
  · exact ⟨_, some bytes, rfl, rfl, .inl ⟨rfl, rfl⟩⟩
  · refine ⟨_, interruption.leaves (store.record copy) bytes, rfl, rfl, .inr ⟨rfl, ⟨interruption, rfl⟩, ?_⟩⟩
    cases interruption with
    | old => exact .inl rfl
    | complete => exact .inr (.inl rfl)
    | torn contents rejected => exact .inr (.inr rejected)
  · exact ⟨_, some bytes, rfl, rfl, .inl ⟨rfl, rfl⟩⟩

theorem persist_eq {found : CurrentState} {next : BootControlState}
    (succ : checkedSucc found.state.generation = some generation)
    (encoded : encodeRecord { next with generation := generation } = some bytes) (store : Store) :
    persist found next store = writeRecord ((found.copy.map RecordCopy.other).getD .first) bytes store := by
  have valid := validateState_of_encodeRecord encoded
  simp [persist, succ, valid, encoded, orThrow, bind_apply, pure_apply]

/-- A persist leaves the state it writes, or the state before it if the write is cut short. -/
theorem Store.Leading.persisted (leading : store.Leading copy state) (next : BootControlState)
    (succ : checkedSucc state.generation = some generation)
    (encoded : encodeRecord { next with generation := generation } = some bytes) :
    ∃ after : Store, after.writes.getLast? = some (copy.other, bytes) ∧
      (persist ⟨state, some copy⟩ next store = .ok () after ∧
          after.Leading copy.other { next with generation := generation } ∨
        persist ⟨state, some copy⟩ next store = .error (.storage .io) after ∧
          (∃ how, store.interruption = some (0, how)) ∧
          (after.Leading copy.other { next with generation := generation } ∨
            after.record copy.other ≠ some bytes ∧ after.Leading copy state)) := by
  have newer : state.generation < generation := lt_checkedSucc succ
  have holds := accepted_encoded encoded
  rw [persist_eq succ encoded]
  obtain ⟨after, contents, records, writes, answered⟩ := writeRecord_cases copy.other bytes store
  have last : after.writes.getLast? = some (copy.other, bytes) := by simp [writes]
  rcases answered with ⟨done, rfl⟩ | ⟨failed, crashed, left⟩
  · exact ⟨after, last, .inl ⟨done, leading.replaced records holds newer⟩⟩
  · refine ⟨after, last, .inr ⟨failed, crashed, ?_⟩⟩
    by_cases complete : contents = some bytes
    · subst complete
      exact .inl (leading.replaced records holds newer)
    · have unchanged : contents = store.record copy.other ∨ accepted contents = none :=
        left.imp_right fun others => others.resolve_left complete
      exact .inr ⟨by rwa [records, update_self], leading.kept records unchanged⟩

theorem perform_eq (leading : store.Leading copy state) (operation : Operation) :
    perform operation store = match operation.intends state with
      | .error error => .error error store
      | .ok (reply, none) => .ok reply store
      | .ok (reply, some next) => (persist ⟨state, some copy⟩ next >>= fun _ => pure reply) store := by
  have found := leading.current_apply
  cases operation with
  | stageUpdate slot =>
    simp only [perform, stageUpdate, Operation.intends, bind_apply, found]
    by_cases pending : state.pending.isSome
    · simp [pending, bind_apply, throw_apply]
    by_cases confirmed : slot = state.confirmed
    · simp [pending, confirmed, bind_apply, throw_apply]
    · simp [pending, confirmed]
  | beginBoot =>
    simp only [perform, beginBoot, Operation.intends, bind_apply, found]
    cases pending : state.pending with
    | none => rfl
    | some slot =>
      have replies (next : BootControlState) (decision : BootDecision) :
          ((persist ⟨state, some copy⟩ next >>= fun _ => pure decision) >>= fun made => pure (some made)) store =
            (persist ⟨state, some copy⟩ next >>= fun _ => pure (some decision)) store := by
        simp only [bind_apply]
        cases persist ⟨state, some copy⟩ next store <;> rfl
      by_cases tried : state.attempts ≥ maxBootAttempts
      · simp only [tried, if_true]
        exact replies _ _
      · simp only [tried, if_false]
        exact replies _ _
  | markBootSuccess slot =>
    simp only [perform, markBootSuccess, Operation.intends, bind_apply, found]
    cases pending : state.pending with
    | none => by_cases confirmed : state.confirmed = slot <;> simp [confirmed, pure_apply, throw_apply]
    | some trial => by_cases expected : trial = slot <;> simp [expected, throw_apply]

variable {attempt : Attempt} {result : Except BootControlError (Option BootDecision)}

structure Moves (state : BootControlState) (attempt : Attempt) (result : Except BootControlError (Option BootDecision))
    (after : Store) (copy' : RecordCopy) (state' : BootControlState) : Prop where
  leading : after.Leading copy' state'
  outcome : Outcome state attempt result state'
  recorded : state' = state ∨ ∃ copy bytes, after.writes.getLast? = some (copy, bytes) ∧
    decodeRecord bytes = some state'
  persisted : (∃ copy bytes, after.writes.getLast? = some (copy, bytes) ∧ after.record copy = some bytes) →
    state.generation < state'.generation

theorem step_moves (leading : store.Leading copy state) (attempt : Attempt) :
    ∃ copy' state', Moves state attempt (step store attempt).1 (step store attempt).2 copy' state' := by
  have armed : (store.armed attempt.2).Leading copy state := leading
  have performed := perform_eq armed attempt.1
  have unwritten {result : Except BootControlError (Option BootDecision)}
      (outcome : Outcome state attempt result state) :
      ∃ copy' state', Moves state attempt result (store.armed attempt.2) copy' state' := by
    refine ⟨copy, state, armed, outcome, .inl rfl, ?_⟩
    rintro ⟨_, _, last, _⟩
    cases last
  unfold step settle
  cases intends : attempt.1.intends state with
  | error error =>
    rw [performed, intends]
    exact unwritten (.refused intends)
  | ok intended =>
    obtain ⟨reply, _ | next⟩ := intended
    · rw [performed, intends]
      exact unwritten (.answered intends)
    simp only [intends] at performed
    cases succ : checkedSucc state.generation with
    | none =>
      have failed (store : Store) : persist ⟨state, some copy⟩ next store = .error .generationExhausted store := by
        simp [persist, succ, orThrow, bind_apply, throw_apply]
      rw [performed, bind_error (failed _)]
      exact unwritten (.exhausted intends succ)
    | some generation =>
      have newer : state.generation < generation := lt_checkedSucc succ
      have encoded := encodeRecord_eq ((Operation.intended intends).valid leading.valid generation)
      have decoded := decodeRecord_encodeRecord encoded
      obtain ⟨after, last, ⟨done, leads⟩ | ⟨failed, ⟨how, crashed⟩, leads | ⟨absent, leads⟩⟩⟩ :=
        armed.persisted next succ encoded
      · rw [performed, bind_ok done]
        exact ⟨copy.other, _, leads, .written intends succ, .inr ⟨_, _, last, decoded⟩, fun _ => newer⟩
      · rw [performed, bind_error failed]
        exact ⟨copy.other, _, leads, .cut intends succ crashed, .inr ⟨_, _, last, decoded⟩, fun _ => newer⟩
      · rw [performed, bind_error failed]
        refine ⟨copy, state, leads, .lost intends crashed, .inl rfl, ?_⟩
        rintro ⟨_, _, found, there⟩
        cases last.symm.trans found
        exact absurd there absent

/-- After every interrupted operation of a run, the journal loads the newest accepted state: the one
before the operation or the one whose record was being written. -/
theorem load_survives_interruptions (store : Store) (recoverable : store.Recoverable) (attempts : List Attempt) :
    ∀ event ∈ Runs.trace step store attempts, ∃ before after,
      event.before.Latest before ∧ event.after.Latest after ∧
      load event.before = .ok before event.before ∧ load event.after = .ok after event.after ∧
        (after = before ∨ ∃ copy bytes, event.after.writes.getLast? = some (copy, bytes) ∧
          decodeRecord bytes = some after) := by
  refine Runs.forall_event (I := fun store => ∃ copy state, store.Leading copy state) ?_ ?_ recoverable.leading attempts
  · rintro store attempt ⟨copy, state, leading⟩
    obtain ⟨copy', state', moves⟩ := step_moves leading attempt
    exact ⟨copy', state', moves.leading⟩
  · rintro store attempt ⟨copy, state, leading⟩
    obtain ⟨copy', state', moves⟩ := step_moves leading attempt
    exact ⟨state, state', leading.latest, moves.leading.latest, leading.load, moves.leading.load, moves.recorded⟩

theorem settle_bind_pure {α β : Type} (call : Journal α) (value : α → β) (store : Store) :
    (settle (do return value (← call)) store).2 = (settle call store).2 := by
  simp only [settle, bind_apply]
  cases call store <;> rfl

/-- A journal with one record, whose update to slot B is torn, tried again and cut short after
the record is whole. -/
theorem load_survives_torn_update :
    let store : Store :=
      { record := fun | .first => encodeRecord { BootControlState.initial with generation := 1 } | .second => none }
    let torn : Attempt := (.stageUpdate .b, some (0, .torn (some [0x4e]) rfl))
    let cut : Attempt := (.stageUpdate .b, some (0, .complete))
    let event := Runs.event step (step store torn).2 cut
    store.Recoverable ∧ ∃ before after,
      event.before.Latest before ∧ event.after.Latest after ∧
      load event.before = .ok before event.before ∧ load event.after = .ok after event.after ∧
        (after = before ∨ ∃ copy bytes, event.after.writes.getLast? = some (copy, bytes) ∧
          decodeRecord bytes = some after) := by
  intro store torn cut event
  have recoverable : store.Recoverable := by
    constructor
    · exact ⟨.first, by decide +kernel⟩
    · intro first second _ held
      cases held
  exact ⟨recoverable, load_survives_interruptions store recoverable [torn, cut] event (by simp [Runs.trace, event])⟩

def Store.empty : Store := { record := fun _ => none }

def baseline : BootControlState := { BootControlState.initial with generation := 1 }

def baselineRecord : List UInt8 := recordBody baseline ++ leBytes 4 (crc32 (recordBody baseline)).toNat

theorem encode_baseline : encodeRecord baseline = some baselineRecord := encodeRecord_eq rfl

theorem current_absent (absent : ∀ copy, store.record copy = none) : current store = .ok ⟨.initial, none⟩ store := by
  simp [current, Store.current, absent, accepted]

theorem load_absent (absent : ∀ copy, store.record copy = none) : load store = .ok .initial store := by
  rw [load, bind_ok (current_absent absent)]
  rfl

theorem persist_baseline (store : Store) :
    persist ⟨.initial, none⟩ .initial store = writeRecord .first baselineRecord store := by
  have succ : checkedSucc BootControlState.initial.generation = some 1 := by decide
  exact persist_eq succ encode_baseline store

theorem stageUpdate_absent (absent : ∀ copy, store.record copy = none) : stageUpdate .b store = (do
      writeRecord .first baselineRecord
      let found ← current
      persist found { found.state with pending := some .b, attempts := 0 } : Journal Unit) store := by
  have fresh : BootControlState.initial.pending = none := rfl
  have other : SystemSlot.b ≠ BootControlState.initial.confirmed := by decide
  rw [stageUpdate, bind_ok (current_absent absent)]
  simp [fresh, other, bind_apply, persist_baseline]

def afterFirstUpdate (slot : SystemSlot) (later : Nat) (interruption : Interruption) : Store :=
  (step .empty (.stageUpdate slot, some (later, interruption))).2

theorem load_baseline (first : store.record .first = some baselineRecord)
    (second : accepted (store.record .second) = none) : store.Leading .first baseline := by
  have newest : store.Newest .first baseline :=
    ⟨by rw [first, accepted_encoded encode_baseline], by rw [RecordCopy.other, second]; exact nofun⟩
  exact newest.current

theorem afterFirstUpdate_succ (later : Nat) (interruption : Interruption) :
    ∃ copy state, (afterFirstUpdate .b (later + 1) interruption).Leading copy state ∧ state.confirmed = .a := by
  let written : Store :=
    { record := update (fun _ => none) .first (some baselineRecord)
      interruption := some (later, interruption)
      writes := [(.first, baselineRecord)] }
  have leading : written.Leading .first baseline := load_baseline rfl rfl
  have one : afterFirstUpdate .b (later + 1) interruption =
      (settle (persist ⟨baseline, some .first⟩ { baseline with pending := some .b, attempts := 0 }) written).2 := by
    rw [afterFirstUpdate, step, perform, settle_bind_pure (stageUpdate .b) fun _ => none, settle,
      stageUpdate_absent fun _ => rfl]
    have first : writeRecord .first baselineRecord
        { Store.empty with interruption := some (later + 1, interruption), writes := [] } = .ok () written := rfl
    rw [bind_ok first, bind_ok leading.current_apply]
    rfl
  have succ : checkedSucc baseline.generation = some 2 := rfl
  obtain ⟨after, _, ⟨done, leads⟩ | ⟨failed, _, leads | ⟨_, leads⟩⟩⟩ :=
    leading.persisted { baseline with pending := some .b, attempts := 0 } succ (encodeRecord_eq rfl)
  · rw [one, settle, done]
    exact ⟨.second, _, leads, rfl⟩
  · rw [one, settle, failed]
    exact ⟨.second, _, leads, rfl⟩
  · rw [one, settle, failed]
    exact ⟨.first, _, leads, rfl⟩

/-- The first update leaves a journal that loads slot A as confirmed, unless its first write, the
one of the baseline, leaves bytes that are not a record. -/
theorem first_update_loads_iff (slot : SystemSlot) (later : Nat) (interruption : Interruption) :
    (∃ state, load (afterFirstUpdate slot later interruption) =
        .ok state (afterFirstUpdate slot later interruption) ∧ state.confirmed = .a) ↔
      ¬(slot = .b ∧ later = 0 ∧ ∃ bytes rejected, interruption = .torn (some bytes) rejected) := by
  cases slot with
  | a =>
    have same : afterFirstUpdate .a later interruption =
        { Store.empty with interruption := some (later, interruption) } := rfl
    have loads : load (afterFirstUpdate .a later interruption) =
        .ok .initial (afterFirstUpdate .a later interruption) := load_absent fun _ => by rw [same]; rfl
    exact iff_of_true ⟨.initial, loads, rfl⟩ nofun
  | b =>
    cases later with
    | succ later =>
      obtain ⟨copy, state, leading, confirmed⟩ := afterFirstUpdate_succ later interruption
      exact iff_of_true ⟨state, leading.load, confirmed⟩ fun torn => absurd torn.2.1 (Nat.succ_ne_zero later)
    | zero =>
      have left : (afterFirstUpdate .b 0 interruption).record =
        update (fun _ => none) .first (interruption.leaves none baselineRecord) := rfl
      generalize afterFirstUpdate .b 0 interruption = store at left ⊢
      have absent (nothing : interruption.leaves none baselineRecord = none) : load store = .ok .initial store := by
        have gone (copy : RecordCopy) : store.record copy = none := by
          rw [left, nothing]
          cases copy <;> rfl
        exact load_absent gone
      cases interruption with
      | old => exact iff_of_true ⟨.initial, absent rfl, rfl⟩ nofun
      | complete =>
        have leading : store.Leading .first baseline := load_baseline (by rw [left]; rfl) (by rw [left]; rfl)
        exact iff_of_true ⟨baseline, leading.load, rfl⟩ nofun
      | torn contents rejected =>
        cases contents with
        | none => exact iff_of_true ⟨.initial, absent rfl, rfl⟩ nofun
        | some bytes =>
          -- one copy is there and neither is a record
          have first : store.record .first = some bytes := by rw [left]; rfl
          have second : store.record .second = none := by rw [left]; rfl
          have none : accepted (none : Option (List UInt8)) = none := rfl
          have corrupt : store.current = .error .corruptRecords := by
            simp [Store.current, first, second, rejected, none]
          simp [load, current, corrupt, bind_apply, rejected]

/-- The baseline record torn after its first eleven bytes. -/
def tornBaseline : List UInt8 := baselineRecord.take 11 ++ List.replicate 21 0

theorem tornBaseline_rejected : accepted (some tornBaseline) = none := by decide +kernel

theorem torn_baseline_unreadable :
    (settle load (afterFirstUpdate .b 0 (.torn (some tornBaseline) tornBaseline_rejected))).1 =
      .error .corruptRecords := by
  decide +kernel

end Nagi.Loader
