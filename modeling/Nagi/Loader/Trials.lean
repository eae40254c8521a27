import Nagi.Loader.Recovery

/-! Trials of a staged slot, over runs with crashes at any point. -/

namespace Nagi.Loader

open Lib Runs Function Operation

variable {state next : BootControlState} {operation : Operation} {reply : Option BootDecision} {store : Store}
  {copy : RecordCopy} {attempt : Attempt} {result : Except BootControlError (Option BootDecision)}

def Persisted (event : Event Store Attempt (Except BootControlError (Option BootDecision))) : Prop :=
  ∃ copy bytes, event.after.writes.getLast? = some (copy, bytes) ∧ event.after.record copy = some bytes

variable {state' : BootControlState}

/-- The confirmed slot changes only to a pending slot that is reported as successful. -/
theorem Outcome.confirmed (outcome : Outcome state attempt result state') : state'.confirmed = state.confirmed ∨
      ∃ slot, attempt.1 = .markBootSuccess slot ∧ state.pending = some slot ∧ state'.confirmed = slot := by
  obtain ⟨operation, _⟩ := attempt
  cases outcome with
  | refused | answered | exhausted | lost => exact .inl rfl
  | cut intends | written intends =>
    cases Operation.intended intends with
    | staged | rolledBack | tried => exact .inl rfl
    | confirmed pending => exact .inr ⟨_, rfl, pending, rfl⟩

variable {slot : SystemSlot}

theorem Intended.trial (pending : state.pending = some slot) (intended : Intended state operation reply next)
    (still : next.pending = some slot) : ¬state.attempts ≥ maxBootAttempts ∧ next.attempts = state.attempts + 1 ∧
      reply = some ⟨slot, next.attempts, false⟩ := by
  cases intended with
  | staged idle => cases pending.symm.trans idle
  | rolledBack | confirmed => cases still
  | tried waiting left =>
    cases pending.symm.trans waiting
    exact ⟨left, rfl, rfl⟩

theorem Outcome.trial (pending : state.pending = some slot) (outcome : Outcome state attempt result state')
    (still : state'.pending = some slot) : state.attempts.toNat ≤ state'.attempts.toNat ∧
      ∀ decision, result = .ok (some decision) →
        decision = ⟨slot, state'.attempts, false⟩ ∧ state'.attempts.toNat = state.attempts.toNat + 1 := by
  cases outcome with
  | refused | exhausted | lost => exact ⟨Nat.le_refl _, nofun⟩
  | answered intends =>
    refine ⟨Nat.le_refl _, ?_⟩
    -- a decision without a write is one for a journal with nothing pending
    cases operation : attempt.1 with
    | stageUpdate other => simp [operation, Operation.intends, pending] at intends
    | beginBoot =>
      simp only [operation, Operation.intends, pending] at intends
      split_ifs at intends <;> cases intends
    | markBootSuccess other =>
      simp only [operation, Operation.intends, pending] at intends
      split_ifs at intends
      cases intends
  | cut intends =>
    obtain ⟨tried, counted, _⟩ := (intended intends).trial pending still
    refine ⟨?_, nofun⟩
    rw [counted, (toNat_succ_attempts tried).1]
    exact Nat.le_succ _
  | written intends =>
    obtain ⟨tried, counted, reply⟩ := (intended intends).trial pending still
    have succ := (toNat_succ_attempts tried).1
    constructor
    · rw [counted, succ]
      exact Nat.le_succ _
    · rintro decision ⟨⟩
      refine ⟨Option.some.inj reply, ?_⟩
      rw [counted, succ]

theorem Store.Present.leading (present : store.Present) (loaded : Loader.load store = .ok state store) :
    ∃ copy, store.Leading copy state := by
  rcases present.leading_or_corrupt with ⟨copy, other, leading⟩ | ⟨corrupt, _⟩
  · have same := leading.load.symm.trans loaded
    cases same
    exact ⟨copy, leading⟩
  · have failed : Loader.current store = .error .corruptRecords store := by
      rw [Loader.current, corrupt]
    rw [Loader.load, bind_error failed] at loaded
    cases loaded

theorem step_corrupt (corrupt : store.current = .error .corruptRecords) (attempt : Attempt) :
    step store attempt = (.error .corruptRecords, store.armed attempt.2) := by
  have failed : current (store.armed attempt.2) = .error .corruptRecords (store.armed attempt.2) := by
    have same : (store.armed attempt.2).current = store.current := rfl
    rw [current, same, corrupt]
  unfold step settle
  cases attempt.1 with
  | stageUpdate slot => rw [perform, stageUpdate, bind_error (bind_error failed _)]
  | beginBoot => rw [perform, beginBoot, bind_error (bind_error failed _)]
  | markBootSuccess slot => rw [perform, markBootSuccess, bind_error (bind_error failed _)]

theorem step_present (present : store.Present) (attempt : Attempt) : (step store attempt).2.Present := by
  rcases present.leading_or_corrupt with ⟨copy, state, leading⟩ | ⟨corrupt, _⟩
  · obtain ⟨copy', state', leading', _⟩ := step_moves leading attempt
    exact leading'.present
  · rw [step_corrupt corrupt]
    exact present

def decisions (history : List (Event Store Attempt (Except BootControlError (Option BootDecision)))) :
    List BootDecision :=
  history.filterMap fun event => match event.result with
    | .ok decision => decision
    | .error _ => none

variable {history : List (Event Store Attempt (Except BootControlError (Option BootDecision)))}

theorem mem_decisions {decision : BootDecision} :
    decision ∈ decisions history ↔ ∃ event ∈ history, event.result = .ok (some decision) := by
  unfold decisions
  rw [List.mem_filterMap]
  refine exists_congr fun event => and_congr_right fun _ => ?_
  cases event.result <;> simp

theorem decisions_cons {event : Event Store Attempt (Except BootControlError (Option BootDecision))} :
    (∃ decision, event.result = .ok (some decision) ∧ decisions (event :: history) = decision :: decisions history) ∨
      (∀ decision, event.result ≠ .ok (some decision)) ∧ decisions (event :: history) = decisions history := by
  unfold decisions
  rw [List.filterMap_cons]
  rcases event.result with _ | _ | decision
  · exact .inr ⟨nofun, rfl⟩
  · exact .inr ⟨nofun, rfl⟩
  · exact .inl ⟨decision, rfl, rfl⟩

def PendingSlot (slot : SystemSlot) (store : Store) : Prop :=
  ∃ state, load store = .ok state store ∧ state.pending = some slot

theorem trials_of_leading (leading : store.Leading copy state) (pending : state.pending = some slot)
    (attempts : List Attempt) (always : Runs.Always step (PendingSlot slot) store attempts) :
    ∃ copy' state', (run step store attempts).Leading copy' state' ∧ state'.pending = some slot ∧
      state.attempts.toNat + (decisions (trace step store attempts)).length ≤ state'.attempts.toNat ∧
      ((decisions (trace step store attempts)).map fun decision => decision.trialAttempt.toNat).Pairwise (· < ·) ∧
      ∀ event ∈ trace step store attempts, ∀ decision, event.result = .ok (some decision) →
        state.attempts.toNat < decision.trialAttempt.toNat ∧ decision.slot = slot ∧ decision.rolledBack = false ∧
          ∃ durable, load event.after = .ok durable event.after ∧ durable.pending = some slot ∧
            durable.attempts = decision.trialAttempt := by
  induction attempts generalizing store copy state with
  | nil =>
    refine ⟨copy, state, leading, pending, ?_, ?_, ?_⟩
    · simp [trace, decisions]
    · simp [trace, decisions]
    · simp [trace]
  | cons attempt rest ih =>
    obtain ⟨copy₁, state₁, leading₁, outcome, _⟩ := step_moves leading attempt
    have still : state₁.pending = some slot := by
      obtain ⟨durable, loaded, waiting⟩ := always.2.first
      rw [leading₁.load] at loaded
      cases loaded
      exact waiting
    obtain ⟨grows, decides⟩ := outcome.trial pending still
    obtain ⟨copy', state', leading', pending', counted, increasing, later⟩ := ih leading₁ still always.2
    have first (decision : BootDecision) (made : (step store attempt).1 = .ok (some decision)) :
        decision.trialAttempt = state₁.attempts ∧ state₁.attempts.toNat = state.attempts.toNat + 1 := by
      obtain ⟨rfl, next⟩ := decides decision made
      exact ⟨rfl, next⟩
    have after (decision : BootDecision) (made : decision ∈ decisions (trace step (step store attempt).2 rest)) :
        state₁.attempts.toNat < decision.trialAttempt.toNat := by
      obtain ⟨event, member, result⟩ := mem_decisions.mp made
      exact (later event member decision result).1
    refine ⟨copy', state', leading', pending', ?_, ?_, ?_⟩
    · rw [trace]
      obtain ⟨decision, made, same⟩ | ⟨_, same⟩ := decisions_cons
      · rw [same, List.length_cons]
        have next := (first decision made).2
        omega
      · rw [same]
        omega
    · rw [trace]
      obtain ⟨decision, made, same⟩ | ⟨_, same⟩ := decisions_cons
      · rw [same, List.map_cons, List.pairwise_cons]
        refine ⟨?_, increasing⟩
        intro number member
        obtain ⟨other, among, rfl⟩ := List.mem_map.mp member
        rw [(first decision made).1]
        exact after other among
      · rw [same]
        exact increasing
    · intro event member decision result
      rcases List.mem_cons.mp member with rfl | among
      · obtain ⟨number, next⟩ := first decision result
        obtain ⟨made, _⟩ := decides decision result
        refine ⟨?_, by rw [made], by rw [made], state₁, leading₁.load, still, number.symm⟩
        rw [number, next]
        exact Nat.lt_succ_self _
      · obtain ⟨number, known⟩ := later event among decision result
        exact ⟨Nat.lt_of_le_of_lt grows number, known⟩

theorem Outcome.staged {interruption : Option (Nat × Interruption)}
    (outcome : Outcome state (.stageUpdate slot, interruption) (.ok none) state') :
    state'.pending = some slot ∧ state'.attempts = 0 := by
  cases outcome with
  | answered intends =>
    simp only [Operation.intends] at intends
    split_ifs at intends
    cases intends
  | written intends =>
    cases intended intends
    exact ⟨rfl, rfl⟩

theorem checkedSucc_eq_none {generation : BitVec 64} :
    checkedSucc generation = none ↔ generation = BitVec.allOnes 64 := by
  unfold checkedSucc
  split <;> simp_all

/-- What `begin_boot` does, if it is not cut short. -/
def RollsBack (store : Store) : Prop :=
  ∃ state, load store = .ok state store ∧ ∀ interruption, (∀ how, interruption ≠ some (0, how)) →
    ∃ after, load (step store (.beginBoot, interruption)).2 = .ok after (step store (.beginBoot, interruption)).2 ∧
      if state.generation = BitVec.allOnes 64 then
        (step store (.beginBoot, interruption)).1 = .error .generationExhausted ∧ after = state
      else
        (step store (.beginBoot, interruption)).1 = .ok (some ⟨state.confirmed, 0, true⟩) ∧ after.pending = none ∧
          after.confirmed = state.confirmed

theorem Store.Leading.rollsBack (leading : store.Leading copy state) (pending : state.pending = some slot)
    (tried : state.attempts ≥ maxBootAttempts) : RollsBack store := by
  refine ⟨state, leading.load, fun interruption whole => ?_⟩
  obtain ⟨copy', after, leading', outcome, _⟩ := step_moves leading (.beginBoot, interruption)
  refine ⟨after, leading'.load, ?_⟩
  have rollback : Operation.intends state .beginBoot =
      .ok (some ⟨state.confirmed, 0, true⟩, some { state with pending := none, attempts := 0 }) := by
    simp only [Operation.intends, pending, tried, if_true]
  generalize (step store (.beginBoot, interruption)).1 = result at outcome ⊢
  cases outcome with
  | refused intends | answered intends => cases rollback.symm.trans intends
  | exhausted intends last => rw [if_pos (checkedSucc_eq_none.mp last)]; exact ⟨rfl, rfl⟩
  | lost _ crashed | cut _ _ crashed => exact absurd crashed (whole _)
  | written intends succ =>
    have more : state.generation ≠ BitVec.allOnes 64 := by
      intro last
      rw [checkedSucc_eq_none.mpr last] at succ
      cases succ
    rw [if_neg more]
    cases rollback.symm.trans intends
    exact ⟨rfl, rfl, rfl⟩

/-- Along every run with crashes, a staged slot is tried a bounded number of times before it is given up, and only its
success makes it the confirmed slot. -/
theorem trials_bounded (store : Store) (present : store.Present) (attempts : List Attempt) :
    (∀ event ∈ Runs.trace step store attempts, ∀ before, load event.before = .ok before event.before →
      ∃ after, load event.after = .ok after event.after ∧
        (after.confirmed ≠ before.confirmed →
          event.action.1 = .markBootSuccess after.confirmed ∧ before.pending = some after.confirmed) ∧
        (Persisted event → before.generation < after.generation)) ∧
    ∀ earlier slot interruption later, attempts = earlier ++ (.stageUpdate slot, interruption) :: later →
      let staged := step (Runs.run step store earlier) (.stageUpdate slot, interruption)
      staged.1 = .ok none → Runs.Always step (PendingSlot slot) staged.2 later →
        let history := Runs.trace step staged.2 later
        (decisions history).length ≤ maxBootAttempts.toNat ∧
        ((decisions history).map fun decision => decision.trialAttempt.toNat).Pairwise (· < ·) ∧
        (∀ event ∈ history, ∀ decision, event.result = .ok (some decision) →
          decision.slot = slot ∧ decision.rolledBack = false ∧
            ∃ durable, load event.after = .ok durable event.after ∧ durable.pending = some slot ∧
              durable.attempts = decision.trialAttempt) ∧
        ((decisions history).length = maxBootAttempts.toNat → RollsBack (Runs.run step staged.2 later)) := by
  constructor
  · refine forall_event (I := Store.Present) (fun _ attempt held => step_present held attempt) ?_ present attempts
    intro store attempt present before loaded
    obtain ⟨copy, leading⟩ := present.leading loaded
    obtain ⟨copy', after, leading', outcome, _, persisted⟩ := step_moves leading attempt
    refine ⟨after, leading'.load, fun changed => ?_, persisted⟩
    obtain ⟨slot, operation, pending, confirmed⟩ := outcome.confirmed.resolve_left changed
    exact ⟨confirmed ▸ operation, confirmed ▸ pending⟩
  · intro earlier slot interruption later _ staged done always history
    have reached : (run step store earlier).Present :=
      run_invariant (P := Store.Present) (fun _ attempt held => step_present held attempt) present earlier
    rcases reached.leading_or_corrupt with ⟨copy, state, leading⟩ | ⟨corrupt, _⟩
    · obtain ⟨copy₁, state₁, leading₁, outcome, _⟩ := step_moves leading (.stageUpdate slot, interruption)
      have ok : (step (run step store earlier) (.stageUpdate slot, interruption)).1 = .ok none := done
      rw [ok] at outcome
      obtain ⟨pending, fresh⟩ := outcome.staged
      obtain ⟨copy', state', leading', pending', counted, increasing, decided⟩ :=
        trials_of_leading leading₁ pending later always
      have total : state₁.attempts.toNat + (decisions history).length ≤ state'.attempts.toNat := counted
      have bound := UInt8.le_iff_toNat_le.mp (validateState_ok_iff.mp leading'.valid).1
      refine ⟨by omega, increasing, fun event member decision result => (decided event member decision result).2, ?_⟩
      intro all
      apply leading'.rollsBack pending'
      rw [ge_iff_le, UInt8.le_iff_toNat_le]
      omega
    · have failed : staged.1 = .error .corruptRecords := by
        simp only [staged, step_corrupt corrupt]
      rw [failed] at done
      cases done

def storeAt (generation : BitVec 64) : Store :=
  { record := fun
      | .first => encodeRecord { BootControlState.initial with generation := generation }
      | .second => none }

def threeTrials : List Attempt := [(.beginBoot, none), (.beginBoot, none), (.beginBoot, none)]

theorem pendingSlot_of_current (pending : store.current.toOption.bind (fun found => found.state.pending) = some slot) :
    PendingSlot slot store := by
  cases found : store.current with
  | error error =>
    rw [found] at pending
    cases pending
  | ok current =>
    rw [found] at pending
    have reads : Loader.current store = .ok current store := by rw [Loader.current, found]
    exact ⟨current.state, bind_ok reads _, pending⟩

theorem trials_bounded_from_first_generation :
    let staged := step (storeAt 1) (.stageUpdate .b, none)
    (storeAt 1).Present ∧ (decisions (Runs.trace step staged.2 threeTrials)).length = maxBootAttempts.toNat ∧
      RollsBack (Runs.run step staged.2 threeTrials) := by
  intro staged
  have present : (storeAt 1).Present := ⟨.first, by decide +kernel⟩
  have always : Runs.Always step (PendingSlot .b) staged.2 threeTrials :=
    ⟨pendingSlot_of_current (by decide +kernel), pendingSlot_of_current (by decide +kernel),
      pendingSlot_of_current (by decide +kernel), pendingSlot_of_current (by decide +kernel)⟩
  have all : (decisions (trace step staged.2 threeTrials)).length = maxBootAttempts.toNat := by decide +kernel
  obtain ⟨_, runs⟩ := trials_bounded (storeAt 1) present ((.stageUpdate .b, none) :: threeTrials)
  obtain ⟨_, _, _, rollsBack⟩ := runs [] .b none threeTrials rfl (by decide +kernel) always
  exact ⟨present, all, rollsBack all⟩

/-- After the last generation begin_boot neither gives the slot up nor tries it again. -/
theorem last_generation_keeps_trial :
    let staged := step (storeAt (BitVec.allOnes 64 - 4)) (.stageUpdate .b, none)
    staged.1 = .ok none ∧ (decisions (Runs.trace step staged.2 threeTrials)).length = maxBootAttempts.toNat ∧
      (step (Runs.run step staged.2 threeTrials) (.beginBoot, none)).1 = .error .generationExhausted := by
  decide +kernel

end Nagi.Loader
