import Nagi.Kernel.Scheduler.Joins

/-! How the exit codes of threads are delivered. -/

namespace Nagi.Kernel.BootstrapUserThreads

open Lib Runs

variable {n : Nat}

variable (threads : BootstrapUserThreads n)

def Ends (thread : Fin (n + 1)) : Transition n → Prop
  | .exitCurrent exitCode now => threads.current = thread ∧ (threads.exitCurrent exitCode now).1.isSome = true
  | _ => False

def Reaps (thread : Fin (n + 1)) (exitCode : BitVec 64) : Transition n → Prop
  | .joinCurrent target now => target = thread.val ∧ (threads.joinCurrent target now).1 = .completed exitCode
  | _ => False

def Detaches (thread : Fin (n + 1)) : Transition n → Prop
  | .detach target => target = thread.val ∧ (threads.detach target).1 = true
  | _ => False

def Removes (thread : Fin (n + 1)) : Transition n → Prop
  | .exitProcess owner _ => owner ≠ initProcessId ∧ (threads.slots thread).owner = owner
  | _ => False

def AbortsJoin (thread : Fin (n + 1)) : Transition n → Prop
  | .abortBlockedJoin => threads.current = thread
  | _ => False

def Reuses (thread : Fin (n + 1)) : Transition n → Prop
  | .allocate => threads.allocate.1 = some thread
  | .allocateForProcess owner => (threads.allocateForProcess owner).1 = some thread
  | _ => False

inductive Change (threads : BootstrapUserThreads n) (transition : Transition n) (thread : Fin (n + 1)) :
    UserThreadState n → UserThreadState n → Prop where
  | same (state : UserThreadState n) : Change threads transition thread state state
  | acts {old new : UserThreadState n} (active : old.active = true) (unended : ∀ exitCode, new ≠ .zombie exitCode) :
      Change threads transition thread old new
  | starts {new : UserThreadState n} (active : new.active = true) : Change threads transition thread .empty new
  | ends (exitCode : BitVec 64) (ended : threads.Ends thread transition) :
      Change threads transition thread .running (.zombie exitCode)
  | reaped {exitCode : BitVec 64} (reaped : threads.Reaps thread exitCode transition) :
      Change threads transition thread (.zombie exitCode) .empty
  | detached {exitCode : BitVec 64} (detached : threads.Detaches thread transition) :
      Change threads transition thread (.zombie exitCode) .empty
  | removed {old : UserThreadState n} (removed : threads.Removes thread transition) :
      Change threads transition thread old .empty
  | released {target : Fin (n + 1)} {new : UserThreadState n}
      (ended : threads.AbortsJoin thread transition ∨ threads.Ends target transition) (active : new.active = true) :
      Change threads transition thread (.joinBlocked target) new

variable {threads middle after : BootstrapUserThreads n} {transition : Transition n} {thread : Fin (n + 1)}

def Changes (threads : BootstrapUserThreads n) (transition : Transition n) (after : BootstrapUserThreads n) : Prop :=
  ∀ thread, Change threads transition thread (threads.slots thread).state (after.slots thread).state

theorem Changes.refl (threads : BootstrapUserThreads n) (transition : Transition n) :
    Changes threads transition threads := fun _ => .same _

section
variable (changes : Changes threads transition middle)
include changes

theorem Changes.moves
    (moves : ∀ thread, SlotMoves (middle.slots thread) (after.slots thread)) : Changes threads transition after := by
  intro thread
  have change := changes thread
  rcases (moves thread).state with same | ⟨was, is⟩
  · rw [same]
    exact change
  · generalize (threads.slots thread).state = old, (middle.slots thread).state = state,
      (after.slots thread).state = new at change was is
    have unended : ∀ exitCode, new ≠ .zombie exitCode := by
      rintro exitCode rfl
      cases is
    cases change with
    | same => exact .acts was unended
    | acts active => exact .acts active unended
    | starts => exact .starts is
    | released ended => exact .released ended is
    | _ => cases was

theorem Changes.withSlot {slot : ThreadSlot n}
    (change : Change threads transition thread (threads.slots thread).state slot.state) :
    Changes threads transition (middle.withSlot thread slot) := by
  intro other
  by_cases here : other = thread
  · subst here
    rw [slots_withSlot_self]
    exact change
  · rw [slots_withSlot_of_ne _ _ here]
    exact changes other

theorem Changes.setState {state : UserThreadState n}
    (change : Change threads transition thread (threads.slots thread).state state) :
    Changes threads transition (middle.setState thread state) :=
  changes.withSlot change

theorem Changes.selectRunnable (now : Nat) : Changes threads transition (middle.selectRunnable now).2 :=
  changes.moves fun thread => ((selectRunnable_selected middle now).settles thread).moves

end

section
variable (threads)

theorem allocateForProcess_changes (transition : Transition n) (owner : Nat) :
    Changes threads transition (threads.allocateForProcess owner).2 := by
  rcases allocateForProcess_spec threads owner with full | ⟨id, _, empty, allocated⟩
  · rw [full]
    exact .refl _ _
  · rw [allocated]
    refine (Changes.refl _ _).withSlot ?_
    rw [empty]
    exact .starts rfl

theorem joinCurrent_changes (target now : Nat) :
    Changes threads (.joinCurrent target now) (threads.joinCurrent target now).2 := by
  have unchanged := Changes.refl threads (.joinCurrent target now)
  rcases joinCurrent_cases threads target now with
    refused | ⟨thread, same, _, apart, _, _, _, ⟨exitCode, ended, reaped⟩ | ⟨_, running, blocked⟩⟩
  · rw [refused]
    exact unchanged
  · have reaps : Reaps threads thread exitCode (.joinCurrent target now) := ⟨same, by rw [reaped]⟩
    rw [reaped]
    refine unchanged.withSlot ?_
    rw [ended]
    exact .reaped reaps
  · rw [blocked]
    apply Changes.selectRunnable
    refine Changes.setState ?_ (.acts ?_ ?_)
    · exact unchanged.withSlot (.same _)
    · rw [running]
      rfl
    · exact fun _ => nofun

theorem abortBlockedJoin_changes : Changes threads .abortBlockedJoin threads.abortBlockedJoin.2 := by
  have unchanged := Changes.refl threads .abortBlockedJoin
  unfold abortBlockedJoin
  split
  · next target blocked =>
    refine Changes.setState ?_ ?_
    · split
      · exact unchanged.withSlot (.same _)
      · exact unchanged
    · rw [blocked]
      exact .released (.inl rfl) rfl
  · exact unchanged

theorem detach_changes (target : Nat) : Changes threads (.detach target) (threads.detach target).2 := by
  have unchanged := Changes.refl threads (.detach target)
  rcases detach_cases threads target with refused | ⟨thread, same, _, _, ⟨_, ended, reaped⟩ | marked⟩
  · rw [refused]
    exact unchanged
  · have detached : Detaches threads thread (.detach target) := ⟨same, by rw [reaped]⟩
    rw [reaped]
    refine unchanged.withSlot ?_
    rw [ended]
    exact .detached detached
  · rw [marked]
    exact unchanged.withSlot (.same _)

end

theorem Consistent.exitCurrent_changes (consistent : Consistent threads) (exitCode : BitVec 64) (now : Nat) :
    Changes threads (.exitCurrent exitCode now) (threads.exitCurrent exitCode now).2 := by
  have unchanged := Changes.refl threads (.exitCurrent exitCode now)
  rcases consistent.exitCurrent_cases exitCode now with refused | ⟨_, running, left, exited, outcome⟩
  · rw [refused]
    exact unchanged
  · have ends : Ends threads threads.current (.exitCurrent exitCode now) := ⟨rfl, by rw [exited]; rfl⟩
    have emptied : Changes threads (.exitCurrent exitCode now) (threads.withSlot threads.current .empty) := by
      refine unchanged.withSlot (.acts ?_ fun _ => nofun)
      rw [running]
      rfl
    rw [exited]
    refine Changes.moves ?_ fun thread => ((selectRunnablePrefer_selected left now _).settles thread).moves
    rcases outcome with ⟨joiner, _, _, blocked, rfl⟩ | ⟨_, rfl⟩
    · refine emptied.setState ?_
      rw [blocked]
      exact .released (.inr ends) rfl
    · split
      · exact emptied
      · refine unchanged.setState ?_
        rw [running]
        exact .ends exitCode ends

theorem exitProcess_changes (threads : BootstrapUserThreads n) (owner now : Nat) :
    Changes threads (.exitProcess owner now) (threads.exitProcess owner now).2 := by
  unfold exitProcess
  split
  · exact .refl _ _
  next isolated =>
  have remaining : Changes threads (.exitProcess owner now) (threads.withoutProcess owner) := by
    intro thread
    simp only [withoutProcess]
    split
    · next owned => exact .removed ⟨isolated, owned.2⟩
    · exact .same _
  split
  · exact .refl _ _
  · dsimp only
    split
    · exact remaining.selectRunnable now
    · exact remaining

theorem discardUnstarted_changes (threads : BootstrapUserThreads n) (transition : Transition n) (thread : Fin (n + 1)) :
    Changes threads transition (threads.discardUnstarted thread).2 := by
  unfold discardUnstarted
  split
  · exact .refl _ _
  next unstarted =>
  simp only [ne_eq, not_or, not_not] at unstarted
  refine (Changes.refl _ _).withSlot (.acts ?_ fun _ => nofun)
  rw [unstarted.1]
  rfl

theorem step_changes (consistent : Consistent threads) (transition : Transition n) :
    Changes threads transition (threads.step transition).2 := by
  have unchanged := Changes.refl threads transition
  cases transition with
  | allocate => exact allocateForProcess_changes threads _ _
  | allocateForProcess owner => exact allocateForProcess_changes threads _ owner
  | discardUnstarted thread => exact discardUnstarted_changes threads _ thread
  | yieldCurrent now => exact unchanged.moves (yieldCurrent_moves threads now).slots
  | sleepCurrent wakeAt now => exact unchanged.moves (sleepCurrent_moves threads wakeAt now).slots
  | blockCurrentOnChannel => exact unchanged.moves (blockCurrentOnChannel_moves threads).slots
  | wakeChannelWaiter thread => exact unchanged.moves (wakeChannelWaiter_moves threads thread).slots
  | abortCurrentChannelWait => exact unchanged.moves (abortCurrentChannelWait_moves threads).slots
  | joinCurrent target now => exact joinCurrent_changes threads target now
  | abortBlockedJoin => exact abortBlockedJoin_changes threads
  | detach target => exact detach_changes threads target
  | exitCurrent exitCode now => exact consistent.exitCurrent_changes exitCode now
  | exitProcess owner now => exact exitProcess_changes threads owner now
  | selectRunnable now => exact unchanged.selectRunnable now

theorem run_keeps {P : BootstrapUserThreads n → Prop} {C : BootstrapUserThreads n → Transition n → Prop}
    (keeps : ∀ threads transition, Consistent threads → P threads → C threads transition →
      P (threads.step transition).2)
    (consistent : Consistent threads) (holds : P threads) {transitions : List (Transition n)}
    (allowed : Runs.EachStep step Allowed threads transitions) (meets : Runs.EachStep step C threads transitions) :
    P (run step threads transitions) := by
  induction transitions generalizing threads with
  | nil => exact holds
  | cons transition rest ih =>
    exact ih (step_consistent consistent transition allowed.1) (keeps threads transition consistent holds meets.1)
      allowed.2 meets.2

variable {exitCode : BitVec 64}

theorem zombie_kept (consistent : Consistent threads) (ended : (threads.slots thread).state = .zombie exitCode)
    (unclaimed : (∀ code, ¬ threads.Reaps thread code transition) ∧ ¬ threads.Detaches thread transition ∧
      ¬ threads.Removes thread transition) :
    ((threads.step transition).2.slots thread).state = .zombie exitCode := by
  have change := step_changes consistent transition thread
  generalize ((threads.step transition).2.slots thread).state = new at change
  rw [ended] at change
  cases change with
  | same => rfl
  | acts active => cases active
  | reaped reaped => exact absurd reaped (unclaimed.1 exitCode)
  | detached detached => exact absurd detached unclaimed.2.1
  | removed removed => exact absurd removed unclaimed.2.2

theorem joinBlocked_kept {target : Fin (n + 1)} (consistent : Consistent threads)
    (blocked : (threads.slots thread).state = .joinBlocked target)
    (undisturbed : ¬ threads.Ends target transition ∧ ¬ threads.AbortsJoin thread transition ∧
      ¬ threads.Removes thread transition) :
    ((threads.step transition).2.slots thread).state = .joinBlocked target := by
  have change := step_changes consistent transition thread
  generalize ((threads.step transition).2.slots thread).state = new at change
  rw [blocked] at change
  cases change with
  | same => rfl
  | acts active => cases active
  | removed removed => exact absurd removed undisturbed.2.2
  | released ended => exact absurd ended (not_or.mpr ⟨undisturbed.2.1, undisturbed.1⟩)

theorem Reaps.zombie (reaps : threads.Reaps thread exitCode transition) :
    (threads.slots thread).state = .zombie exitCode ∧ ((threads.step transition).2.slots thread).state = .empty := by
  cases transition with
  | joinCurrent target now =>
    obtain ⟨same, done⟩ := reaps
    rcases joinCurrent_cases threads target now with
      refused | ⟨other, same', _, _, _, _, _, ⟨code, ended, reaped⟩ | ⟨_, _, blocked⟩⟩
    · rw [refused] at done
      cases done
    · obtain rfl : thread = other := Fin.ext (same.symm.trans same')
      rw [reaped] at done
      cases done
      refine ⟨ended, ?_⟩
      simp [step, reaped, ThreadSlot.empty]
    · rw [blocked] at done
      cases done
  | _ => exact reaps.elim

theorem zombie_since (consistent : Consistent threads) {transitions : List (Transition n)}
    (allowed : Runs.EachStep step Allowed threads transitions)
    (continues : Runs.EachStep step (fun threads transition => ¬ threads.Ends thread transition) threads transitions)
    (ended : ((run step threads transitions).slots thread).state = .zombie exitCode) :
    (threads.slots thread).state = .zombie exitCode ∧ Runs.EachStep step
      (fun threads transition => ∀ code, ¬ threads.Reaps thread code transition) threads transitions := by
  induction transitions generalizing threads with
  | nil => exact ⟨ended, trivial⟩
  | cons transition rest ih =>
    obtain ⟨later, unclaimed⟩ :=
      ih (step_consistent consistent transition allowed.1) allowed.2 continues.2 ended
    refine ⟨?_, fun code reaps => ?_, unclaimed⟩
    · have change := step_changes consistent transition thread
      generalize (threads.slots thread).state = old at change
      rw [later] at change
      cases change with
      | same => rfl
      | acts _ unended => exact absurd rfl (unended exitCode)
      | starts active => cases active
      | ends _ ended => exact absurd ended continues.1
      | released _ active => cases active
    · rw [reaps.zombie.2] at later
      cases later

theorem joinCurrent_blocked {now : Nat} (blocked : (threads.joinCurrent thread.val now).1 = .blocked) :
    ((threads.joinCurrent thread.val now).2.slots threads.current).state = .joinBlocked thread := by
  rcases joinCurrent_cases threads thread.val now with
    refused | ⟨other, same, _, _, _, _, _, ⟨_, _, reaped⟩ | ⟨_, _, done⟩⟩
  · rw [refused] at blocked
    cases blocked
  · rw [reaped] at blocked
    cases blocked
  · obtain rfl : thread = other := Fin.ext same
    rw [done]
    have moves := ((selectRunnable_selected
      ((threads.withSlot thread { threads.slots thread with joiner := some threads.current }).setState
        threads.current (.joinBlocked thread)) now).settles threads.current).moves
    refine (moves.inactive_iff rfl).mpr ?_
    simp [setState]

theorem reuses_empty (reuses : threads.Reuses thread transition) : (threads.slots thread).state = .empty := by
  have allocated : ∀ owner, (threads.allocateForProcess owner).1 = some thread →
      (threads.slots thread).state = .empty := by
    intro owner found
    rcases allocateForProcess_spec threads owner with full | ⟨id, _, empty, done⟩
    · rw [full] at found
      cases found
    · rw [done] at found
      cases found
      exact empty
  cases transition with
  | allocate => exact allocated _ reuses
  | allocateForProcess owner => exact allocated owner reuses
  | _ => exact reuses.elim

/-- The code goes to the thread that waits for it, or stays in the slot. -/
theorem Consistent.exitCurrent_outcome (consistent : Consistent threads) {now : Nat}
    {outcome : ExitOutcome n} (exited : (threads.exitCurrent exitCode now).1 = some outcome)
    (attached : (threads.slots threads.current).detached = false) :
    let after := (threads.exitCurrent exitCode now).2
    (∃ joiner, (threads.slots joiner).state = .joinBlocked threads.current ∧
        outcome.wokenJoiner = some (joiner, exitCode) ∧ (after.slots threads.current).state = .empty) ∨
      (threads.slots threads.current).joiner = none ∧ outcome.wokenJoiner = none ∧
        (after.slots threads.current).state = .zombie exitCode := by
  rcases consistent.exitCurrent_cases exitCode now with refused | ⟨_, _, left, done, left_eq⟩
  · rw [refused] at exited
    cases exited
  rw [done] at exited ⊢
  cases exited
  have moves := ((selectRunnablePrefer_selected left now (threads.slots threads.current).joiner).settles
    threads.current).moves
  rcases left_eq with ⟨joiner, joined, apart, blocked, rfl⟩ | ⟨unjoined, rfl⟩
  · refine .inl ⟨joiner, blocked, by rw [joined]; rfl, (moves.inactive_iff rfl).mpr ?_⟩
    rw [setState, slots_withSlot_of_ne _ _ apart.symm, slots_withSlot_self]
    rfl
  · refine .inr ⟨unjoined, by rw [unjoined]; rfl, (moves.inactive_iff rfl).mpr ?_⟩
    simp [attached, setState]

/-- The code of a thread that exits undetached is delivered once: to the thread
that waits for it, or else to the first join that completes before another thread
in its slot exits. Until a join, a detach or the end of the process the slot is
not used again. A join that blocked and was not given up is the one that waits. -/
theorem exit_code_delivered_once (earlier later : List (Transition n)) (exitCode : BitVec 64) (now : Nat)
    (allowed : Runs.EachStep step Allowed new (earlier ++ .exitCurrent exitCode now :: later)) (last : Transition n) :
    let threads := run step new earlier
    let thread := threads.current
    let after := (threads.exitCurrent exitCode now).2
    let final := run step after later
    ∀ outcome, (threads.exitCurrent exitCode now).1 = some outcome → (threads.slots thread).detached = false →
      (∀ joiner code, outcome.wokenJoiner = some (joiner, code) →
        code = exitCode ∧ (threads.slots joiner).state = .joinBlocked thread) ∧
      (∀ code, Runs.EachStep step (fun threads transition => ¬ threads.Ends thread transition) after later →
        final.Reaps thread code last → outcome.wokenJoiner = none ∧ code = exitCode ∧
          Runs.EachStep step (fun threads transition => ∀ code, ¬ threads.Reaps thread code transition) after later) ∧
      (outcome.wokenJoiner = none → Runs.EachStep step (fun threads transition =>
          (∀ code, ¬ threads.Reaps thread code transition) ∧ ¬ threads.Detaches thread transition ∧
            ¬ threads.Removes thread transition) after later → ¬ final.Reuses thread last) ∧
      ∀ start between joinedAt, earlier = start ++ .joinCurrent thread.val joinedAt :: between →
        let joining := run step new start
        (joining.joinCurrent thread.val joinedAt).1 = .blocked → Runs.EachStep step (fun threads transition =>
          ¬ threads.Ends thread transition ∧ ¬ threads.AbortsJoin joining.current transition ∧
            ¬ threads.Removes joining.current transition) (joining.joinCurrent thread.val joinedAt).2 between →
        outcome.wokenJoiner = some (joining.current, exitCode) := by
  intro threads thread after final outcome exited attached
  have steps := (eachStep_append step earlier _).mp allowed
  have consistent : Consistent threads := run_consistent consistent_new earlier steps.1
  have delivered := consistent.exitCurrent_outcome exited attached
  have consistent' : Consistent after := consistent.exitCurrent exitCode now
  refine ⟨?_, ?_, ?_, ?_⟩
  · intro joiner code named
    rcases delivered with ⟨other, blocked, woken, _⟩ | ⟨_, nobody, _⟩
    · rw [woken] at named
      cases named
      exact ⟨rfl, blocked⟩
    · rw [nobody] at named
      cases named
  · intro code continues reaps
    obtain ⟨ended, unclaimed⟩ := zombie_since consistent' steps.2.2 continues reaps.zombie.1
    rcases delivered with ⟨_, _, _, empty⟩ | ⟨_, nobody, zombie⟩
    · cases empty.symm.trans ended
    · cases zombie.symm.trans ended
      exact ⟨nobody, rfl, unclaimed⟩
  · intro nobody unclaimed reuses
    rcases delivered with ⟨_, _, woken, _⟩ | ⟨_, _, zombie⟩
    · rw [nobody] at woken
      cases woken
    · have kept := run_keeps (P := fun threads => (threads.slots thread).state = .zombie exitCode)
        (fun _ _ consistent ended => zombie_kept consistent ended) consistent' zombie steps.2.2 unclaimed
      cases kept.symm.trans (reuses_empty reuses)
  · rintro start between joinedAt split joining blocked undisturbed
    -- the caller is blocked on the thread right after its call, and stays so up to the exit
    have waits : (threads.slots joining.current).state = .joinBlocked thread := by
      have steps' := steps.1
      rw [split, eachStep_append] at steps'
      have claimed : Consistent (joining.joinCurrent thread.val joinedAt).2 :=
        (run_consistent consistent_new start steps'.1).joinCurrent thread.val joinedAt
      have kept := run_keeps (P := fun threads => (threads.slots joining.current).state = .joinBlocked thread)
        (fun _ _ consistent waits => joinBlocked_kept consistent waits) claimed (joinCurrent_blocked blocked)
        steps'.2.2 undisturbed
      have reached : threads = run step (joining.joinCurrent thread.val joinedAt).2 between := by
        simp only [threads, split, run_append]
        rfl
      rw [reached]
      exact kept
    have joined := (consistent.joins joining.current thread).mpr waits
    rcases delivered with ⟨other, blocked', woken, _⟩ | ⟨unjoined, _⟩
    · cases joined.symm.trans ((consistent.joins other thread).mpr blocked')
      exact woken
    · cases joined.symm.trans unjoined

/-- Thread 1 exits before anybody waits for it; its slot is kept until a join has taken the code. -/
theorem exit_code_delivered_once_joined :
    let threads : BootstrapUserThreads 1 := run step new [.allocate, .yieldCurrent 0]
    let after := (threads.exitCurrent 7 0).2
    threads.current = 1 ∧ ¬ after.Reuses 1 .allocate ∧ (after.joinCurrent 1 0).1 = .completed 7 := by
  have facts := exit_code_delivered_once (n := 1) [.allocate, .yieldCurrent 0] [] 7 0
    ⟨trivial, trivial, trivial, trivial⟩ .allocate ⟨some 0, none⟩ rfl rfl
  exact ⟨rfl, facts.2.2.1 rfl trivial, by decide⟩

end Nagi.Kernel.BootstrapUserThreads
