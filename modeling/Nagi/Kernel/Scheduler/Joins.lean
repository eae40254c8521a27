import Nagi.Kernel.Scheduler
import Nagi.Lib.Runs

/-! Who runs and who joins whom, over every sequence of thread transitions. -/

namespace Nagi.Kernel

open Lib Function
open BootstrapUserThreads (setState)

def UserThreadState.active {n : Nat} : UserThreadState n → Bool
  | .runnable | .running | .sleeping _ | .channelBlocked => true
  | .empty | .joinBlocked _ | .zombie _ => false

namespace BootstrapUserThreads
variable {n : Nat}

structure Consistent (threads : BootstrapUserThreads n) : Prop where
  running : ∀ thread, (threads.slots thread).state = .running → thread = threads.current
  present : (threads.slots 0).state ≠ .empty
  unended : ∀ exitCode, (threads.slots 0).state ≠ .zombie exitCode
  bootstrap : (threads.slots 0).owner = initProcessId
  joins : ∀ thread target, (threads.slots target).joiner = some thread ↔
    (threads.slots thread).state = .joinBlocked target
  owners : ∀ thread target, (threads.slots target).joiner = some thread →
    (threads.slots thread).owner = (threads.slots target).owner
  detached : ∀ thread, (threads.slots thread).detached = true → (threads.slots thread).joiner = none
  vacant : ∀ thread, (threads.slots thread).state = .empty → (threads.slots thread).joiner = none

theorem consistent_new : Consistent (new : BootstrapUserThreads n) := by
  have slots : ∀ thread : Fin (n + 1), (new : BootstrapUserThreads n).slots thread =
      if thread = 0 then { ThreadSlot.empty with state := .running } else .empty := by
    intro thread
    simp only [new, update_apply]
  constructor <;> grind [ThreadSlot.empty, new]

variable {threads before after : BootstrapUserThreads n}

structure SlotMoves (before after : ThreadSlot n) : Prop where
  joiner : after.joiner = before.joiner
  detached : after.detached = before.detached
  owner : after.owner = before.owner
  state : after.state = before.state ∨ before.state.active = true ∧ after.state.active = true

theorem SlotMoves.refl (slot : ThreadSlot n) : SlotMoves slot slot := ⟨rfl, rfl, rfl, .inl rfl⟩

theorem SlotSettles.moves {before after : ThreadSlot n} (settles : SlotSettles before after) :
    SlotMoves before after := by
  cases settles with
  | same => exact .refl _
  | ready idle awake =>
    refine ⟨rfl, rfl, rfl, .inr ⟨?_, ?_⟩⟩
    · rcases idle with was | ⟨_, was⟩ <;> rw [was] <;> rfl
    · rcases awake with rfl | rfl <;> rfl

theorem SlotMoves.trans {first second third : ThreadSlot n} (left : SlotMoves first second)
    (right : SlotMoves second third) : SlotMoves first third := by
  refine ⟨right.joiner.trans left.joiner, right.detached.trans left.detached, right.owner.trans left.owner, ?_⟩
  grind [left.state, right.state]

theorem SlotMoves.inactive_iff {before after : ThreadSlot n} (moves : SlotMoves before after)
    {state : UserThreadState n} (inactive : state.active = false) : after.state = state ↔ before.state = state := by
  rcases moves.state with same | ⟨was, is⟩
  · rw [same]
  · grind

/-- What leaves every join as it is, and at most the current thread running. -/
structure Moves (before after : BootstrapUserThreads n) : Prop where
  slots : ∀ thread, SlotMoves (before.slots thread) (after.slots thread)
  running : (∀ thread, (before.slots thread).state = .running → thread = before.current) →
    ∀ thread, (after.slots thread).state = .running → thread = after.current

theorem Moves.refl (threads : BootstrapUserThreads n) : Moves threads threads := ⟨fun _ => .refl _, fun runs => runs⟩

theorem Consistent.moves (consistent : Consistent before) (moves : Moves before after) : Consistent after where
  running := moves.running consistent.running
  present := fun empty => consistent.present (((moves.slots 0).inactive_iff rfl).mp empty)
  unended exitCode := fun ended => consistent.unended exitCode (((moves.slots 0).inactive_iff rfl).mp ended)
  bootstrap := (moves.slots 0).owner.trans consistent.bootstrap
  joins thread target := by
    rw [(moves.slots target).joiner, (moves.slots thread).inactive_iff rfl]
    exact consistent.joins thread target
  owners thread target joined := by
    rw [(moves.slots target).joiner] at joined
    rw [(moves.slots thread).owner, (moves.slots target).owner]
    exact consistent.owners thread target joined
  detached thread detached := by
    rw [(moves.slots thread).detached] at detached
    exact (moves.slots thread).joiner.trans (consistent.detached thread detached)
  vacant thread empty :=
    (moves.slots thread).joiner.trans (consistent.vacant thread (((moves.slots thread).inactive_iff rfl).mp empty))

theorem setState_moves {thread : Fin (n + 1)} {state : UserThreadState n}
    (was : (threads.slots thread).state.active = true) (is : state.active = true)
    (current : state = .running → thread = threads.current) : Moves threads (threads.setState thread state) := by
  constructor
  · intro other
    by_cases here : other = thread
    · subst here
      rw [setState, slots_withSlot_self]
      exact ⟨rfl, rfl, rfl, .inr ⟨was, is⟩⟩
    · rw [setState, slots_withSlot_of_ne _ _ here]
      exact .refl _
  · intro running other runs
    by_cases here : other = thread
    · subst here
      rw [setState, slots_withSlot_self] at runs
      exact current runs
    · rw [setState, slots_withSlot_of_ne _ _ here] at runs
      exact running other runs

theorem selectRunnablePrefer_running (threads : BootstrapUserThreads n) (now : Nat)
    (preferred : Option (Fin (n + 1))) {thread : Fin (n + 1)}
    (runs : ((threads.selectRunnablePrefer now preferred).2.slots thread).state = .running) :
    (threads.slots thread).state = .running ∨ (threads.selectRunnablePrefer now preferred).1 = some thread := by
  have awake : ((threads.wakeExpired now).slots thread).state = .running →
      (threads.slots thread).state = .running := by
    simp only [wakeExpired]
    grind
  have dispatched : ∀ chosen, (((threads.wakeExpired now).dispatch chosen).slots thread).state = .running →
      (threads.slots thread).state = .running ∨ chosen = thread := by
    intro chosen runs
    by_cases here : thread = chosen
    · exact .inr here.symm
    · refine .inl (awake ?_)
      rw [← slots_withSlot_of_ne _ _ here]
      exact runs
  unfold selectRunnablePrefer at runs ⊢
  dsimp only at runs ⊢
  split at runs
  · next chosen _ => exact (dispatched chosen runs).imp_right (congrArg some)
  split at runs
  · next chosen _ => exact (dispatched chosen runs).imp_right (congrArg some)
  · exact .inl (awake runs)

theorem selectRunnablePrefer_moves (idle : (threads.slots threads.current).state ≠ .running) (now : Nat)
    (preferred : Option (Fin (n + 1))) : Moves threads (threads.selectRunnablePrefer now preferred).2 := by
  have selected := selectRunnablePrefer_selected threads now preferred
  refine ⟨fun thread => (selected.settles thread).moves, fun running thread runs => ?_⟩
  rcases selectRunnablePrefer_running threads now preferred runs with earlier | chosen
  · rw [running thread earlier] at earlier
    exact absurd earlier idle
  · exact (selected.found thread chosen).1.symm

theorem selectRunnable_moves (idle : (threads.slots threads.current).state ≠ .running) (now : Nat) :
    Moves threads (threads.selectRunnable now).2 :=
  selectRunnablePrefer_moves idle now none

theorem rests_moves (running : (threads.slots threads.current).state = .running) (state : UserThreadState n)
    (active : state.active = true) (idle : state ≠ .running) (now : Nat) :
    Moves threads ((threads.setState threads.current state).selectRunnable now).2 := by
  have was : (threads.slots threads.current).state.active = true := by rw [running]; rfl
  have first := setState_moves was active fun _ => rfl
  have second : Moves (threads.setState threads.current state) _ :=
    selectRunnable_moves (by simpa [setState, withSlot] using idle) now
  exact ⟨fun thread => (first.slots thread).trans (second.slots thread),
    fun runs => second.running (first.running runs)⟩

section
variable (threads)

theorem yieldCurrent_moves (now : Nat) : Moves threads (threads.yieldCurrent now).2 := by
  unfold yieldCurrent
  split
  · exact .refl _
  · next running => exact rests_moves (not_not.mp running) .runnable rfl nofun now

theorem sleepCurrent_moves (wakeAt : BitVec 64) (now : Nat) : Moves threads (threads.sleepCurrent wakeAt now).2 := by
  unfold sleepCurrent
  split
  · exact .refl _
  · next running => exact rests_moves (not_not.mp running) (.sleeping wakeAt) rfl nofun now

theorem blockCurrentOnChannel_moves : Moves threads threads.blockCurrentOnChannel.2 := by
  unfold blockCurrentOnChannel
  split
  · exact .refl _
  · next running => exact setState_moves (by rw [not_not.mp running]; rfl) rfl nofun

theorem wakeChannelWaiter_moves (thread : Nat) : Moves threads (threads.wakeChannelWaiter thread).2 := by
  unfold wakeChannelWaiter
  split
  · dsimp only
    split
    · exact .refl _
    · next blocked => exact setState_moves (by rw [not_not.mp blocked]; rfl) rfl nofun
  · exact .refl _

theorem abortCurrentChannelWait_moves : Moves threads threads.abortCurrentChannelWait.2 := by
  unfold abortCurrentChannelWait
  split
  · exact .refl _
  · next blocked => exact setState_moves (by rw [not_not.mp blocked]; rfl) rfl fun _ => rfl

end

namespace Consistent
variable (consistent : Consistent threads)
include consistent

variable {thread : Fin (n + 1)}

theorem vacate (reusable : thread ≠ 0) (unjoined : (threads.slots thread).joiner = none)
    (unblocked : ∀ target, (threads.slots thread).state ≠ .joinBlocked target) :
    Consistent (threads.withSlot thread .empty) := by
  cases consistent
  -- nobody names the thread as a joiner, since it is not blocked in a join
  constructor <;> simp only [withSlot, update_apply] <;> grind [ThreadSlot.empty]

theorem allocateForProcess (owner : Nat) : Consistent (threads.allocateForProcess owner).2 := by
  rcases allocateForProcess_spec threads owner with full | ⟨id, reusable, empty, allocated⟩
  · rw [full]
    exact consistent
  · rw [allocated]
    cases consistent
    constructor <;> simp only [withSlot, update_apply] <;> grind [ThreadSlot.empty]

theorem discardUnstarted (reusable : thread ≠ 0) : Consistent (threads.discardUnstarted thread).2 := by
  unfold BootstrapUserThreads.discardUnstarted
  split
  · exact consistent
  next unstarted =>
  have ready : (threads.slots thread).state = .runnable := not_not.mp fun other => unstarted (.inl other)
  have unjoined : (threads.slots thread).joiner = none := not_not.mp fun other => unstarted (.inr other)
  apply consistent.vacate reusable unjoined
  rw [ready]
  exact nofun

theorem claim {target : Fin (n + 1)}
    (running : (threads.slots threads.current).state = .running) (apart : target ≠ threads.current)
    (present : (threads.slots target).state ≠ .empty) (unclaimed : (threads.slots target).joiner = none)
    (attached : (threads.slots target).detached = false)
    (owner : (threads.slots target).owner = (threads.slots threads.current).owner) :
    Consistent ((threads.withSlot target { threads.slots target with joiner := some threads.current }).setState
      threads.current (.joinBlocked target)) := by
  cases consistent
  constructor <;> simp only [setState, withSlot, update_apply] <;> grind

theorem joinCurrent (target now : Nat) : Consistent (threads.joinCurrent target now).2 := by
  rcases joinCurrent_cases threads target now with
    refused | ⟨thread, _, reusable, apart, owner, attached, unclaimed, ⟨_, ended, reaped⟩ | ⟨present, running, blocked⟩⟩
  · rw [refused]
    exact consistent
  · rw [reaped]
    apply consistent.vacate reusable unclaimed
    rw [ended]
    exact nofun
  · rw [blocked]
    apply (consistent.claim running apart present unclaimed attached owner).moves (selectRunnable_moves _ now)
    simp [setState, withSlot]

theorem abortBlockedJoin : Consistent threads.abortBlockedJoin.2 := by
  unfold BootstrapUserThreads.abortBlockedJoin
  split
  · next target blocked =>
    -- the target names the current thread, so the claim is given up
    have claimed := (consistent.joins threads.current target).mpr blocked
    rw [if_pos claimed]
    cases consistent
    constructor <;> simp only [setState, withSlot, update_apply] <;> grind
  · exact consistent

theorem detach (target : Nat) : Consistent (threads.detach target).2 := by
  rcases detach_cases threads target with refused | ⟨thread, _, reusable, unjoined, ⟨_, ended, reaped⟩ | marked⟩
  · rw [refused]
    exact consistent
  · rw [reaped]
    apply consistent.vacate reusable unjoined
    rw [ended]
    exact nofun
  · rw [marked]
    cases consistent
    constructor <;> simp only [withSlot, update_apply] <;> grind

theorem release {joiner : Fin (n + 1)} (reusable : threads.current ≠ 0)
    (running : (threads.slots threads.current).state = .running)
    (blocked : (threads.slots joiner).state = .joinBlocked threads.current) :
    Consistent ((threads.withSlot threads.current .empty).setState joiner .runnable) := by
  cases consistent
  constructor <;> simp only [setState, withSlot, update_apply] <;> grind [ThreadSlot.empty]

theorem exitCurrent_cases (exitCode : BitVec 64) (now : Nat) : let slot := threads.slots threads.current
    threads.exitCurrent exitCode now = (none, threads) ∨
      threads.current ≠ 0 ∧ slot.state = .running ∧ ∃ left,
        threads.exitCurrent exitCode now =
          (some ⟨(left.selectRunnablePrefer now slot.joiner).1, slot.joiner.map fun joiner => (joiner, exitCode)⟩,
            (left.selectRunnablePrefer now slot.joiner).2) ∧
        ((∃ joiner, slot.joiner = some joiner ∧ joiner ≠ threads.current ∧
            (threads.slots joiner).state = .joinBlocked threads.current ∧
            left = (threads.withSlot threads.current .empty).setState joiner .runnable) ∨
          slot.joiner = none ∧ left = if slot.detached then threads.withSlot threads.current .empty
            else threads.setState threads.current (.zombie exitCode)) := by
  simp only [BootstrapUserThreads.exitCurrent]
  split
  · exact .inl rfl
  next exits =>
  simp only [not_or, not_not] at exits
  refine .inr ⟨exits.1, exits.2, _, rfl, ?_⟩
  cases joined : (threads.slots threads.current).joiner with
  | some joiner =>
    have blocked := (consistent.joins joiner threads.current).mp joined
    have apart : joiner ≠ threads.current := by
      rintro rfl
      rw [exits.2] at blocked
      cases blocked
    refine .inl ⟨joiner, rfl, apart, blocked, ?_⟩
    dsimp only
    rw [slots_withSlot_of_ne _ _ apart, if_pos blocked]
  | none => exact .inr ⟨rfl, rfl⟩

theorem exitCurrent (exitCode : BitVec 64) (now : Nat) :
    Consistent (threads.exitCurrent exitCode now).2 := by
  rcases consistent.exitCurrent_cases exitCode now with
    refused | ⟨reusable, running, left, exited, ⟨joiner, _, apart, blocked, rfl⟩ | ⟨joined, rfl⟩⟩
  · rw [refused]
    exact consistent
  · rw [exited]
    apply (consistent.release reusable running blocked).moves (selectRunnablePrefer_moves _ now _)
    simp [setState, withSlot, update_of_ne apart.symm, ThreadSlot.empty]
  · rw [exited]
    split
    · apply Consistent.moves _ (selectRunnablePrefer_moves _ now _)
      · exact consistent.vacate reusable joined (by simp [running])
      · simp [withSlot, ThreadSlot.empty]
    · apply Consistent.moves _ (selectRunnablePrefer_moves _ now _)
      · cases consistent
        constructor <;> simp only [setState, withSlot, update_apply] <;> grind
      · simp [setState, withSlot]

/-- A process is removed as a whole: whoever joins one of its threads goes with it. -/
theorem withoutProcess {owner : Nat} (isolated : owner ≠ initProcessId) :
    Consistent (threads.withoutProcess owner) := by
  cases consistent
  constructor <;> simp only [BootstrapUserThreads.withoutProcess] <;> grind [ThreadSlot.empty]

theorem exitProcess (owner now : Nat) : Consistent (threads.exitProcess owner now).2 := by
  unfold BootstrapUserThreads.exitProcess
  split
  · exact consistent
  next isolated =>
  split
  · exact consistent
  dsimp only
  have remaining := consistent.withoutProcess isolated
  split
  · next empty =>
    apply remaining.moves (selectRunnable_moves _ now)
    rw [empty]
    exact nofun
  · exact remaining

theorem target_present {target : Fin (n + 1)}
    (blocked : (threads.slots thread).state = .joinBlocked target) : (threads.slots target).state ≠ .empty := by
  intro empty
  have joined := (consistent.joins thread target).mpr blocked
  rw [consistent.vacant target empty] at joined
  cases joined

theorem exitCurrent_woken {exitCode : BitVec 64} {now : Nat}
    {outcome : ExitOutcome n} (exited : threads.exitCurrent exitCode now = (some outcome, after))
    {joiner : Fin (n + 1)} {code : BitVec 64} (woken : outcome.wokenJoiner = some (joiner, code)) :
    code = exitCode ∧ (threads.slots joiner).state = .joinBlocked threads.current ∧
      ((after.slots joiner).state = .runnable ∨ (after.slots joiner).state = .running) := by
  rcases consistent.exitCurrent_cases exitCode now with
    refused | ⟨_, _, left, done, ⟨other, joined, _, blocked, rfl⟩ | ⟨unjoined, _⟩⟩
  · rw [refused] at exited
    cases exited
  · rw [done, joined] at exited
    cases exited
    cases woken
    refine ⟨rfl, blocked, (selectRunnablePrefer_selected _ now _).settles.ready (.inl ?_)⟩
    simp [setState]
  · rw [done, unjoined] at exited
    cases exited
    cases woken

end Consistent

inductive Transition (n : Nat) where
  | allocate
  | allocateForProcess (owner : Nat)
  | discardUnstarted (thread : Fin (n + 1))
  | yieldCurrent (now : Nat)
  | sleepCurrent (wakeAt : BitVec 64) (now : Nat)
  | blockCurrentOnChannel
  | wakeChannelWaiter (thread : Nat)
  | abortCurrentChannelWait
  | joinCurrent (target now : Nat)
  | abortBlockedJoin
  | detach (target : Nat)
  | exitCurrent (exitCode : BitVec 64) (now : Nat)
  | exitProcess (owner now : Nat)
  | selectRunnable (now : Nat)

def step (threads : BootstrapUserThreads n) : Transition n → Unit × BootstrapUserThreads n
  | .allocate => ((), threads.allocate.2)
  | .allocateForProcess owner => ((), (threads.allocateForProcess owner).2)
  | .discardUnstarted thread => ((), (threads.discardUnstarted thread).2)
  | .yieldCurrent now => ((), (threads.yieldCurrent now).2)
  | .sleepCurrent wakeAt now => ((), (threads.sleepCurrent wakeAt now).2)
  | .blockCurrentOnChannel => ((), threads.blockCurrentOnChannel.2)
  | .wakeChannelWaiter thread => ((), (threads.wakeChannelWaiter thread).2)
  | .abortCurrentChannelWait => ((), threads.abortCurrentChannelWait.2)
  | .joinCurrent target now => ((), (threads.joinCurrent target now).2)
  | .abortBlockedJoin => ((), threads.abortBlockedJoin.2)
  | .detach target => ((), (threads.detach target).2)
  | .exitCurrent exitCode now => ((), (threads.exitCurrent exitCode now).2)
  | .exitProcess owner now => ((), (threads.exitProcess owner now).2)
  | .selectRunnable now => ((), (threads.selectRunnable now).2)

/-- The scheduler is asked for another thread only when the current one does not
run. A thread is discarded right after it was allocated; all that matters is that
it is not the first one. -/
def Allowed (threads : BootstrapUserThreads n) : Transition n → Prop
  | .discardUnstarted thread => thread.val ≠ 0
  | .selectRunnable _ => (threads.slots threads.current).state ≠ .running
  | _ => True

theorem step_consistent (consistent : Consistent threads) (transition : Transition n)
    (allowed : threads.Allowed transition) : Consistent (threads.step transition).2 := by
  cases transition with
  | allocate => exact consistent.allocateForProcess _
  | allocateForProcess owner => exact consistent.allocateForProcess owner
  | discardUnstarted thread => exact consistent.discardUnstarted fun same => allowed (congrArg Fin.val same)
  | yieldCurrent now => exact consistent.moves (yieldCurrent_moves threads now)
  | sleepCurrent wakeAt now => exact consistent.moves (sleepCurrent_moves threads wakeAt now)
  | blockCurrentOnChannel => exact consistent.moves (blockCurrentOnChannel_moves threads)
  | wakeChannelWaiter thread => exact consistent.moves (wakeChannelWaiter_moves threads thread)
  | abortCurrentChannelWait => exact consistent.moves (abortCurrentChannelWait_moves threads)
  | joinCurrent target now => exact consistent.joinCurrent target now
  | abortBlockedJoin => exact consistent.abortBlockedJoin
  | detach target => exact consistent.detach target
  | exitCurrent exitCode now => exact consistent.exitCurrent exitCode now
  | exitProcess owner now => exact consistent.exitProcess owner now
  | selectRunnable now => exact consistent.moves (selectRunnable_moves allowed now)

theorem run_consistent (consistent : Consistent threads) (transitions : List (Transition n))
    (allowed : Runs.EachStep step Allowed threads transitions) : Consistent (Runs.run step threads transitions) := by
  induction transitions generalizing threads with
  | nil => exact consistent
  | cons transition rest ih => exact ih (step_consistent consistent transition allowed.1) allowed.2

/-- In every reachable table at most the current thread runs, the first thread is
there, and both records of every join agree. So no thread is left waiting when a
process is removed, and an exit wakes the thread that waited for it. -/
theorem joins_consistent (transitions : List (Transition n))
    (allowed : Runs.EachStep step Allowed new transitions) :
    let threads := Runs.run step new transitions
    (∀ thread, (threads.slots thread).state = .running → thread = threads.current) ∧
      ((threads.slots 0).state ≠ .empty ∧ ∀ exitCode, (threads.slots 0).state ≠ .zombie exitCode) ∧
      (∀ thread target, (threads.slots target).joiner = some thread ↔
        (threads.slots thread).state = .joinBlocked target) ∧
      (∀ thread target, (threads.slots target).joiner = some thread →
        (threads.slots thread).owner = (threads.slots target).owner) ∧
      (∀ thread, (threads.slots thread).detached = true → (threads.slots thread).joiner = none) ∧
      (∀ owner now thread target,
        ((threads.exitProcess owner now).2.slots thread).state = .joinBlocked target →
          ((threads.exitProcess owner now).2.slots target).state ≠ .empty) ∧
      ∀ exitCode now outcome after joiner code, threads.exitCurrent exitCode now = (some outcome, after) →
        outcome.wokenJoiner = some (joiner, code) →
          code = exitCode ∧ (threads.slots joiner).state = .joinBlocked threads.current ∧
            ((after.slots joiner).state = .runnable ∨ (after.slots joiner).state = .running) := by
  intro threads
  have consistent : Consistent threads := run_consistent consistent_new transitions allowed
  refine ⟨consistent.running, ⟨consistent.present, consistent.unended⟩, consistent.joins, consistent.owners,
    consistent.detached, ?_, ?_⟩
  · intro owner now thread target blocked
    exact (consistent.exitProcess owner now).target_present blocked
  · intro exitCode now outcome after joiner code exited woken
    exact consistent.exitCurrent_woken exited woken

/-- Thread 1 is created and joined; when it exits, thread 0 runs again. -/
theorem joins_consistent_pair :
    let threads : BootstrapUserThreads 1 := Runs.run step new [.allocate, .joinCurrent 1 0]
    (threads.slots 1).joiner = some 0 ∧ (threads.slots 0).state = .joinBlocked 1 ∧
      ((threads.exitCurrent 7 0).2.slots 0).state = .running := by
  have facts := joins_consistent (n := 1) [.allocate, .joinCurrent 1 0] ⟨trivial, trivial, trivial⟩
  have joined : ((Runs.run step (new : BootstrapUserThreads 1) [.allocate, .joinCurrent 1 0]).slots 1).joiner =
      some 0 := by decide
  exact ⟨joined, (facts.2.2.1 0 1).mp joined, by decide⟩

end BootstrapUserThreads
end Nagi.Kernel
