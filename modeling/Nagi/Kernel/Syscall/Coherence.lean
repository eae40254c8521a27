import Nagi.Kernel.Syscall.State
import Nagi.Kernel.UserIpc.Blocking
import Nagi.Lib.Waits

/-! Blocked threads and the records that wake them.

The thread table, the wait registry and the exit table agree with one map from
threads to what they wait for. -/

namespace Nagi.Kernel

open Lib BootstrapUserThreads

/-- What a blocked thread waits for: a message on an endpoint or the end of a process. -/
inductive WakeSource where
  | endpoint (object : ObjectId)
  | process (processId : Nat)
  deriving DecidableEq

namespace SyscallState
variable {n : Nat} (state : SyscallState n)

def Blocked (thread : Fin (n + 1)) : Prop :=
  (state.threads.slots thread).state = .channelBlocked

def Recorded : WakeSource → Nat → Prop
  | .endpoint object, waiter => state.ipc.WaitsOn object waiter
  | .process processId, waiter => state.exits.Awaits processId waiter

def Running : Prop :=
  (state.threads.slots state.threads.current).state = .running

/-- The tables agree on who waits for what, and an isolated process has one thread. -/
structure Coherent (waits : WaitMap (Fin (n + 1)) WakeSource) : Prop where
  ipc : state.ipc.Invariant
  exits : state.exits.Valid
  blocked : ∀ thread, state.Blocked thread ↔ (waits thread).isSome = true
  recorded : ∀ source waiter, state.Recorded source waiter ↔
    ∃ thread : Fin (n + 1), thread.val = waiter ∧ waits thread = some source
  owners : ∀ thread, (state.threads.slots thread).state ≠ .empty →
    (state.threads.slots thread).owner = initProcessId ∨
      (state.threads.slots thread).owner < state.exits.nextProcessId
  alone : ∀ first second, (state.threads.slots first).state ≠ .empty → (state.threads.slots second).state ≠ .empty →
    (state.threads.slots first).owner = (state.threads.slots second).owner →
    (state.threads.slots first).owner ≠ initProcessId → first = second

variable {before after state : SyscallState n} {waits waits' : WaitMap (Fin (n + 1)) WakeSource}

theorem Coherent.change (coherent : Coherent before waits) (ipc : after.ipc.Invariant) (exits : after.exits.Valid)
    (grown : before.exits.nextProcessId ≤ after.exits.nextProcessId)
    (present : ∀ thread, (after.threads.slots thread).state ≠ .empty →
      (before.threads.slots thread).state ≠ .empty ∧
        (after.threads.slots thread).owner = (before.threads.slots thread).owner)
    (blocked : ∀ thread, after.Blocked thread ↔ (waits' thread).isSome = true)
    (recorded : ∀ source waiter, after.Recorded source waiter ↔
      ∃ thread : Fin (n + 1), thread.val = waiter ∧ waits' thread = some source) : Coherent after waits' where
  ipc := ipc
  exits := exits
  blocked := blocked
  recorded := recorded
  owners thread there := by
    obtain ⟨earlier, owner⟩ := present thread there
    rw [owner]
    exact (coherent.owners thread earlier).imp_right fun older => Nat.lt_of_lt_of_le older grown
  alone first second there there' same isolated := by
    obtain ⟨earlier, owner⟩ := present first there
    obtain ⟨earlier', owner'⟩ := present second there'
    rw [owner, owner'] at same
    rw [owner] at isolated
    exact coherent.alone first second earlier earlier' same isolated

structure Undisturbed (before after : SyscallState n) : Prop where
  ipc : after.ipc.Invariant
  registered : ∀ object waiter, after.ipc.WaitsOn object waiter ↔ before.ipc.WaitsOn object waiter
  exits : after.exits.Valid
  awaited : ∀ processId waiter, after.exits.Awaits processId waiter ↔ before.exits.Awaits processId waiter
  grown : before.exits.nextProcessId ≤ after.exits.nextProcessId

theorem Undisturbed.recorded (undisturbed : Undisturbed before after) (source : WakeSource) (waiter : Nat) :
    after.Recorded source waiter ↔ before.Recorded source waiter := by
  cases source with
  | endpoint object => exact undisturbed.registered object waiter
  | process processId => exact undisturbed.awaited processId waiter

section
variable (coherent : Coherent before waits)
include coherent

theorem Coherent.quiet (ipc : after.ipc.Invariant)
    (same : after.ipc.waiters = before.ipc.waiters) (exits : after.exits = before.exits) :
    Undisturbed before after := by
  refine ⟨ipc, UserIpcState.waitsOn_congr same, ?_, fun processId waiter => ?_, ?_⟩
  · rw [exits]
    exact coherent.exits
  · rw [exits]
  · rw [exits]

theorem Coherent.undisturbed (ipc : after.ipc = before.ipc)
    (exits : after.exits = before.exits) : Undisturbed before after :=
  coherent.quiet (ipc ▸ coherent.ipc) (congrArg UserIpcState.waiters ipc) exits

theorem Coherent.keeps (undisturbed : Undisturbed before after)
    (keeps : Keeps before.threads after.threads) : Coherent after waits := by
  apply coherent.change undisturbed.ipc undisturbed.exits undisturbed.grown
  · exact fun thread => (keeps thread).present
  · exact fun thread => (keeps thread).blocked.trans (coherent.blocked thread)
  · exact fun source waiter => (undisturbed.recorded source waiter).trans (coherent.recorded source waiter)

end

variable {thread : Fin (n + 1)}

theorem Coherent.idle (coherent : Coherent state waits) (unblocked : ¬state.Blocked thread) :
    waits thread = none := by
  rw [coherent.blocked, Bool.not_eq_true, Option.isSome_eq_false_iff, Option.isNone_iff_eq_none] at unblocked
  exact unblocked

theorem Coherent.unrecorded (coherent : Coherent state waits)
    (unblocked : ¬state.Blocked thread) (source : WakeSource) : ¬state.Recorded source thread.val := by
  rw [coherent.recorded]
  rintro ⟨other, same, there⟩
  obtain rfl := Fin.ext same
  rw [coherent.idle unblocked] at there
  cases there

theorem Running.unblocked (running : Running state) : ¬state.Blocked state.threads.current := by
  intro blocked
  rw [Blocked, running] at blocked
  cases blocked

/-- The state after a call that signals the given source, if any, as seen by the
threads that waited before it. -/
structure Serves (after : SyscallState n) (waits : WaitMap (Fin (n + 1)) WakeSource)
    (signal : Option WakeSource) : Prop where
  coherent : ∃ waits', Coherent after waits'
  running : after.halted = false → Running after
  woken : ∀ thread source, waits thread = some source → signal = some source →
    (after.threads.slots thread).state = .runnable ∨ (after.threads.slots thread).state = .running
  kept : ∀ thread source, waits thread = some source → signal ≠ some source → after.Blocked thread

theorem Coherent.serves (coherent : Coherent after waits) (running : after.halted = false → Running after) :
    Serves after waits none where
  coherent := ⟨waits, coherent⟩
  running := running
  woken := nofun
  kept thread source there _ := by
    rw [coherent.blocked, there]
    rfl

/-- The loop that waits for a thread is never cut off: after a wait for the next
deadline some thread is ready. -/
theorem waitLoop_ends (environment : Environment) (threads : BootstrapUserThreads n) (now : Nat) :
    (waitLoop environment 2 threads now).1 ≠ none := by
  unfold waitLoop
  split
  · simp
  next next selected =>
  split
  · next ticks waits =>
    obtain ⟨sleeper, _, asleep⟩ := List.mem_filterMap.mp (List.min?_mem waits)
    split at asleep
    · next wakeAt state =>
      cases asleep
      unfold waitLoop
      split
      · simp
      next missed =>
      -- the sleeper with the next deadline is awake by now
      have idle := (selectRunnable_none (congrArg Prod.fst missed) sleeper).2
      exfalso
      apply idle
      have passed : wakeAt.toNat ≤ waitForTimerTicks environment now (max (wakeAt.toNat - now) 1) := by
        unfold waitForTimerTicks saturatingAdd
        split
        · omega
        · omega
      simp only [wakeExpired, state, if_pos passed]
    · cases asleep
  · simp

theorem waitLoop_selected (environment : Environment) (fuel : Nat) (threads : BootstrapUserThreads n) (now : Nat) :
    let result := waitLoop environment fuel threads now
    Selected threads (result.1.join, result.2.1) := by
  fun_induction waitLoop environment fuel threads now with
  | case1 => exact ⟨.refl _, nofun, fun _ => rfl⟩
  | case2 fuel threads now thread next found => exact (found ▸ selectRunnable_selected threads now :)
  | case3 fuel threads now next missed ticks waits later =>
    have selected := missed ▸ selectRunnable_selected threads now
    refine ⟨selected.settles.trans later.settles, later.found, fun absent => ?_⟩
    exact (later.missed absent).trans (selected.missed rfl)
  | case4 fuel threads now next missed => exact (missed ▸ selectRunnable_selected threads now :)

structure Rescheduled (before : SyscallState n) (result : Option (Fin (n + 1)) × SyscallState n) : Prop where
  selected : Selected before.threads (result.1, result.2.threads)
  ipc : result.2.ipc = before.ipc
  exits : result.2.exits = before.exits

theorem join_of_unselected {outcome : Option (Option (Fin (n + 1)))}
    (unselected : ∀ thread, outcome = some (some thread) → False) : outcome.join = none := by
  cases outcome with
  | none => rfl
  | some inner =>
    cases inner with
    | none => rfl
    | some thread => exact absurd rfl (unselected thread)

theorem waitUntilRunnable_rescheduled (environment : Environment) (state : SyscallState n) :
    Rescheduled state (waitUntilRunnable environment false state) := by
  have selected := waitLoop_selected environment 2 state.threads state.ticks
  unfold waitUntilRunnable
  split
  · next thread threads ticks found =>
    rw [found] at selected
    exact ⟨selected, rfl, rfl⟩
  next outcome threads ticks unselected found =>
  rw [found] at selected
  dsimp only at selected
  rw [join_of_unselected unselected] at selected
  exact ⟨selected, rfl, rfl⟩

theorem selectOrWait_rescheduled (environment : Environment) (state : SyscallState n) :
    Rescheduled state (selectOrWait environment state) := by
  have selected := selectRunnable_selected state.threads state.ticks
  fun_cases selectOrWait environment state with
  | case1 thread threads found => exact ⟨found ▸ selected, rfl, rfl⟩
  | case2 threads missed =>
    rw [missed] at selected
    obtain ⟨later, ipc, exits⟩ := waitUntilRunnable_rescheduled environment { state with threads }
    refine ⟨⟨selected.settles.trans later.settles, later.found, fun absent => ?_⟩, ipc, exits⟩
    exact (later.missed absent).trans (selected.missed rfl)

/-- A join that would never end is aborted, so that some thread runs. -/
theorem waitUntilRunnable_join (environment : Environment) (state : SyscallState n) {target : Fin (n + 1)}
    (joins : (state.threads.slots state.threads.current).state = .joinBlocked target) :
    let result := waitUntilRunnable environment true state
    Keeps state.threads result.2.threads ∧ Running result.2 ∧ result.2.ipc = state.ipc ∧
      result.2.exits = state.exits := by
  have selected := waitLoop_selected environment 2 state.threads state.ticks
  unfold waitUntilRunnable
  split
  · next thread threads ticks found =>
    rw [found] at selected
    obtain ⟨here, runs⟩ := selected.found thread rfl
    refine ⟨selected.settles.keeps, ?_, rfl, rfl⟩
    rw [← here] at runs
    exact runs
  · next outcome threads ticks unselected found =>
    rw [found] at selected
    have same : threads.current = state.threads.current := selected.missed (join_of_unselected unselected)
    -- a thread that waits for another one is left alone by the scheduler
    have still : (threads.slots threads.current).state = .joinBlocked target := by
      have untouched := selected.settles.untouched state.threads.current
        (by rw [joins]; nofun) (by rw [joins]; nofun)
      rw [same]
      exact (congrArg ThreadSlot.state untouched).trans joins
    obtain ⟨next, aborted, keeps, runs⟩ := abortBlockedJoin_spec still
    rw [if_pos rfl, aborted]
    exact ⟨selected.settles.keeps.trans keeps, runs, rfl, rfl⟩

theorem Coherent.schedules (coherent : Coherent before waits) (keeps : Keeps before.threads after.threads)
    (ipc : after.ipc = before.ipc) (exits : after.exits = before.exits)
    (running : after.halted = false → Running after) : Serves after waits none :=
  (coherent.keeps (coherent.undisturbed ipc exits) keeps).serves running

theorem Running.of_found (found : after.threads.current = thread ∧
    (after.threads.slots thread).state = .running) : Running after := by
  rw [Running, found.1]
  exact found.2

section
variable {threads : BootstrapUserThreads n} (coherent : Coherent before waits)
include coherent

theorem Coherent.switches {thread : Fin (n + 1)} (switched : Switched before.threads (some thread, threads)) :
    Serves { before with threads } waits none :=
  coherent.schedules switched.keeps rfl rfl fun _ => .of_found (switched.found thread rfl)

theorem Coherent.resumes {environment : Environment} {found : Option (Fin (n + 1))}
    (switched : Switched before.threads (none, threads))
    (result : waitUntilRunnable environment false { before with threads } = (found, after)) :
    Serves (found.elim after.haltForever fun _ => after) waits none := by
  obtain ⟨selected, ipc, exits⟩ := result ▸ waitUntilRunnable_rescheduled environment { before with threads }
  have keeps := switched.keeps.trans selected.settles.keeps
  cases found with
  | none => exact coherent.schedules keeps ipc exits nofun
  | some thread => exact coherent.schedules keeps ipc exits fun _ => .of_found (selected.found thread rfl)

end

section
variable (environment : Environment) (coherent : Coherent state waits) (running : Running state)
include coherent running

theorem Coherent.threadYield : Serves state.threadYield.2 waits none := by
  obtain ⟨switched, found⟩ := yieldCurrent_switched running state.ticks
  fun_cases SyscallState.threadYield state with
  | case1 threads missed => exact absurd (congrArg Prod.fst missed) found
  | case2 thread threads selected => exact coherent.switches (selected ▸ switched)

theorem Coherent.threadSleep (durationNs : BitVec 64) :
    Serves (state.threadSleep environment durationNs).2 waits none := by
  have switched wakeAt := sleepCurrent_switched running wakeAt state.ticks
  fun_cases SyscallState.threadSleep environment durationNs state with
  | case1 => exact coherent.threadYield running
  | case2 _ ticks wakeAt thread threads selected => exact coherent.switches (selected ▸ switched wakeAt)
  | case3 _ ticks wakeAt threads missed thread after found =>
    exact coherent.resumes (missed ▸ switched wakeAt) found
  | case4 _ ticks wakeAt threads missed after stuck => exact coherent.resumes (missed ▸ switched wakeAt) stuck

theorem Coherent.threadJoin (thread resultAddress : BitVec 64) :
    Serves (state.threadJoin environment thread resultAddress).2 waits none := by
  have refused : Serves state waits none := coherent.serves fun _ => running
  unfold SyscallState.threadJoin
  split
  · exact refused
  split
  · exact refused
  rcases joinCurrent_spec running thread.toNat state.ticks with invalid | ⟨_, next, reaped, keeps, runs⟩ |
    ⟨next, blocked, keeps, moved, stayed⟩
  · rw [invalid]
    exact refused
  · rw [reaped]
    exact coherent.schedules keeps rfl rfl fun _ => runs
  · rw [blocked]
    dsimp only
    split
    · next other => exact coherent.schedules keeps rfl rfl fun _ => moved other
    next same =>
    obtain ⟨target, joins⟩ := stayed (not_not.mp same)
    obtain ⟨later, runs, ipc, exits⟩ := waitUntilRunnable_join environment { state with threads := next } joins
    have served := coherent.schedules (keeps.trans later) ipc exits fun _ => runs
    split <;> next answer =>
      rw [answer] at served
      exact served

theorem Coherent.threadExit (code : BitVec 64) : Serves (state.threadExit environment code).2 waits none := by
  unfold SyscallState.threadExit
  rcases exitCurrent_spec running code state.ticks with refused | ⟨outcome, next, left, switched⟩
  · rw [refused]
    exact coherent.serves fun _ => running
  rw [left]
  dsimp only
  split
  · next found => exact coherent.switches (found ▸ switched)
  next missed =>
  split
  · next found => exact coherent.resumes (missed ▸ switched) found
  · next stuck => exact coherent.resumes (missed ▸ switched) stuck

theorem Coherent.threadDetach (thread : BitVec 64) : Serves (state.threadDetach thread).2 waits none := by
  obtain ⟨keeps, same, runs⟩ := detach_spec running thread.toNat
  fun_cases SyscallState.threadDetach thread state with
  | case1 => exact coherent.serves fun _ => running
  | case2 _ _ answer | case3 _ _ answer =>
    rw [answer] at keeps same runs
    exact coherent.schedules keeps rfl rfl fun _ => .of_found ⟨same, runs⟩

end

theorem quiet_step {ipc next : UserIpcState} (invariant : ipc.Invariant) (operation : UserIpcState.Operation)
    (still : operation.movesWaiters = false) (made : (ipc.step operation).2 = next) :
    next.Invariant ∧ next.waiters = ipc.waiters := by
  subst made
  exact ⟨UserIpcState.step_invariant ipc operation invariant, UserIpcState.step_waiters invariant still⟩

theorem Coherent.passes (coherent : Coherent before waits) (running : Running before)
    (invariant : after.ipc.Invariant) (same : after.ipc.waiters = before.ipc.waiters)
    (exits : after.exits = before.exits) (threads : after.threads = before.threads) : Serves after waits none := by
  refine (coherent.keeps (coherent.quiet invariant same exits) (threads ▸ .refl _)).serves fun _ => ?_
  rw [Running, threads]
  exact running

theorem Coherent.passes_step (coherent : Coherent before waits) (running : Running before)
    (operation : UserIpcState.Operation) (still : operation.movesWaiters = false)
    (made : (before.ipc.step operation).2 = after.ipc) (exits : after.exits = before.exits)
    (threads : after.threads = before.threads) : Serves after waits none := by
  obtain ⟨invariant, same⟩ := quiet_step coherent.ipc operation still made
  exact coherent.passes running invariant same exits threads

section
variable (environment : Environment) (coherent : Coherent state waits) (running : Running state)
include coherent running

theorem Coherent.channelCreate (address length : BitVec 64) :
    Serves (state.channelCreate environment address length).2 waits none := by
  fun_cases SyscallState.channelCreate environment address length state with
  | case1 => exact coherent.serves fun _ => running
  | case2 _ _ _ answer | case3 _ _ _ answer =>
    exact coherent.passes_step running (.createPair _) rfl (congrArg Prod.snd answer) rfl rfl

theorem Coherent.channelTryReceive (endpoint address length : BitVec 64) :
    Serves (state.channelTryReceive environment endpoint address length).2 waits none := by
  fun_cases SyscallState.channelTryReceive environment endpoint address length state with
  | case1 => exact coherent.serves fun _ => running
  | case2 _ _ _ answer | case3 _ _ answer | case4 _ _ _ answer =>
    exact coherent.passes_step running (.tryReceive _ endpoint) rfl (congrArg Prod.snd answer) rfl rfl

theorem Coherent.handleClose (handle : BitVec 64) : Serves (state.handleClose handle).2 waits none := by
  fun_cases SyscallState.handleClose handle state with
  | case1 _ _ answer | case2 _ _ answer =>
    exact coherent.passes_step running (.close _ handle) rfl (congrArg Prod.snd answer) rfl rfl

end

end SyscallState
end Nagi.Kernel
