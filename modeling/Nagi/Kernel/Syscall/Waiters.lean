import Nagi.Kernel.Syscall.Coherence

/-! Who is woken by whom, over whole runs of the kernel. -/

namespace Nagi.Kernel

open Lib BootstrapUserThreads UserIpcState WaitMap Function List Option

namespace SyscallState
variable {n : Nat} {before after state : SyscallState n} {waits : WaitMap (Fin (n + 1)) WakeSource}

/-- The threads that wait for the source become ready, and its records go. -/
structure Signalled (before after : SyscallState n) (waits : WaitMap (Fin (n + 1)) WakeSource)
    (source : WakeSource) : Prop where
  ipc : after.ipc.Invariant
  exits : after.exits.Valid
  grown : before.exits.nextProcessId ≤ after.exits.nextProcessId
  recorded : ∀ other waiter, after.Recorded other waiter ↔ before.Recorded other waiter ∧ other ≠ source
  slots : ∀ thread, after.threads.slots thread =
    if waits thread = some source then { before.threads.slots thread with state := .runnable }
    else before.threads.slots thread

variable {source : WakeSource}

theorem Coherent.signalled (coherent : Coherent before waits) (signalled : Signalled before after waits source) :
    Coherent after (waits.wake source) := by
  apply coherent.change signalled.ipc signalled.exits signalled.grown
  · intro thread there
    rw [signalled.slots] at there ⊢
    split at there
    · next here =>
      have blocked : before.Blocked thread := (coherent.blocked thread).mpr (by rw [here]; rfl)
      rw [if_pos here, blocked]
      exact ⟨nofun, rfl⟩
    · next elsewhere =>
      rw [if_neg elsewhere]
      exact ⟨there, rfl⟩
  · intro thread
    rw [Blocked, signalled.slots, isSome_wake, ← coherent.blocked]
    split
    · next here => simp [here]
    · next elsewhere => exact ⟨fun blocked => ⟨blocked, elsewhere⟩, And.left⟩
  · intro other waiter
    rw [signalled.recorded, coherent.recorded]
    simp only [wake_eq_some, ← exists_and_right, and_assoc]

theorem Coherent.serves_wake (coherent : Coherent after (waits.wake source))
    (running : after.halted = false → Running after)
    (ready : ∀ thread, waits thread = some source →
      (after.threads.slots thread).state = .runnable ∨ (after.threads.slots thread).state = .running) :
    Serves after waits (some source) where
  coherent := ⟨_, coherent⟩
  running := running
  woken thread other there same := by
    cases same
    exact ready thread there
  kept thread other there different := by
    rw [coherent.blocked, isSome_wake, there]
    exact ⟨rfl, fun same => different same.symm⟩

theorem Coherent.recorded_iff (coherent : Coherent state waits) (source : WakeSource) (thread : Fin (n + 1)) :
    state.Recorded source thread.val ↔ waits thread = some source := by
  rw [coherent.recorded]
  constructor
  · rintro ⟨other, same, there⟩
    obtain rfl := Fin.ext same
    exact there
  · intro there
    exact ⟨thread, rfl, there⟩

theorem Coherent.wakes_recorded (coherent : Coherent state waits) (source : WakeSource) {woken : List Nat}
    (exactly : ∀ waiter, waiter ∈ woken ↔ state.Recorded source waiter) (thread : Fin (n + 1)) :
    (woken.foldl (fun threads waiter => (threads.wakeChannelWaiter waiter).2) state.threads).slots thread =
      if waits thread = some source then { state.threads.slots thread with state := .runnable }
      else state.threads.slots thread := by
  rw [(wakeChannelWaiters_slots woken state.threads).2 thread]
  have member := (exactly thread.val).trans (coherent.recorded_iff source thread)
  by_cases here : waits thread = some source
  · have blocked : (state.threads.slots thread).state = .channelBlocked :=
      (coherent.blocked thread).mpr (by rw [here]; rfl)
    rw [if_pos ⟨member.mpr here, blocked⟩, if_pos here]
  · rw [if_neg fun both => here (member.mp both.1), if_neg here]

/-- The endpoint whose readers a send wakes: the peer of the endpoint it is made on. -/
def sendTarget (state : SyscallState n) (endpoint : BitVec 64) : Option WakeSource :=
  match state.ipc.locateEndpoint state.threads.currentOwner ⟨endpoint⟩ with
  | .error _ => none
  | .ok (c, object) => (state.ipc.channels c).pair.map fun pair => .endpoint (pair.peerOf object)

def sendSignal (environment : Environment) (endpoint address length : BitVec 64) (state : SyscallState n) :
    Option WakeSource :=
  if (state.channelSend environment endpoint address length).1 = 0 then state.sendTarget endpoint else none

theorem Coherent.channelSend (environment : Environment) (coherent : Coherent state waits) (running : Running state)
    (endpoint address length : BitVec 64) :
    Serves (state.channelSend environment endpoint address length).2 waits
      (state.sendSignal environment endpoint address length) := by
  have failed : callFailed ≠ 0 := by decide
  by_cases malformed : length.toNat ≠ channelSendRequestSize ∨
      environment.readable address channelSendRequestSize = false
  · have answer : state.channelSend environment endpoint address length = (callFailed, state) := if_pos malformed
    rw [sendSignal, answer, if_neg failed]
    exact coherent.serves fun _ => running
  have wakes := send_wakes coherent.ipc state.threads.currentOwner endpoint (environment.sendRequest address)
  have invariant := step_invariant state.ipc
    (.send state.threads.currentOwner endpoint (environment.sendRequest address)) coherent.ipc
  rw [sendSignal, SyscallState.channelSend, if_neg malformed]
  dsimp only [UserIpcState.step, Prod.map_snd, id_eq] at invariant
  generalize state.ipc.send state.threads.currentOwner endpoint (environment.sendRequest address) = result
    at wakes invariant ⊢
  obtain ⟨answer, ipc⟩ := result
  rcases wakes with ⟨error, rfl, same⟩ | ⟨woken, c, object, pair, rfl, located, channel, wakes⟩
  · rw [if_neg failed]
    exact coherent.passes running invariant same rfl rfl
  · rw [if_pos rfl, sendTarget, located]
    dsimp only
    rw [channel, map_some]
    have slots := coherent.wakes_recorded (.endpoint (pair.peerOf object)) wakes.exactly
    have current := (wakeChannelWaiters_slots woken state.threads).1
    generalize woken.foldl (fun threads waiter => (threads.wakeChannelWaiter waiter).2) state.threads = threads
      at slots current ⊢
    have signalled : Signalled state { state with ipc, threads } waits (.endpoint (pair.peerOf object)) := by
      refine ⟨invariant, coherent.exits, Nat.le_refl _, fun other waiter => ?_, slots⟩
      cases other with
      | endpoint other =>
        refine (wakes.waitsOn other waiter).trans (and_congr_right fun _ => not_congr ?_)
        simp
      | process processId => exact ⟨fun awaits => ⟨awaits, nofun⟩, And.left⟩
    apply (coherent.signalled signalled).serves_wake
    · refine fun _ => .of_found ⟨current, ?_⟩
      rw [slots, if_neg]
      · exact running
      · rw [coherent.idle running.unblocked]
        nofun
    · intro thread there
      rw [slots, if_pos there]
      exact .inl rfl

theorem Coherent.blocks (coherent : Coherent before waits) (running : Running before) (ipc : after.ipc.Invariant)
    (exits : after.exits.Valid) (grown : before.exits.nextProcessId ≤ after.exits.nextProcessId)
    (recorded : ∀ other waiter, after.Recorded other waiter ↔
      before.Recorded other waiter ∨ other = source ∧ waiter = before.threads.current.val)
    (threads : after.threads = before.threads.setState before.threads.current .channelBlocked) :
    Coherent after (waits.block before.threads.current source) := by
  apply coherent.change ipc exits grown
  · intro thread there
    rw [threads] at there ⊢
    by_cases here : thread = before.threads.current
    · subst here
      rw [setState, slots_withSlot_self]
      exact ⟨by rw [running]; simp, rfl⟩
    · rw [setState, slots_withSlot_of_ne _ _ here] at there ⊢
      exact ⟨there, rfl⟩
  · intro thread
    rw [isSome_block, ← coherent.blocked, Blocked, threads]
    by_cases here : thread = before.threads.current
    · subst here
      simp [setState]
    · rw [setState, slots_withSlot_of_ne _ _ here]
      simp [Blocked, here]
  · intro other waiter
    rw [recorded, coherent.recorded]
    simp only [block_eq_some]
    constructor
    · rintro (⟨thread, same, there⟩ | ⟨rfl, rfl⟩)
      · refine ⟨thread, same, .inr ⟨?_, there⟩⟩
        rintro rfl
        rw [coherent.idle running.unblocked] at there
        cases there
      · exact ⟨before.threads.current, rfl, .inl ⟨rfl, rfl⟩⟩
    · rintro ⟨thread, same, ⟨rfl, rfl⟩ | ⟨_, there⟩⟩
      · exact .inr ⟨rfl, same.symm⟩
      · exact .inl ⟨thread, same, there⟩

variable {thread : Fin (n + 1)}

theorem Coherent.gives_up (coherent : Coherent before waits) (blocked : before.Blocked thread)
    (ipc : after.ipc.Invariant) (exits : after.exits.Valid)
    (grown : before.exits.nextProcessId ≤ after.exits.nextProcessId)
    (recorded : ∀ source waiter, after.Recorded source waiter ↔ before.Recorded source waiter ∧ waiter ≠ thread.val)
    (threads : after.threads = before.threads.setState thread .running) : Coherent after (waits.release thread) := by
  apply coherent.change ipc exits grown
  · intro other there
    rw [threads] at there ⊢
    by_cases here : other = thread
    · subst here
      rw [setState, slots_withSlot_self]
      exact ⟨by rw [blocked]; simp, rfl⟩
    · rw [setState, slots_withSlot_of_ne _ _ here] at there ⊢
      exact ⟨there, rfl⟩
  · intro other
    rw [isSome_release, ← coherent.blocked, Blocked, threads]
    by_cases here : other = thread
    · subst here
      simp [setState]
    · rw [setState, slots_withSlot_of_ne _ _ here]
      simp [Blocked, here]
  · intro source waiter
    rw [recorded, coherent.recorded]
    simp only [release_eq_some]
    constructor
    · rintro ⟨⟨other, same, there⟩, different⟩
      refine ⟨other, same, ?_, there⟩
      rintro rfl
      exact different same.symm
    · rintro ⟨other, same, different, there⟩
      refine ⟨⟨other, same, there⟩, ?_⟩
      rintro rfl
      exact different (Fin.ext same)

section
variable {environment : Environment} {caller : Fin (n + 1)} {middle : SyscallState n}

theorem Coherent.rescheduled (coherent : Coherent before waits) {found : Option (Fin (n + 1))}
    (rescheduled : Rescheduled before (found, after)) : Coherent after waits :=
  coherent.keeps (coherent.undisturbed rescheduled.ipc rescheduled.exits) rescheduled.selected.settles.keeps

theorem Coherent.blocked_found (coherent : Coherent middle (waits.block caller source)) {thread : Fin (n + 1)}
    (found : selectOrWait environment middle = (some thread, after)) : Serves after waits none := by
  have rescheduled := found ▸ selectOrWait_rescheduled environment middle
  have later := coherent.rescheduled rescheduled
  refine ⟨⟨_, later⟩, fun _ => .of_found (rescheduled.selected.found thread rfl), nofun, fun other source there _ => ?_⟩
  rw [later.blocked, isSome_block, there]
  exact .inr rfl

theorem Coherent.blocked_stuck (coherent : Coherent middle (waits.block caller source))
    (current : middle.threads.current = caller) (missed : selectOrWait environment middle = (none, after)) :
    Coherent after (waits.block caller source) ∧ after.threads.current = caller ∧ after.Blocked caller ∧
      after.threads.abortCurrentChannelWait = (true, after.threads.setState caller .running) := by
  have rescheduled := missed ▸ selectOrWait_rescheduled environment middle
  have later := coherent.rescheduled rescheduled
  have same : after.threads.current = caller := (rescheduled.selected.missed rfl).trans current
  have blocked : after.Blocked caller := (later.blocked caller).mpr (isSome_block.mpr (.inl rfl))
  refine ⟨later, same, blocked, ?_⟩
  rw [abortCurrentChannelWait, same]
  exact if_neg (not_not.mpr blocked)

theorem Coherent.recorded_block (coherent : Coherent state (waits.block caller source)) (other : WakeSource)
    (recorded : state.Recorded other caller.val) : other = source := by
  rw [coherent.recorded_iff, block_eq_some] at recorded
  rcases recorded with ⟨_, same⟩ | ⟨apart, _⟩
  · exact same
  · exact absurd rfl apart

end

section
variable (environment : Environment) (coherent : Coherent state waits) (running : Running state)
include coherent running

theorem Coherent.channelWaitReadable (endpoint : BitVec 64) :
    Serves (state.channelWaitReadable environment endpoint).2 waits none := by
  have idle := coherent.idle running.unblocked
  have allowed := blockCurrentOnChannel_eq running
  have waited := waitReadable_waitsOn coherent.ipc state.threads.currentOwner endpoint
    state.threads.current.val blockCurrentOnChannel state.threads
    fun object => coherent.unrecorded running.unblocked (.endpoint object)
  unfold SyscallState.channelWaitReadable
  dsimp only at waited ⊢
  generalize state.ipc.waitReadable state.threads.currentOwner endpoint state.threads.current.val
    blockCurrentOnChannel state.threads = result at waited ⊢
  obtain ⟨answer, ipc, threads⟩ := result
  obtain ⟨invariant, ⟨ended, left, same⟩ | ⟨object, rfl, blocked, registered⟩⟩ := waited
  · have unchanged : threads = state.threads := by
      rcases left with same | refused
      · exact same
      · rw [allowed] at refused
        cases refused
    subst unchanged
    have served : Serves { state with ipc } waits none := by
      have undisturbed : Undisturbed state { state with ipc } :=
        ⟨invariant, same, coherent.exits, fun _ _ => Iff.rfl, Nat.le_refl _⟩
      exact (coherent.keeps undisturbed (.refl _)).serves fun _ => running
    cases answer with
    | error error => exact served
    | ok outcome =>
      cases outcome with
      | readable => exact served
      | blocked => exact absurd rfl ended
  · rw [allowed] at blocked
    obtain rfl : state.threads.setState state.threads.current .channelBlocked = threads := (Prod.mk.inj blocked).2.symm
    dsimp only at invariant registered ⊢
    have blocks : Coherent { state with
          ipc, threads := state.threads.setState state.threads.current .channelBlocked }
        (waits.block state.threads.current (.endpoint object)) := by
      refine coherent.blocks running invariant coherent.exits (Nat.le_refl _) (fun other waiter => ?_) rfl
      cases other with
      | endpoint other => simpa [Recorded] using registered other waiter
      | process processId => simp [Recorded]
    split
    · next found => exact blocks.blocked_found found
    next stuck missed =>
    obtain ⟨later, same, still, aborted⟩ := blocks.blocked_stuck rfl missed
    rw [aborted]
    suffices final : Coherent _ waits from final.serves fun _ => .of_found ⟨same, by simp [setState]⟩
    rw [← release_block (.endpoint object) idle]
    refine later.gives_up still (step_invariant stuck.ipc (.cancelWaiter _) later.ipc) later.exits
      (Nat.le_refl _) (fun source waiter => ?_) rfl
    cases source with
    | endpoint object => exact cancelWaiter_waitsOn _ _ _ _
    | process processId =>
      -- the thread waits for a message and for no process
      refine ⟨fun awaits => ⟨awaits, ?_⟩, And.left⟩
      rintro rfl
      cases later.recorded_block (.process processId) awaits

theorem Coherent.processWait (processId address length : BitVec 64) :
    Serves (state.processWait environment processId address length).2 waits none := by
  have idle := coherent.idle running.unblocked
  have refused : Serves state waits none := coherent.serves fun _ => running
  unfold SyscallState.processWait
  split
  · exact refused
  split
  · exact refused
  dsimp only
  generalize processId.toNat = target
  have effect := state.exits.wait_effect target state.threads.current.val
  have valid := effect.valid coherent.exits
  have awaited := effect.awaits coherent.exits
  have grown := effect.grown
  generalize state.exits.wait target state.threads.current.val = result at effect valid awaited grown ⊢
  obtain ⟨outcome, exits⟩ := result
  cases effect with
  | @ready _ r record held =>
    have undisturbed : Undisturbed state { state with
        exits := { state.exits with records := update state.exits.records r none } } :=
      ⟨coherent.ipc, fun _ _ => Iff.rfl, valid, fun other waiter => by simpa using awaited other waiter, grown⟩
    exact (coherent.keeps undisturbed (.refl _)).serves fun _ => running
  | refused => exact refused
  | blocked absent unregistered held =>
    rw [blockCurrentOnChannel_eq running]
    dsimp only
    generalize ({ state.exits with live := _ } : ExitTable) = exits at valid awaited grown ⊢
    have blocks : Coherent { state with
          exits, threads := state.threads.setState state.threads.current .channelBlocked }
        (waits.block state.threads.current (.process target)) := by
      refine coherent.blocks running coherent.ipc valid grown (fun other waiter => ?_) rfl
      cases other with
      | endpoint object => simp [Recorded]
      | process other => simpa [Recorded, or_comm, eq_comm] using awaited other waiter
    split
    · next found => exact blocks.blocked_found found
    next stuck missed =>
    obtain ⟨later, here, still, aborted⟩ := blocks.blocked_stuck rfl missed
    have effect := stuck.exits.cancelWait_effect state.threads.current.val
    rw [aborted]
    suffices final : Coherent _ waits from final.serves fun _ => .of_found ⟨here, by simp [setState]⟩
    rw [← release_block (.process target) idle]
    refine later.gives_up still later.ipc (effect.valid later.exits) effect.grown (fun source waiter => ?_) rfl
    cases source with
    | endpoint object =>
      -- the thread waits for a process and for no message
      refine ⟨fun waits => ⟨waits, ?_⟩, And.left⟩
      rintro rfl
      cases later.recorded_block (.endpoint object) waits
    | process other => simpa [Recorded, eq_comm] using effect.awaits later.exits other waiter

end

theorem Coherent.allocates (coherent : Coherent before waits) (undisturbed : Undisturbed before after)
    (vacant : (before.threads.slots thread).state = .empty) {owner : Nat}
    (allocated : after.threads = before.threads.withSlot thread { ThreadSlot.empty with state := .runnable, owner })
    (owned : owner = initProcessId ∨ owner = before.exits.nextProcessId ∧ owner < after.exits.nextProcessId) :
    Coherent after waits := by
  -- a slot is the new one or an old one
  have slots : ∀ other, (after.threads.slots other).state ≠ .empty →
      other = thread ∧ (after.threads.slots other).owner = owner ∨
        other ≠ thread ∧ (before.threads.slots other).state ≠ .empty ∧
          (after.threads.slots other).owner = (before.threads.slots other).owner := by
    intro other there
    by_cases here : other = thread
    · subst here
      refine .inl ⟨rfl, ?_⟩
      rw [allocated, slots_withSlot_self]
    · rw [allocated, slots_withSlot_of_ne _ _ here] at there ⊢
      exact .inr ⟨here, there, rfl⟩
  -- no thread there was belongs to a new process
  have fresh : ∀ other, (before.threads.slots other).state ≠ .empty → owner ≠ initProcessId →
      (before.threads.slots other).owner ≠ owner := by
    intro other there isolated same
    rcases coherent.owners other there with bootstrap | older
    · exact isolated (same.symm.trans bootstrap)
    · rcases owned with bootstrap | ⟨next, _⟩
      · exact isolated bootstrap
      · omega
  refine ⟨undisturbed.ipc, undisturbed.exits, fun other => ?_, fun source waiter => ?_, fun other there => ?_,
    fun first second there there' same isolated => ?_⟩
  · rw [Blocked, allocated, ← coherent.blocked]
    by_cases here : other = thread
    · subst here
      rw [slots_withSlot_self, Blocked, vacant]
      simp
    · rw [slots_withSlot_of_ne _ _ here]
      exact Iff.rfl
  · exact (undisturbed.recorded source waiter).trans (coherent.recorded source waiter)
  · rcases slots other there with ⟨_, new⟩ | ⟨_, earlier, old⟩
    · rw [new]
      exact owned.imp_right And.right
    · rw [old]
      exact (coherent.owners other earlier).imp_right fun older => Nat.lt_of_lt_of_le older undisturbed.grown
  · rcases slots first there with ⟨here, new⟩ | ⟨_, earlier, old⟩ <;>
      rcases slots second there' with ⟨here', new'⟩ | ⟨_, earlier', old'⟩
    · exact here.trans here'.symm
    · rw [new] at same isolated
      exact absurd (old'.symm.trans same.symm) (fresh second earlier' isolated)
    · rw [old] at same isolated
      rw [new'] at same
      exact absurd same (fresh first earlier (same ▸ isolated))
    · rw [old] at same isolated
      rw [old'] at same
      exact coherent.alone first second earlier earlier' same isolated

theorem Running.allocated (running : Running before) (vacant : (before.threads.slots thread).state = .empty)
    {slot : ThreadSlot n} (allocated : after.threads = before.threads.withSlot thread slot) : Running after := by
  rw [Running, allocated]
  refine (congrArg ThreadSlot.state (slots_withSlot_of_ne _ _ ?_)).trans running
  intro same
  rw [Running, show before.threads.current = thread from same, vacant] at running
  cases running

/-- What a spawn does. A process id that has been reserved can be committed, so that the last failure is never met. -/
theorem processSpawn_cases (environment : Environment) (state : SyscallState n) (address length : BitVec 64) :
    let result := state.processSpawn environment address length
    let request := environment.spawnRequest address
    result = (callFailed, state) ∨ ∃ processId rights, state.exits.reserve = .ok processId ∧
      Rights.fromBits request.endpointRights = some rights ∧
      ((∃ error ipc, state.ipc.registerSpawnedProcess initProcessId processId request.endpoint rights =
            (.error error, ipc) ∧
          result = (callFailed, { state with ipc })) ∨
        ∃ handle ipc, state.ipc.registerSpawnedProcess initProcessId processId request.endpoint rights =
            (.ok handle, ipc) ∧
          (state.threads.allocateForProcess processId = (none, state.threads) ∧
              result = (callFailed, { state with ipc := (ipc.exitProcess processId).2 }) ∨
            ∃ thread threads childSlots exits, state.threads.allocateForProcess processId = (some thread, threads) ∧
              state.exits.commitSpawn processId = (true, exits) ∧
              result = (BitVec.ofNat 64 processId, { state with threads, ipc, childSlots, exits }))) := by
  intro result request
  unfold result request SyscallState.processSpawn
  split
  · exact .inl rfl
  dsimp only
  split
  · exact .inl rfl
  split
  · exact .inl rfl
  next rights known =>
  split
  · exact .inl rfl
  next processId reserved =>
  split
  · exact .inl rfl
  next childSlots prepared =>
  refine .inr ⟨processId, rights, reserved, known, ?_⟩
  rw [ChildSlots.releaseChild_prepareChild prepared]
  split
  · next error ipc refused => exact .inl ⟨error, ipc, refused, rfl⟩
  next handle ipc moved =>
  refine .inr ⟨handle, ipc, moved, ?_⟩
  rcases allocateForProcess_spec state.threads processId with full | ⟨thread, _, _, allocated⟩
  · rw [full]
    exact .inl ⟨rfl, rfl⟩
  · rw [allocated]
    have committed := (ExitTable.commitSpawn_of_reserve reserved).2
    generalize state.exits.commitSpawn processId = outcome at committed
    obtain ⟨done, exits⟩ := outcome
    obtain rfl : done = true := committed
    exact .inr ⟨thread, _, childSlots, exits, rfl, rfl, rfl⟩

section
variable (environment : Environment) (coherent : Coherent state waits) (running : Running state)
include coherent running

theorem Coherent.threadCreate (bootstrap : state.threads.currentOwner = initProcessId)
    (entry stack size flags : BitVec 64) :
    Serves (state.threadCreate environment entry stack size flags).2 waits none := by
  have refused : Serves state waits none := coherent.serves fun _ => running
  unfold SyscallState.threadCreate
  iterate 6 (split; · exact refused)
  rcases allocateForProcess_spec state.threads state.threads.currentOwner with
    full | ⟨thread, _, vacant, allocated⟩
  · rw [allocate, full]
    exact refused
  · rw [allocate, allocated]
    dsimp only
    generalize made : state.threads.withSlot thread
      { ThreadSlot.empty with state := .runnable, owner := state.threads.currentOwner } = threads
    have created : Coherent { state with threads } waits :=
      coherent.allocates (coherent.undisturbed rfl rfl) vacant made.symm (.inl bootstrap)
    have runs : Running { state with threads } := running.allocated vacant made.symm
    split
    · obtain ⟨keeps, same, still⟩ := detach_spec runs thread.val
      generalize threads.detach thread.val = detached at keeps same still
      obtain ⟨done, detached⟩ := detached
      cases done with
      | true => exact created.schedules keeps rfl rfl fun _ => .of_found ⟨same, still⟩
      | false =>
        have runs' : (detached.slots detached.current).state = .running := by rw [same]; exact still
        obtain ⟨keeps', same', still'⟩ := discardUnstarted_spec runs' thread
        exact created.schedules (keeps.trans keeps') rfl rfl fun _ => .of_found ⟨same', still'⟩
    · exact created.serves fun _ => runs

theorem Coherent.processSpawn (address length : BitVec 64) :
    Serves (state.processSpawn environment address length).2 waits none := by
  rcases processSpawn_cases environment state address length with same | ⟨processId, rights, reserved, -, moved⟩
  · rw [same]
    exact coherent.serves fun _ => running
  obtain ⟨invariant, same⟩ := quiet_step coherent.ipc (.registerSpawnedProcess initProcessId processId
    (environment.spawnRequest address).endpoint rights) rfl rfl
  dsimp only [UserIpcState.step, Prod.map_snd, id_eq] at invariant same
  rcases moved with ⟨_, ipc, answer, result⟩ | ⟨_, ipc, answer, ⟨full, result⟩ | ⟨thread, threads, childSlots, exits,
    allocated, committed, result⟩⟩
  · rw [answer] at invariant same
    rw [result]
    exact coherent.passes running invariant same rfl rfl
  · rw [answer] at invariant same
    obtain ⟨invariant', same'⟩ := quiet_step invariant (.exitProcess processId) rfl rfl
    rw [result]
    exact coherent.passes running invariant' (same'.trans same) rfl rfl
  · rw [answer] at invariant same
    obtain full | ⟨_, _, vacant, allocated'⟩ := allocateForProcess_spec state.threads processId
    · rw [full] at allocated
      cases allocated
    rw [allocated'] at allocated
    cases allocated
    have effect := state.exits.commitSpawn_effect processId
    rw [committed] at effect
    have named := (ExitTable.reserve_ok reserved).2.2.2
    rw [result]
    have created : Coherent { state with
          threads := state.threads.withSlot thread { ThreadSlot.empty with state := .runnable, owner := processId }
          ipc, childSlots, exits } waits := by
      refine coherent.allocates ?_ vacant rfl (.inr ⟨named, ?_⟩)
      · exact ⟨invariant, waitsOn_congr same, effect.valid coherent.exits,
          fun other waiter => by simpa using effect.awaits coherent.exits other waiter, effect.grown⟩
      · cases effect with
        | committed => exact Nat.lt_succ_self _
    exact created.serves fun _ => running.allocated vacant rfl

theorem Coherent.publishes (caller : Nat) (code : BitVec 64) (kind : ExitKind) :
    let recorded := state.exits.recordExit caller code kind
    let ipc := ((state.ipc.cancelWaiter state.threads.current.val).exitProcess caller).2
    let threads := recorded.1.toList.foldl (fun threads waiter => (threads.wakeChannelWaiter waiter).2) state.threads
    Signalled state { state with ipc, exits := recorded.2, threads } waits (.process caller) := by
  have effect := state.exits.recordExit_effect caller code kind
  have cancelled := step_invariant state.ipc (.cancelWaiter state.threads.current.val) coherent.ipc
  obtain ⟨invariant, same⟩ := quiet_step cancelled (.exitProcess caller) rfl rfl
  refine ⟨invariant, effect.valid coherent.exits, effect.grown, fun source other => ?_, ?_⟩
  · cases source with
    | process processId => simpa [Recorded, eq_comm] using effect.awaits coherent.exits processId other
    | endpoint object =>
      refine (waitsOn_congr same object other).trans ((cancelWaiter_waitsOn _ _ _ _).trans ?_)
      -- the current thread runs, so it is registered nowhere
      refine ⟨fun waits => ⟨waits.1, nofun⟩, fun waits => ⟨waits.1, ?_⟩⟩
      rintro rfl
      exact coherent.unrecorded running.unblocked (.endpoint object) waits.1
  · apply coherent.wakes_recorded
    intro other
    rw [mem_toList]
    exact ExitTable.recordExit_waiter coherent.exits code kind

theorem Coherent.terminateIsolatedProcess {caller : Nat} (owner : state.threads.currentOwner = caller)
    (isolated : caller ≠ initProcessId) (code : BitVec 64) (kind : ExitKind) :
    Serves (state.terminateIsolatedProcess environment caller code kind) waits (some (.process caller)) := by
  have signalled := coherent.publishes running caller code kind
  have current := (wakeChannelWaiters_slots (state.exits.recordExit caller code kind).1.toList state.threads).1
  unfold SyscallState.terminateIsolatedProcess
  dsimp only at signalled current ⊢
  have woken : ((state.exits.recordExit caller code kind).1.elim state.threads
      fun waiter => (state.threads.wakeChannelWaiter waiter).2) =
      (state.exits.recordExit caller code kind).1.toList.foldl
        (fun threads waiter => (threads.wakeChannelWaiter waiter).2) state.threads := by
    cases (state.exits.recordExit caller code kind).1 <;> rfl
  rw [woken]
  generalize (state.exits.recordExit caller code kind).1.toList.foldl
    (fun threads waiter => (threads.wakeChannelWaiter waiter).2) state.threads = threads at signalled current ⊢
  generalize ((state.ipc.cancelWaiter state.threads.current.val).exitProcess caller).2 = ipc at signalled ⊢
  generalize (state.exits.recordExit caller code kind).2 = exits at signalled ⊢
  have middle := coherent.signalled signalled
  -- the current thread was not waiting, and it is the only one of its process
  have idle : waits threads.current = none := by
    rw [current]
    exact coherent.idle running.unblocked
  have slot : threads.slots threads.current = state.threads.slots state.threads.current := by
    rw [signalled.slots, idle, if_neg nofun, current]
  have runs : (threads.slots threads.current).state = .running := (congrArg ThreadSlot.state slot).trans running
  have own : (threads.slots threads.current).owner = caller := (congrArg ThreadSlot.owner slot).trans owner
  have only : ∀ thread, (threads.slots thread).state ≠ .empty → (threads.slots thread).owner = caller →
      thread = threads.current := fun thread there same =>
    middle.alone thread threads.current there (by rw [runs]; nofun) (same.trans own.symm) (same ▸ isolated)
  have unblocked : ∀ thread, (threads.slots thread).owner = caller →
      (threads.slots thread).state ≠ .channelBlocked := by
    intro thread same blocked
    rw [only thread (by rw [blocked]; nofun) same, runs] at blocked
    cases blocked
  obtain ⟨switched, foreign⟩ := exitProcess_spec isolated runs unblocked state.ticks
  generalize threads.exitProcess caller state.ticks = left at switched foreign ⊢
  obtain ⟨outcome, next⟩ := left
  have ready : ∀ thread, waits thread = some (.process caller) →
      (next.slots thread).state = .runnable ∨ (next.slots thread).state = .running := by
    intro thread there
    have awake : (threads.slots thread).state = .runnable := by rw [signalled.slots, if_pos there]
    refine foreign thread (fun same => ?_) awake
    rw [only thread (by rw [awake]; nofun) same, idle] at there
    cases there
  generalize removed : ({ state with ipc, exits, threads := next, activeProcess := initProcessId
                                     childSlots := state.childSlots.releaseChild caller } : SyscallState n) = gone
  have coherent' : Coherent gone (waits.wake (.process caller)) := by
    subst removed
    exact middle.keeps (middle.undisturbed rfl rfl) switched.keeps
  obtain rfl : gone.threads = next := by rw [← removed]
  split
  · next thread found => exact coherent'.serves_wake (fun _ => .of_found (switched.found thread found)) ready
  have rescheduled := waitUntilRunnable_rescheduled environment gone
  have ready' := fun thread there => rescheduled.selected.settles.ready (ready thread there)
  split
  · next thread later found =>
    rw [found] at rescheduled ready'
    exact (coherent'.rescheduled rescheduled).serves_wake
      (fun _ => .of_found (rescheduled.selected.found thread rfl)) ready'
  · next later stuck =>
    rw [stuck] at rescheduled ready'
    have halted : Coherent later.haltForever (waits.wake (.process caller)) :=
      coherent'.keeps (coherent'.undisturbed rescheduled.ipc rescheduled.exits) rescheduled.selected.settles.keeps
    exact halted.serves_wake nofun ready'

end

def endSignal (state : SyscallState n) : Option WakeSource :=
  if state.threads.currentOwner = initProcessId then none else some (.process state.threads.currentOwner)

def callSignal (environment : Environment) (state : SyscallState n) : Syscall → Option WakeSource
  | .channelSend endpoint address length => state.sendSignal environment endpoint address length
  | .processExit _ => state.endSignal
  | _ => none

def signal (state : SyscallState n) (entry : Environment × Trap) : Option WakeSource :=
  if state.halted then none
  else
    let state := { state with ticks := state.ticks + entry.1.elapsed }
    match entry.2 with
    | .syscall call => state.callSignal entry.1 call
    | .exception _ => state.endSignal

theorem Serves.congr {source : Option WakeSource} (serves : Serves before waits source)
    (threads : after.threads = before.threads) (ipc : after.ipc = before.ipc) (exits : after.exits = before.exits)
    (halted : after.halted = false → before.halted = false) : Serves after waits source := by
  obtain ⟨⟨waits', coherent⟩, running, woken, kept⟩ := serves
  refine ⟨⟨waits', coherent.keeps (coherent.undisturbed ipc exits) (threads ▸ .refl _)⟩, ?_, ?_, ?_⟩
  · unfold Running
    rw [threads]
    exact fun going => running (halted going)
  · rw [threads]
    exact woken
  · unfold Blocked
    rw [threads]
    exact kept

section
variable {source : Option WakeSource} (serves : Serves state waits source)
include serves

theorem Serves.haltForever : Serves state.haltForever waits source :=
  serves.congr rfl rfl rfl nofun

theorem Serves.syncAddressSpace : Serves state.syncAddressSpace waits source := by
  unfold SyscallState.syncAddressSpace
  dsimp only
  split
  · exact serves
  split
  · exact serves.haltForever
  · exact serves.congr rfl rfl rfl id

end

section
variable (environment : Environment) (coherent : Coherent state waits) (running : Running state)
include coherent running

theorem Coherent.dispatchInit (bootstrap : state.threads.currentOwner = initProcessId) (call : Syscall) :
    Serves (state.dispatchInit environment call).2 waits (state.callSignal environment call) := by
  cases call with
  | threadSleep => exact coherent.threadSleep environment running _
  | threadCreate => exact coherent.threadCreate environment running bootstrap _ _ _ _
  | threadJoin => exact coherent.threadJoin environment running _ _
  | threadExit => exact coherent.threadExit environment running _
  | threadDetach => exact coherent.threadDetach running _
  | channelCreate => exact coherent.channelCreate environment running _ _
  | channelSend => exact coherent.channelSend environment running _ _ _
  | channelTryReceive => exact coherent.channelTryReceive environment running _ _ _
  | channelWaitReadable => exact coherent.channelWaitReadable environment running _
  | handleClose => exact coherent.handleClose running _
  | processSpawn => exact coherent.processSpawn environment running _ _
  | processWait => exact coherent.processWait environment running _ _ _
  | processExit =>
    rw [callSignal, endSignal, if_pos bootstrap]
    exact (coherent.serves fun _ => running).haltForever

theorem Coherent.dispatchIsolated (isolated : state.threads.currentOwner ≠ initProcessId) (call : Syscall) :
    Serves (state.dispatchIsolated environment state.threads.currentOwner call).2 waits
      (state.callSignal environment call) := by
  cases call with
  | threadSleep => exact coherent.threadSleep environment running _
  | channelCreate => exact coherent.channelCreate environment running _ _
  | channelSend => exact coherent.channelSend environment running _ _ _
  | channelTryReceive => exact coherent.channelTryReceive environment running _ _ _
  | channelWaitReadable => exact coherent.channelWaitReadable environment running _
  | handleClose => exact coherent.handleClose running _
  | threadCreate | threadJoin | threadExit | threadDetach | processSpawn | processWait =>
    exact coherent.serves fun _ => running
  | processExit =>
    rw [callSignal, endSignal, if_neg isolated]
    exact coherent.terminateIsolatedProcess environment running rfl isolated _ _

end

theorem step_serves (coherent : Coherent state waits) (running : state.halted = false → Running state)
    (entry : Environment × Trap) : Serves (state.step entry).2 waits (state.signal entry) := by
  obtain ⟨environment, trap⟩ := entry
  unfold step signal
  split
  · exact coherent.serves running
  next going =>
  have running := running (Bool.eq_false_iff.mpr going)
  generalize passed : ({ state with ticks := state.ticks + environment.elapsed } : SyscallState n) = now
  have coherent' : Coherent now waits := by
    subst passed
    exact coherent.keeps (coherent.undisturbed rfl rfl) (.refl _)
  have running' : Running now := by
    subst passed
    exact running
  cases trap with
  | syscall call =>
    apply Serves.syncAddressSpace
    split
    · next bootstrap => exact coherent'.dispatchInit environment running' bootstrap call
    · next isolated => exact coherent'.dispatchIsolated environment running' isolated call
  | exception vector =>
    dsimp only [exceptionEntry]
    rw [endSignal]
    split
    · exact (coherent'.serves fun _ => running').haltForever
    · next isolated =>
      exact (coherent'.terminateIsolatedProcess environment running' rfl isolated _ _).syncAddressSpace

def run (entries : List (Environment × Trap)) : SyscallState n := Runs.run step new entries

theorem new_slots (thread : Fin (n + 1)) :
    ((new : SyscallState n).threads.slots thread).owner = initProcessId ∧
      ((new : SyscallState n).threads.slots thread).state ≠ .channelBlocked := by
  simp only [new, BootstrapUserThreads.new]
  by_cases here : thread = 0
  · rw [here, update_self]
    exact ⟨rfl, nofun⟩
  · rw [update_of_ne here]
    exact ⟨rfl, nofun⟩

theorem coherent_new : Coherent (new : SyscallState n) (fun _ => none) where
  ipc := invariant_new
  exits := ExitTable.valid_new
  blocked thread := ⟨fun blocked => absurd blocked (new_slots thread).2, nofun⟩
  recorded source waiter := by
    refine ⟨fun recorded => ?_, nofun⟩
    cases source with
    | endpoint object => obtain ⟨_, _, held, _⟩ := recorded; cases held
    | process processId => obtain ⟨_, held⟩ := recorded; cases held
  owners thread _ := .inl (new_slots thread).1
  alone first _ _ _ _ isolated := absurd (new_slots first).1 isolated

theorem run_coherent (entries : List (Environment × Trap)) :
    (∃ waits, Coherent (run (n := n) entries) waits) ∧
      ((run (n := n) entries).halted = false → Running (run (n := n) entries)) := by
  refine Runs.run_invariant (P := fun state : SyscallState n =>
    (∃ waits, Coherent state waits) ∧ (state.halted = false → Running state)) ?_ ?_ entries
  · rintro state entry ⟨⟨waits, coherent⟩, running⟩
    have serves := step_serves coherent running entry
    exact ⟨serves.coherent, serves.running⟩
  · exact ⟨⟨_, coherent_new⟩, fun _ => rfl⟩

/-- Everyone on record: the waiters of the registrations, then those of the live processes. -/
def waiters (state : SyscallState n) : List Nat :=
  (finRange maxWaitItems).filterMap (fun i => (state.ipc.waiters.registrations i).map (·.waiterId)) ++
    (finRange maxLiveProcesses).filterMap fun i => (state.exits.live i).bind (·.2)

variable {waiter : Nat}

theorem mem_registered : waiter ∈ (finRange maxWaitItems).filterMap
        (fun i => (state.ipc.waiters.registrations i).map (·.waiterId)) ↔
      ∃ object, state.Recorded (.endpoint object) waiter := by
  simp only [mem_filterMap, mem_finRange, true_and, map_eq_some_iff]
  constructor
  · rintro ⟨i, registration, held, named⟩
    exact ⟨registration.object, i, registration, held, rfl, named⟩
  · rintro ⟨object, i, registration, held, _, named⟩
    exact ⟨i, registration, held, named⟩

theorem mem_awaiting :
    waiter ∈ (finRange maxLiveProcesses).filterMap (fun i => (state.exits.live i).bind (·.2)) ↔
      ∃ processId, state.Recorded (.process processId) waiter := by
  simp only [mem_filterMap, mem_finRange, true_and, bind_eq_some_iff]
  constructor
  · rintro ⟨i, ⟨processId, thread⟩, held, named⟩
    subst named
    exact ⟨processId, i, held⟩
  · rintro ⟨processId, i, held⟩
    exact ⟨i, _, held, rfl⟩

theorem mem_waiters : waiter ∈ state.waiters ↔ ∃ source, state.Recorded source waiter := by
  rw [waiters, mem_append, mem_registered, mem_awaiting]
  constructor
  · rintro (⟨object, recorded⟩ | ⟨processId, recorded⟩)
    · exact ⟨.endpoint object, recorded⟩
    · exact ⟨.process processId, recorded⟩
  · rintro ⟨source, recorded⟩
    cases source with
    | endpoint object => exact .inl ⟨object, recorded⟩
    | process processId => exact .inr ⟨processId, recorded⟩

theorem Coherent.recorded_unique (coherent : Coherent state waits) {first second : WakeSource}
    (left : state.Recorded first waiter) (right : state.Recorded second waiter) : first = second := by
  obtain ⟨thread, same, there⟩ := (coherent.recorded first waiter).mp left
  obtain ⟨other, same', there'⟩ := (coherent.recorded second waiter).mp right
  obtain rfl := Fin.ext (same.trans same'.symm)
  rw [there] at there'
  exact some.inj there'

theorem Coherent.waiters_nodup (coherent : Coherent state waits) : state.waiters.Nodup := by
  refine nodup_append'.mpr ⟨?_, ?_, fun waiter left right => ?_⟩
  · refine (nodup_finRange _).filterMap fun i j waiter left right => ?_
    obtain ⟨first, held, named⟩ := map_eq_some_iff.mp left
    obtain ⟨second, held', named'⟩ := map_eq_some_iff.mp right
    exact coherent.ipc.waits.single i j first second held held' (named.trans named'.symm)
  · refine (nodup_finRange _).filterMap fun i j waiter left right => ?_
    obtain ⟨⟨first, thread⟩, held, named⟩ := bind_eq_some_iff.mp left
    obtain ⟨⟨second, thread'⟩, held', named'⟩ := bind_eq_some_iff.mp right
    subst named named'
    exact coherent.exits.threads i j first second waiter held held'
  · obtain ⟨object, registered⟩ := mem_registered.mp left
    obtain ⟨processId, awaits⟩ := mem_awaiting.mp right
    cases coherent.recorded_unique registered awaits

theorem Coherent.blocked_iff (coherent : Coherent state waits) (thread : Fin (n + 1)) :
    state.Blocked thread ↔ ∃ source, state.Recorded source thread.val := by
  rw [coherent.blocked, isSome_iff_exists]
  exact exists_congr fun source => (coherent.recorded_iff source thread).symm

/-- In every reachable state the blocked threads are those on record, each once
and for one source, and everyone on record is a thread. A step makes the threads
ready that are on record for the source it signals, and leaves the other blocked
threads blocked. -/
theorem blocked_iff_recorded (entries : List (Environment × Trap)) :
    let state : SyscallState n := run entries
    (∀ thread, state.Blocked thread ↔ state.waiters.count thread.val = 1) ∧
      (∀ waiter, state.waiters.count waiter ≤ 1) ∧ (∀ waiter ∈ state.waiters, waiter < n + 1) ∧
      (∀ thread, state.Blocked thread ↔ ∃ source, state.Recorded source thread.val) ∧
      ∀ entry thread, state.Blocked thread →
        let slot := (state.step entry).2.threads.slots thread
        ((∃ source, state.signal entry = some source ∧ state.Recorded source thread.val) →
          slot.state = .runnable ∨ slot.state = .running) ∧
        ((¬∃ source, state.signal entry = some source ∧ state.Recorded source thread.val) →
          slot.state = .channelBlocked) := by
  obtain ⟨⟨waits, coherent⟩, running⟩ := run_coherent (n := n) entries
  have distinct := coherent.waiters_nodup
  refine ⟨fun thread => ?_, nodup_iff_count_le_one.mp distinct, fun waiter member => ?_,
    coherent.blocked_iff, fun entry thread blocked => ⟨?_, fun unsignalled => ?_⟩⟩
  · rw [coherent.blocked_iff, ← mem_waiters]
    constructor
    · exact count_eq_one_of_mem distinct
    · intro once
      exact count_pos_iff.mp (Nat.lt_of_lt_of_eq Nat.one_pos once.symm)
  · obtain ⟨source, recorded⟩ := mem_waiters.mp member
    obtain ⟨thread, rfl, _⟩ := (coherent.recorded source waiter).mp recorded
    exact thread.isLt
  · rintro ⟨source, signalled, recorded⟩
    exact (step_serves coherent running entry).woken thread source
      ((coherent.recorded_iff source thread).mp recorded) signalled
  · obtain ⟨source, recorded⟩ := (coherent.blocked_iff thread).mp blocked
    apply (step_serves coherent running entry).kept thread source ((coherent.recorded_iff source thread).mp recorded)
    exact fun signalled => unsignalled ⟨source, signalled, recorded⟩

/-- User memory in which every access succeeds and every send has an empty message. -/
def permissive : Environment where
  readable _ _ := true
  writable _ _ := true
  executable _ _ := true
  sendRequest _ := ⟨1, 0, 0, 0, 0, 0, 0, fun _ => 0, fun _ => ⟨0, 0, 0⟩⟩
  spawnRequest _ := ⟨0, 1, 0, 0, 0⟩
  loads _ _ := true
  mmapLimit := 2 ^ 48
  elapsed := 1
  late := 0

end SyscallState
end Nagi.Kernel
