import Nagi.Kernel.UserChild.Storage
import Nagi.Kernel.UserMmap.Storage

/-! The system calls of `kernel/src/syscall.rs` that schedule threads, pass
messages and manage processes, over the tables they share.

Saved register contexts and what a call writes to user memory are left out. The
page tables, the ELF loader and the timer are an environment that may answer
anything. -/

namespace Nagi.Kernel

open Lib Function

structure ProcessSpawnRequest where
  imageAddress : BitVec 64
  imageLen : BitVec 64
  endpoint : BitVec 64
  endpointRights : BitVec 32
  reserved : BitVec 32

structure Environment where
  readable : BitVec 64 → Nat → Bool
  writable : BitVec 64 → Nat → Bool
  executable : BitVec 64 → Nat → Bool
  sendRequest : BitVec 64 → ChannelSendRequest
  spawnRequest : BitVec 64 → ProcessSpawnRequest
  /-- Whether the bytes parse as an ELF image and can be mapped for a child. -/
  loads : BitVec 64 → Nat → Bool
  /-- `USER_MMAP_LIMIT`, which depends on the build. -/
  mmapLimit : Nat
  /-- The ticks that have passed since the last call. -/
  elapsed : Nat
  /-- The ticks by which a wait for the timer overshoots. -/
  late : Nat

abbrev channelEndpointsSize : Nat := 16
abbrev processSpawnRequestSize : Nat := 32
abbrev processExitStatusSize : Nat := 24
abbrev channelSendRequestSize : Nat := 24 + maxInlinePayload + 16 * maxTransferHandles
abbrev channelReceiveResultSize : Nat := 32 + maxInlinePayload + 8 * maxTransferHandles
abbrev stackPageSize : Nat := 4096
abbrev stackMaxSize : Nat := 8 * 1024 * 1024

/-- `u64::MAX`, the result of every call that fails. -/
def callFailed : BitVec 64 := BitVec.allOnes 64
def processWaitRetry : BitVec 64 := 1#64
def threadCreateDetached : BitVec 64 := 1#64

def saturatingAdd (a b : Nat) : Nat := min (a + b) (2 ^ 64 - 1)

/-- `CHILD_SLOT_PROCESS`, with `FREE_SLOT` as `none`. -/
abbrev ChildSlots := Fin maxLiveProcesses → Option Nat

namespace ChildSlots

def slotOf (slots : ChildSlots) (processId : Nat) : Option (Fin maxLiveProcesses) :=
  if processId ≤ initProcessId then none else Fin.find? fun i => decide (slots i = some processId)

/-- `prepare_child`: `loads` stands for what it makes of the image. A slot claimed
for an image that cannot be mapped is given back. -/
def prepareChild (slots : ChildSlots) (processId : Nat) (loads : Bool) : Option ChildSlots :=
  if !loads then none
  else if processId ≤ initProcessId ∨ (slots.slotOf processId).isSome = true then none
  else
    match Fin.find? fun i => (slots i).isNone with
    | none => none
    | some i => some (update slots i (some processId))

def releaseChild (slots : ChildSlots) (processId : Nat) : ChildSlots :=
  match slots.slotOf processId with
  | none => slots
  | some i => update slots i none

theorem releaseChild_prepareChild {slots claimed : ChildSlots} {processId : Nat} {loads : Bool}
    (prepared : slots.prepareChild processId loads = some claimed) : claimed.releaseChild processId = slots := by
  unfold prepareChild at prepared
  split_ifs at prepared with _ accepted
  split at prepared <;> cases prepared
  next i found =>
  have vacant : slots i = none := by simpa using Fin.eq_true_of_find?_eq_some found
  obtain ⟨isolated, unknown⟩ := not_or.mp accepted
  -- the slot is the only one of the process
  have slot : slotOf (update slots i (some processId)) processId = some i := by
    rw [slotOf, if_neg isolated] at unknown ⊢
    refine Fin.find?_eq_some_iff.mpr ⟨by simp, fun j before => ?_⟩
    have absent := Fin.find?_eq_none_iff.mp (Option.not_isSome_iff_eq_none.mp unknown) j
    rw [update_of_ne before.ne]
    simpa using absent
  rw [releaseChild, slot, ← vacant]
  simp

end ChildSlots

structure SyscallState (n : Nat) where
  threads : BootstrapUserThreads n
  ipc : UserIpcState
  exits : ExitTable
  childSlots : ChildSlots
  activeProcess : Nat
  ticks : Nat
  /-- `halt_forever` was called. -/
  halted : Bool

inductive Syscall where
  | threadSleep (durationNs : BitVec 64)
  | threadCreate (entry argument stack size flags : BitVec 64)
  | threadJoin (thread resultAddress : BitVec 64)
  | threadExit (code : BitVec 64)
  | threadDetach (thread : BitVec 64)
  | channelCreate (address length : BitVec 64)
  | channelSend (endpoint address length : BitVec 64)
  | channelTryReceive (endpoint address length : BitVec 64)
  | channelWaitReadable (endpoint : BitVec 64)
  | handleClose (handle : BitVec 64)
  | processSpawn (address length : BitVec 64)
  | processWait (processId address length : BitVec 64)
  | processExit (code : BitVec 64)

inductive Trap where
  | syscall (call : Syscall)
  | exception (vector : BitVec 64)

namespace SyscallState
variable {n : Nat}

def new : SyscallState n := ⟨.new, .new, .new, fun _ => none, initProcessId, 0, false⟩

variable (state : SyscallState n)

def haltForever : SyscallState n := { state with halted := true }

variable (environment : Environment)

/-- `wait_for_timer_ticks`: the reading of the timer afterwards. -/
def waitForTimerTicks (now periods : Nat) : Nat :=
  if periods = 0 then now else saturatingAdd now periods + environment.late

/-- The loop of `wait_until_runnable`, cut off after `fuel` turns. The outer
`none` says that it was cut off. -/
def waitLoop (environment : Environment) : Nat → BootstrapUserThreads n → Nat →
    Option (Option (Fin (n + 1))) × BootstrapUserThreads n × Nat
  | 0, threads, now => (none, threads, now)
  | fuel + 1, threads, now =>
    match threads.selectRunnable now with
    | (some thread, threads) => (some (some thread), threads, now)
    | (none, threads) =>
      match threads.ticksUntilWake now with
      | some ticks => waitLoop environment fuel threads (waitForTimerTicks environment now (max ticks 1))
      | none => (some none, threads, now)

/-- The second turn finds the sleeper that the first one has waited for. -/
def waitUntilRunnable (abortDeadlockedJoin : Bool) (state : SyscallState n) : Option (Fin (n + 1)) × SyscallState n :=
  match waitLoop environment 2 state.threads state.ticks with
  | (some (some thread), threads, ticks) => (some thread, { state with threads, ticks })
  | (_, threads, ticks) =>
    if abortDeadlockedJoin then
      let aborted := threads.abortBlockedJoin
      (aborted.1, { state with threads := aborted.2, ticks })
    else (none, { state with threads, ticks })

/-- `select_runnable(now).or_else(|| wait_until_runnable(false))`. -/
def selectOrWait (state : SyscallState n) : Option (Fin (n + 1)) × SyscallState n :=
  match state.threads.selectRunnable state.ticks with
  | (some thread, threads) => (some thread, { state with threads })
  | (none, threads) => waitUntilRunnable environment false { state with threads }

def threadYield : BitVec 64 × SyscallState n :=
  match state.threads.yieldCurrent state.ticks with
  | (none, threads) => (callFailed, { state with threads })
  | (some _, threads) => (0, { state with threads })

def threadSleep (durationNs : BitVec 64) (state : SyscallState n) : BitVec 64 × SyscallState n :=
  if durationNs = 0 then state.threadYield
  else
    let sleepTicks := max ((durationNs.toNat + 9999999) / 10000000) 1
    let wakeAt := BitVec.ofNat 64 (saturatingAdd state.ticks sleepTicks)
    match state.threads.sleepCurrent wakeAt state.ticks with
    | (some _, threads) => (0, { state with threads })
    | (none, threads) =>
      match waitUntilRunnable environment false { state with threads } with
      | (some _, state) => (0, state)
      | (none, state) => (callFailed, state.haltForever)

def threadCreate (entry stack size flags : BitVec 64) (state : SyscallState n) : BitVec 64 × SyscallState n :=
  if flags &&& ~~~threadCreateDetached ≠ 0 then (callFailed, state)
  else if 2 ^ 64 ≤ stack.toNat + size.toNat then (callFailed, state)
  else if !environment.executable entry 1 then (callFailed, state)
  else if stack.toNat < UserMmap.userMmapBase ∨ environment.mmapLimit < stack.toNat + size.toNat then
    (callFailed, state)
  else if size.toNat < stackPageSize ∨ stackMaxSize < size.toNat ∨ size.toNat % stackPageSize ≠ 0 ∨
      stack.toNat % stackPageSize ≠ 0 then (callFailed, state)
  else if !environment.writable stack size.toNat then (callFailed, state)
  else
    match state.threads.allocate with
    | (none, threads) => (callFailed, { state with threads })
    | (some thread, threads) =>
      if flags &&& threadCreateDetached ≠ 0 then
        match threads.detach thread.val with
        | (false, threads) => (callFailed, { state with threads := (threads.discardUnstarted thread).2 })
        | (true, threads) => (BitVec.ofNat 64 thread.val, { state with threads })
      -- `reset_user_thread_tls` fails only for slot 0
      else (BitVec.ofNat 64 thread.val, { state with threads })

def threadJoin (thread resultAddress : BitVec 64) (state : SyscallState n) : BitVec 64 × SyscallState n :=
  if resultAddress.toNat % 8 ≠ 0 ∨ environment.writable resultAddress 8 = false then (callFailed, state)
  else if 2 ^ 8 ≤ thread.toNat then (callFailed, state)
  else
    let caller := state.threads.current
    match state.threads.joinCurrent thread.toNat state.ticks with
    | (.completed _, threads) => (0, { state with threads })
    | (.invalid, threads) => (callFailed, { state with threads })
    | (.blocked, threads) =>
      if threads.current ≠ caller then (0, { state with threads })
      else
        match waitUntilRunnable environment true { state with threads } with
        | (some _, state) => (0, state)
        | (none, state) => (callFailed, state)

def threadExit (code : BitVec 64) (state : SyscallState n) : BitVec 64 × SyscallState n :=
  match state.threads.exitCurrent code state.ticks with
  | (none, threads) => (callFailed, { state with threads })
  | (some outcome, threads) =>
    match outcome.nextThread with
    | some _ => (callFailed, { state with threads })
    | none =>
      match waitUntilRunnable environment false { state with threads } with
      | (some _, state) => (callFailed, state)
      | (none, state) => (callFailed, state.haltForever)

def threadDetach (thread : BitVec 64) (state : SyscallState n) : BitVec 64 × SyscallState n :=
  if 2 ^ 8 ≤ thread.toNat then (callFailed, state)
  else
    match state.threads.detach thread.toNat with
    | (true, threads) => (0, { state with threads })
    | (false, threads) => (callFailed, { state with threads })

def channelCreate (address length : BitVec 64) (state : SyscallState n) : BitVec 64 × SyscallState n :=
  if length.toNat ≠ channelEndpointsSize ∨ environment.writable address channelEndpointsSize = false then
    (callFailed, state)
  else
    match state.ipc.createPair state.threads.currentOwner with
    | (.ok _, ipc) => (0, { state with ipc })
    | (.error _, ipc) => (callFailed, { state with ipc })

/-- Thread numbers that do not fit `u8` have no slot either. -/
def channelSend (endpoint address length : BitVec 64) (state : SyscallState n) : BitVec 64 × SyscallState n :=
  if length.toNat ≠ channelSendRequestSize ∨ environment.readable address channelSendRequestSize = false then
    (callFailed, state)
  else
    match state.ipc.send state.threads.currentOwner endpoint (environment.sendRequest address) with
    | (.ok woken, ipc) => (0, { state with
        ipc
        threads := woken.foldl (fun threads waiter => (threads.wakeChannelWaiter waiter).2) state.threads })
    | (.error _, ipc) => (callFailed, { state with ipc })

def channelTryReceive (endpoint address length : BitVec 64) (state : SyscallState n) : BitVec 64 × SyscallState n :=
  if length.toNat ≠ channelReceiveResultSize ∨ environment.writable address channelReceiveResultSize = false then
    (callFailed, state)
  else
    match state.ipc.tryReceive state.threads.currentOwner endpoint with
    | (.ok (some _), ipc) => (1, { state with ipc })
    | (.ok none, ipc) => (0, { state with ipc })
    | (.error _, ipc) => (callFailed, { state with ipc })

def handleClose (handle : BitVec 64) (state : SyscallState n) : BitVec 64 × SyscallState n :=
  match state.ipc.close state.threads.currentOwner handle with
  | (.ok _, ipc) => (0, { state with ipc })
  | (.error _, ipc) => (callFailed, { state with ipc })

def channelWaitReadable (endpoint : BitVec 64) (state : SyscallState n) : BitVec 64 × SyscallState n :=
  let caller := state.threads.current
  let now := state.ticks
  match state.ipc.waitReadable state.threads.currentOwner endpoint caller.val
      BootstrapUserThreads.blockCurrentOnChannel state.threads with
  | (.ok .readable, ipc, threads) => (0, { state with ipc, threads })
  | (.error _, ipc, threads) => (callFailed, { state with ipc, threads })
  | (.ok .blocked, ipc, threads) =>
    match selectOrWait environment { state with ipc, threads } with
    | (some _, state) => (0, state)
    | (none, state) =>
      let cancelled := { state with ipc := state.ipc.cancelWaiter caller.val }
      match cancelled.threads.abortCurrentChannelWait with
      | (true, threads) => (callFailed, { cancelled with threads })
      | (false, threads) =>
        match threads.selectRunnable now with
        | (some _, threads) => (0, { cancelled with threads })
        | (none, threads) => (callFailed, { cancelled with threads, halted := true })

def processWait (processId address length : BitVec 64) (state : SyscallState n) : BitVec 64 × SyscallState n :=
  if length.toNat ≠ processExitStatusSize ∨ environment.writable address processExitStatusSize = false then
    (callFailed, state)
  else if 2 ^ 32 ≤ processId.toNat then (callFailed, state)
  else
    let caller := state.threads.current
    match state.exits.wait processId.toNat caller.val with
    | (.ready _, exits) => (0, { state with exits })
    | (.invalid, exits) => (callFailed, { state with exits })
    | (.blocked, exits) =>
      match state.threads.blockCurrentOnChannel with
      | (false, threads) => (callFailed, { state with threads, exits := (exits.cancelWait caller.val).2 })
      | (true, threads) =>
        match selectOrWait environment { state with threads, exits } with
        | (some _, state) => (processWaitRetry, state)
        | (none, state) => (callFailed, { state with
            exits := (state.exits.cancelWait caller.val).2
            threads := state.threads.abortCurrentChannelWait.2 })

def processSpawn (address length : BitVec 64) (state : SyscallState n) : BitVec 64 × SyscallState n :=
  if length.toNat ≠ processSpawnRequestSize ∨ environment.readable address processSpawnRequestSize = false then
    (callFailed, state)
  else
    let request := environment.spawnRequest address
    if request.reserved ≠ 0 ∨ request.imageLen.toNat = 0 ∨ UserChild.maxChildElfBytes < request.imageLen.toNat ∨
        environment.readable request.imageAddress request.imageLen.toNat = false then (callFailed, state)
    else
      match Rights.fromBits request.endpointRights with
      | none => (callFailed, state)
      | some rights =>
        match state.exits.reserve with
        | .error _ => (callFailed, state)
        | .ok processId =>
          match state.childSlots.prepareChild processId
              (environment.loads request.imageAddress request.imageLen.toNat) with
          | none => (callFailed, state)
          | some childSlots =>
            match state.ipc.registerSpawnedProcess initProcessId processId request.endpoint rights with
            | (.error _, ipc) => (callFailed, { state with ipc, childSlots := childSlots.releaseChild processId })
            | (.ok _, ipc) =>
              match state.threads.allocateForProcess processId with
              | (none, threads) => (callFailed, { state with
                  threads
                  ipc := (ipc.exitProcess processId).2
                  childSlots := childSlots.releaseChild processId })
              | (some _, threads) =>
                match state.exits.commitSpawn processId with
                | (false, exits) => (callFailed, { state with
                    threads := (threads.exitProcess processId state.ticks).2
                    ipc := (ipc.exitProcess processId).2
                    childSlots := childSlots.releaseChild processId
                    exits })
                | (true, exits) => (BitVec.ofNat 64 processId, { state with threads, ipc, childSlots, exits })

def terminateIsolatedProcess (caller : Nat) (code : BitVec 64) (kind : ExitKind)
    (state : SyscallState n) : SyscallState n :=
  let ipc := ((state.ipc.cancelWaiter state.threads.current.val).exitProcess caller).2
  let recorded := state.exits.recordExit caller code kind
  let woken := recorded.1.elim state.threads fun waiter => (state.threads.wakeChannelWaiter waiter).2
  let left := woken.exitProcess caller state.ticks
  let gone := { state with
    ipc
    exits := recorded.2
    threads := left.2
    activeProcess := initProcessId
    childSlots := state.childSlots.releaseChild caller }
  match left.1.join with
  | some _ => gone
  | none =>
    match waitUntilRunnable environment false gone with
    | (some _, state) => state
    | (none, state) => state.haltForever

def dispatchIsolated (caller : Nat) (state : SyscallState n) : Syscall → BitVec 64 × SyscallState n
  | .processExit code => (callFailed, state.terminateIsolatedProcess environment caller code .exited)
  | .threadSleep durationNs => state.threadSleep environment durationNs
  | .channelCreate address length => state.channelCreate environment address length
  | .channelSend endpoint address length => state.channelSend environment endpoint address length
  | .channelTryReceive endpoint address length => state.channelTryReceive environment endpoint address length
  | .handleClose handle => state.handleClose handle
  | .channelWaitReadable endpoint => state.channelWaitReadable environment endpoint
  | _ => (callFailed, state)

def dispatchInit (state : SyscallState n) : Syscall → BitVec 64 × SyscallState n
  | .processExit _ => (callFailed, state.haltForever)
  | .threadSleep durationNs => state.threadSleep environment durationNs
  | .threadCreate entry _ stack size flags => state.threadCreate environment entry stack size flags
  | .threadJoin thread resultAddress => state.threadJoin environment thread resultAddress
  | .threadExit code => state.threadExit environment code
  | .threadDetach thread => state.threadDetach thread
  | .channelCreate address length => state.channelCreate environment address length
  | .channelSend endpoint address length => state.channelSend environment endpoint address length
  | .channelTryReceive endpoint address length => state.channelTryReceive environment endpoint address length
  | .handleClose handle => state.handleClose handle
  | .channelWaitReadable endpoint => state.channelWaitReadable environment endpoint
  | .processSpawn address length => state.processSpawn environment address length
  | .processWait processId address length => state.processWait environment processId address length

def syncAddressSpace : SyscallState n :=
  let owner := state.threads.currentOwner
  if owner = state.activeProcess then state
  else if owner ≠ initProcessId ∧ (state.childSlots.slotOf owner).isNone = true then state.haltForever
  else { state with activeProcess := owner }

def dispatch (call : Syscall) (state : SyscallState n) : BitVec 64 × SyscallState n :=
  let caller := state.threads.currentOwner
  let result := if caller = initProcessId then state.dispatchInit environment call
    else state.dispatchIsolated environment caller call
  (result.1, result.2.syncAddressSpace)

/-- `exception_entry` for a fault in user mode: fatal in init, and the end of any other process. -/
def exceptionEntry (vector : BitVec 64) (state : SyscallState n) : SyscallState n :=
  let owner := state.threads.currentOwner
  if owner = initProcessId then state.haltForever
  else (state.terminateIsolatedProcess environment owner (128 + vector) (.faulted (vector.truncate 8))).syncAddressSpace

def step (entry : Environment × Trap) : BitVec 64 × SyscallState n :=
  if state.halted then (callFailed, state)
  else
    let state := { state with ticks := state.ticks + entry.1.elapsed }
    match entry.2 with
    | .syscall call => state.dispatch entry.1 call
    | .exception vector => (callFailed, state.exceptionEntry entry.1 vector)

end SyscallState
end Nagi.Kernel
