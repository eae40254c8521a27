import Nagi.Kernel.Ipc.Message

/-! The wait registry of `kernel/src/ipc.rs`: registrations, wakeups, `notify`
and `wait_many`. -/

namespace Nagi.Kernel

open Lib

abbrev maxWaitItems : Nat := 8
abbrev maxWaitWakeups : Nat := maxWaitItems

structure Signals where
  bits : BitVec 32
  deriving DecidableEq

namespace Signals

def readable : Signals := ⟨1#32 <<< 0⟩
def writable : Signals := ⟨1#32 <<< 1⟩
def signaled : Signals := ⟨1#32 <<< 3⟩
def fired : Signals := ⟨1#32 <<< 4⟩

def empty : Signals := ⟨0⟩

instance : OrOp Signals := ⟨fun left right => ⟨left.bits ||| right.bits⟩⟩

def intersects (left right : Signals) : Bool := left.bits &&& right.bits != 0

end Signals

structure Event where
  object : ObjectId
  signaled : Bool

structure Timer where
  object : ObjectId
  deadline : Option Nat
  fired : Bool

def ChannelPair.readiness (pair : ChannelPair) (endpoint : ObjectId) : Except ChannelError Signals :=
  match pair.queueForReceiver endpoint with
  | .error error => .error error
  | .ok index =>
    if (pair.queues index).length != 0 then .ok (.writable ||| .readable) else .ok .writable

inductive WaitSource where
  | channel (pair : ChannelPair) (endpoint : ObjectId)
  | event (event : Event)
  | timer (timer : Timer) (now : Nat)

structure WaitItem where
  source : WaitSource
  object : ObjectId
  interests : Signals
  observed : Signals

namespace WaitItem

def channel (pair : ChannelPair) (object : ObjectId) (interests : Signals) : WaitItem :=
  ⟨.channel pair object, object, interests, .empty⟩

def observe : WaitSource → Signals
  | .channel pair object =>
    match pair.readiness object with
    | .ok signals => signals
    | .error _ => .empty
  | .event event => if event.signaled then .signaled else .empty
  | .timer timer now =>
    if timer.fired || timer.deadline.any (fun deadline => decide (deadline ≤ now)) then .fired else .empty

def refresh (item : WaitItem) : WaitItem := { item with observed := observe item.source }

end WaitItem

def ChannelPair.waitItem (pair : ChannelPair) (endpoint : ObjectId) (interests : Signals) :
    Except ChannelError WaitItem :=
  match pair.readiness endpoint with
  | .error error => .error error
  | .ok _ => .ok (.channel pair endpoint interests)

def ChannelPair.waitItemForProcess {m n : Nat} (pair : ChannelPair) (registry : ObjectRegistry m)
    (process : Process n) (endpoint : Handle) (interests : Signals) : Except ChannelError WaitItem :=
  match process.handles.require registry endpoint .channelEndpoint .wait with
  | .error error => .error (.ofHandle error)
  | .ok object => pair.waitItem object interests

structure WaitOutcome where
  index : Nat
  observed : Signals
  deriving DecidableEq

inductive WaitError where
  | empty
  | tooMany
  | blocked
  | invalid
  | stale
  | wrongType
  | rightsMissing
  deriving DecidableEq

inductive WaiterState where
  | runnable
  | blocked
  deriving DecidableEq

structure Waiter where
  id : Nat
  epoch : Nat
  state : WaiterState
  wake : Option WaitOutcome
  deriving DecidableEq

def Waiter.new (id : Nat) : Waiter := ⟨id, 0, .runnable, none⟩

structure WaitRegistration where
  waiterId : Nat
  epoch : Nat
  object : ObjectId
  interests : Signals
  index : Nat
  deriving DecidableEq

structure WaitWake where
  waiterId : Nat
  epoch : Nat
  outcome : WaitOutcome
  deriving DecidableEq

def WaitRegistration.key (registration : WaitRegistration) : Nat × Nat :=
  (registration.waiterId, registration.epoch)

def WaitWake.key (wake : WaitWake) : Nat × Nat := (wake.waiterId, wake.epoch)

@[ext]
structure WaitRegistry where
  registrations : Fin maxWaitItems → Option WaitRegistration
  wakeups : Fin maxWaitWakeups → Option WaitWake

namespace WaitRegistry

def new : WaitRegistry := ⟨fun _ => none, fun _ => none⟩

/-- What one iteration of the loop of `notify` finds at its index. -/
inductive NotifyBranch where
  | vacant
  | unrelated
  | noFreeWakeup
  | notified
  deriving DecidableEq

structure NotifyLoop where
  registry : WaitRegistry
  index : Nat
  notified : Bool

def isNotifiedBy (object : ObjectId) (signals : Signals) (registration : WaitRegistration) : Bool :=
  registration.object == object && registration.interests.intersects signals

variable (registry : WaitRegistry)

def isQueued (key : Nat × Nat) : Bool :=
  (List.finRange maxWaitWakeups).any fun i => (registry.wakeups i).any (·.key == key)

def removeWhere (p : WaitRegistration → Bool) : WaitRegistry :=
  { registry with registrations := fun i => (registry.registrations i).filter (fun r => !p r) }

def removeWakeupsWhere (p : WaitWake → Bool) : WaitRegistry :=
  { registry with wakeups := fun i => (registry.wakeups i).filter (fun w => !p w) }

def freeWakeup : Option (Fin maxWaitWakeups) :=
  Fin.find? fun i => (registry.wakeups i).isNone

def freeRegistration : Option (Fin maxWaitItems) :=
  Fin.find? fun i => (registry.registrations i).isNone

/-- The body of the loop of `notify`, at an index below the table size. The
branch taken is returned beside the next loop state. -/
def notifyBody (object : ObjectId) (signals : Signals) (loop : NotifyLoop) (i : Fin maxWaitItems) :
    NotifyBranch × NotifyLoop :=
  match loop.registry.registrations i with
  | none => (.vacant, { loop with index := loop.index + 1 })
  | some registration =>
    if !isNotifiedBy object signals registration then
      (.unrelated, { loop with index := loop.index + 1 })
    else if loop.registry.isQueued registration.key then
      (.notified, ⟨loop.registry.removeWhere (·.key == registration.key), 0, loop.notified⟩)
    else match loop.registry.freeWakeup with
      | none => (.noFreeWakeup, { loop with index := loop.index + 1 })
      | some free =>
        let wake : WaitWake :=
          ⟨registration.waiterId, registration.epoch, ⟨registration.index, signals⟩⟩
        let queued : WaitRegistry :=
          { loop.registry with wakeups := Function.update loop.registry.wakeups free (some wake) }
        (.notified, ⟨queued.removeWhere (·.key == registration.key), 0, true⟩)

def notifyLoop (object : ObjectId) (signals : Signals) : Nat → NotifyLoop → List NotifyBranch × NotifyLoop
  | 0, loop => ([], loop)
  | fuel + 1, loop =>
    if inside : loop.index < maxWaitItems then
      let step := notifyBody object signals loop ⟨loop.index, inside⟩
      let rest := notifyLoop object signals fuel step.2
      (step.1 :: rest.1, rest.2)
    else ([], loop)

/-- Each removal restarts the scan, so at most nine scans of eight entries run. -/
def notifyFuel : Nat := 80

def notifyRun (object : ObjectId) (signals : Signals) : List NotifyBranch × NotifyLoop :=
  notifyLoop object signals notifyFuel ⟨registry, 0, false⟩

def notify (object : ObjectId) (signals : Signals) : Bool × WaitRegistry :=
  let run := registry.notifyRun object signals
  (run.2.notified, run.2.registry)

def clearForWaiter (waiterId : Nat) : WaitRegistry :=
  registry.removeWhere (·.waiterId == waiterId)

def clearWakeupForWaiter (waiterId : Nat) : WaitRegistry :=
  registry.removeWakeupsWhere (·.waiterId == waiterId)

def cancelWaiter (waiterId : Nat) : WaitRegistry :=
  (registry.clearForWaiter waiterId).clearWakeupForWaiter waiterId

def cancel (waiter : Waiter) : WaitRegistry :=
  registry.removeWhere (·.key == (waiter.id, waiter.epoch))

def occupied : Nat :=
  (List.finRange maxWaitItems).countP (fun i => (registry.registrations i).isSome) +
    (List.finRange maxWaitWakeups).countP (fun i => (registry.wakeups i).isSome)

/-- The loop of `register` over the items, from the item at `index` on. -/
def registerItems (waiter : Waiter) : Nat → List WaitItem → WaitRegistry → Except WaitError Unit × WaitRegistry
  | _, [], registry => (.ok (), registry)
  | index, item :: items, registry =>
    match registry.freeRegistration with
    | none => (.error .tooMany, registry.clearForWaiter waiter.id)
    | some free =>
      registerItems waiter (index + 1) items { registry with
        registrations := Function.update registry.registrations free
          (some ⟨waiter.id, waiter.epoch, item.object, item.interests, index⟩) }

def register (waiter : Waiter) (items : List WaitItem) : Except WaitError Unit × WaitRegistry × Waiter :=
  let registry := registry.cancelWaiter waiter.id
  if registry.occupied + items.length > maxWaitWakeups then (.error .tooMany, registry, waiter)
  else
    let waiter := { waiter with epoch := (waiter.epoch + 1) % 2 ^ 64 }
    match registerItems waiter 0 items registry with
    | (.error error, registry) => (.error error, registry, waiter)
    | (.ok (), registry) => (.ok (), registry, { waiter with state := .blocked })

def firstReady (items : List WaitItem) : Option WaitOutcome :=
  (items.findIdx? fun item => item.observed.intersects item.interests).bind fun index =>
    items[index]?.map fun item => ⟨index, item.observed⟩

/-- `WokenWaiters`: the ids in the order of the wakeup slots, each once. -/
def takeWokenWaiters : List Nat × WaitRegistry :=
  ((List.finRange maxWaitWakeups).foldl (fun woken i =>
      match registry.wakeups i with
      | none => woken
      | some wake => if woken.contains wake.waiterId then woken else woken ++ [wake.waiterId]) [],
    { registry with wakeups := fun _ => none })

end WaitRegistry

/-- `wait_many`. The refreshed items are not returned: the caller drops them. -/
def waitMany (registry : WaitRegistry) (waiter : Waiter) (items : List WaitItem) :
    Except WaitError WaitOutcome × WaitRegistry × Waiter :=
  if items.isEmpty then (.error .empty, registry, waiter)
  else if items.length > maxWaitItems then (.error .tooMany, registry, waiter)
  else
    let waiter := { waiter with wake := none }
    let items := items.map (·.refresh)
    match WaitRegistry.firstReady items with
    | some outcome => (.ok outcome, registry.cancel waiter, { waiter with state := .runnable })
    | none =>
      match registry.register waiter items with
      | (.error error, registry, waiter) => (.error error, registry, { waiter with state := .runnable })
      | (.ok (), registry, waiter) =>
        let items := items.map (·.refresh)
        match WaitRegistry.firstReady items with
        | some outcome => (.ok outcome, registry.cancel waiter, { waiter with state := .runnable })
        | none => (.error .blocked, registry, waiter)

def wait (registry : WaitRegistry) (waiter : Waiter) (item : WaitItem) :
    Except WaitError WaitOutcome × WaitRegistry × Waiter :=
  waitMany registry waiter [item]

end Nagi.Kernel
