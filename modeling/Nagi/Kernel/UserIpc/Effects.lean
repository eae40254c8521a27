import Nagi.Kernel.UserIpc.Collect

/-! The transitions the manager is built from, each described by what it reads and what it writes. -/

namespace Nagi.Kernel.UserIpcState

open Lib HandleTable

/-- A process whose handles are those of another one; only generations of free
slots may have advanced. -/
structure SameProcess (before after : Process handleCapacity) : Prop where
  id : after.id = before.id
  addressSpace : after.addressSpace = before.addressSpace
  capability : ∀ k, (after.handles.slots k).capability = (before.handles.slots k).capability

variable (before after : UserIpcState)

structure Booted (addressSpace : ObjectId) : Prop where
  vacant : before.processes 0 = none
  fresh : before.registry.refs addressSpace = 0
  refs : ∀ object, after.registry.refs object =
    before.registry.refs object + if object = addressSpace then 1 else 0
  evolves : before.registry.Evolves after.registry
  after_eq : after =
    { before with registry := after.registry }.withProcess 0 (.new bootstrapProcessId addressSpace)

structure Churned : Prop where
  channels : after.channels = before.channels
  waiters : after.waiters = before.waiters
  refs : ∀ object, after.registry.refs object = before.registry.refs object
  evolves : before.registry.Evolves after.registry
  processes : ∀ i, Option.Rel SameProcess (before.processes i) (after.processes i)

/-- A wait ended or was refused: registrations of the waiter may have been withdrawn. -/
structure Withdrawn (waiterId : Nat) : Prop where
  after_eq : after = { before with waiters := after.waiters }
  registrations : ∀ i registration, after.waiters.registrations i = some registration →
    before.waiters.registrations i = some registration
  others : ∀ i registration, before.waiters.registrations i = some registration →
    registration.waiterId ≠ waiterId → after.waiters.registrations i = some registration
  wakeups : ∀ i, before.waiters.wakeups i = none → after.waiters.wakeups i = none

/-- A wait blocked: the waiter's old registrations were replaced by one for an
endpoint with nothing to receive. -/
structure Blocked (waiterId : Nat) (c : Fin channelCapacity) (pair : ChannelPair)
    (object : ObjectId) (index : Fin 2) (free : Fin maxWaitItems) : Prop where
  channel : (before.channels c).pair = some pair
  queue : pair.queueForReceiver object = .ok index
  empty : (pair.queues index).toList = []
  vacant : (before.waiters.cancelWaiter waiterId).registrations free = none
  after_eq : after = { before with
    waiters := (before.waiters.cancelWaiter waiterId).withRegistration free ⟨waiterId, 1, object, .readable, 0⟩ }

structure Created (i : Fin maxUserProcesses) (c : Fin channelCapacity)
    (process : Process handleCapacity) (pair : ChannelPair) (middle handles : HandleTable handleCapacity)
    (k l : Fin handleCapacity) : Prop where
  registered : before.processes i = some process
  vacant : (before.channels c).pair = none
  empty : ∀ index, (pair.queues index).toList = []
  fresh : ∀ object ∈ pair.owned, before.registry.refs object = 0 ∧ ¬before.registry.Spent object
  distinct : pair.owned.Nodup
  refs : ∀ object, after.registry.refs object =
    before.registry.refs object + pair.owned.count object + pair.endpoints.count object
  evolves : before.registry.Evolves after.registry
  first : Filled process.handles middle k ⟨pair.endpointA, endpointRights⟩
  second : Filled middle handles l ⟨pair.endpointB, endpointRights⟩
  after_eq : after = ({ before with registry := after.registry }.withProcess i
    { process with handles := handles }).withPair c pair

structure Sent (before after : UserIpcState) (i : Fin maxUserProcesses) (c : Fin channelCapacity)
    (process process' : Process handleCapacity) (pair pair' : ChannelPair) (endpoint : Handle)
    (message : OutgoingMessage) (capability : Capability) (index : Fin 2) (tokens : List TransferToken)
    (woken : List Nat) : Prop where
  registered : before.processes i = some process
  channel : (before.channels c).pair = some pair
  sent : ∃ waiters, ChannelPair.Sent before.registry pair process endpoint message before.waiters pair' process'
    waiters capability index tokens ∧ waiters.takeWokenWaiters = (woken, after.waiters)
  reachable : before.endpointReachable (pair.peerOf capability.object) = true
  after_eq : after = ({ before with waiters := after.waiters }.withProcess i process').withPair c pair'

structure Received (before after : UserIpcState) (i : Fin maxUserProcesses) (c : Fin channelCapacity)
    (process process' : Process handleCapacity) (pair pair' : ChannelPair) (endpoint : Handle)
    (message : ReceivedMessage) (capability : Capability) (index : Fin 2) (entry : QueuedMessage) : Prop where
  registered : before.processes i = some process
  channel : (before.channels c).pair = some pair
  received : ChannelPair.Received before.registry pair process endpoint message pair' process' capability index entry
  after_eq : after = (before.withProcess i process').withPair c pair'

structure Dropped (i : Fin maxUserProcesses) (process : Process handleCapacity)
    (handles : HandleTable handleCapacity) (k : Fin handleCapacity) (capability : Capability) : Prop where
  registered : before.processes i = some process
  emptied : Emptied process.handles handles k capability
  refs : ∀ object, after.registry.refs object + (if object = capability.object then 1 else 0) =
    before.registry.refs object
  evolves : before.registry.Evolves after.registry
  after_eq : after = { before with registry := after.registry }.withProcess i { process with handles := handles }

structure Spawned (j : Fin maxUserProcesses) (child : Nat) (parent : Process handleCapacity) (addressSpace : ObjectId)
    (handles childHandles : HandleTable handleCapacity) (k l : Fin handleCapacity)
    (capability : Capability) (rights : Rights) : Prop where
  registered : before.processes 0 = some parent
  vacant : before.processes j = none
  isolated : j ≠ 0
  id : bootstrapProcessId < child
  unused : ∀ i process, before.processes i = some process → process.id ≠ child
  fresh : before.registry.refs addressSpace = 0
  refs : ∀ object, after.registry.refs object =
    before.registry.refs object + if object = addressSpace then 1 else 0
  evolves : before.registry.Evolves after.registry
  emptied : Emptied parent.handles handles k capability
  transferable : capability.rights.contains .transfer = true
  weaker : capability.rights.contains rights = true
  filled : Filled .new childHandles l ⟨capability.object, rights⟩
  after_eq : after = ({ before with registry := after.registry }.withProcess 0 { parent with handles := handles
    }).withProcess j ⟨child, addressSpace, childHandles⟩

structure Exited (i : Fin maxUserProcesses) (process : Process handleCapacity) : Prop where
  registered : before.processes i = some process
  isolated : i ≠ 0
  refs : ∀ object, after.registry.refs object + process.handles.objects.count object +
    (if object = process.addressSpace then 1 else 0) = before.registry.refs object
  evolves : before.registry.Evolves after.registry
  after_eq : after = { before with
    registry := after.registry, processes := Function.update before.processes i none }

inductive Transition (before after : UserIpcState) : Prop where
  | booted {addressSpace} : Booted before after addressSpace → Transition before after
  | churned : Churned before after → Transition before after
  | withdrawn {waiterId} : Withdrawn before after waiterId → Transition before after
  | blocked {waiterId c pair object index free} :
      Blocked before after waiterId c pair object index free → Transition before after
  | created {i c process pair middle handles k l} :
      Created before after i c process pair middle handles k l → Transition before after
  | sent {i c process process' pair pair' endpoint message capability index tokens woken} :
      Sent before after i c process process' pair pair' endpoint message capability index tokens woken →
      Transition before after
  | received {i c process process' pair pair' endpoint message capability index entry} :
      Received before after i c process process' pair pair' endpoint message capability index entry →
      Transition before after
  | dropped {i process handles k capability} :
      Dropped before after i process handles k capability → Transition before after
  | spawned {j child parent addressSpace handles childHandles k l capability rights} :
      Spawned before after j child parent addressSpace handles childHandles k l capability rights →
      Transition before after
  | exited {i process} : Exited before after i process → Transition before after
  | collected : Collected before after → Transition before after

end Nagi.Kernel.UserIpcState
