import Nagi.Kernel.Ipc.Delivery
import Nagi.Lib.Marking

/-! The user IPC manager of `kernel/src/user_ipc.rs`.

An `expect` that could panic is modelled by the error `expectFailed`. -/

namespace Nagi.Kernel

open Lib Function

abbrev bootstrapProcessId : Nat := 1
abbrev maxLiveProcesses : Nat := 2
abbrev maxUserProcesses : Nat := 1 + maxLiveProcesses
abbrev channelCapacity : Nat := 16
abbrev handleCapacity : Nat := 64
abbrev objectCapacity : Nat := 128

structure ChannelEndpoints where
  endpointA : BitVec 64
  endpointB : BitVec 64
  deriving DecidableEq

structure ChannelHandleTransfer where
  handle : BitVec 64
  rights : BitVec 32
  reserved : BitVec 32
  deriving DecidableEq

structure ChannelSendRequest where
  protocolId : UInt16
  version : UInt16
  opcode : UInt16
  flags : UInt16
  requestId : UInt64
  payloadLen : Nat
  transferCount : Nat
  payload : Payload
  transfers : Fin maxTransferHandles → ChannelHandleTransfer

structure ChannelReceiveResult where
  senderProcessId : Nat
  protocolId : UInt16
  version : UInt16
  opcode : UInt16
  flags : UInt16
  requestId : UInt64
  payloadLen : Nat
  transferCount : Nat
  payload : Payload
  handles : Fin maxTransferHandles → BitVec 64

inductive UserIpcError where
  | capacity
  | invalidRequest
  | invalidEndpoint
  | invalidProcess
  | peerClosed
  | handle (error : HandleError)
  | channel (error : ChannelError)
  | wait (error : WaitError)
  | expectFailed
  deriving DecidableEq

inductive ChannelWaitOutcome where
  | readable
  | blocked
  deriving DecidableEq

/-- A slot repeats the identities of its pair, if it has one. -/
structure ChannelSlot where
  pair : Option ChannelPair
  object : Option ObjectId
  endpointA : Option ObjectId
  endpointB : Option ObjectId
  object_eq : object = pair.map (·.object)
  endpointA_eq : endpointA = pair.map (·.endpointA)
  endpointB_eq : endpointB = pair.map (·.endpointB)

namespace ChannelSlot

def new : ChannelSlot := ⟨none, none, none, none, rfl, rfl, rfl⟩

def occupied (pair : ChannelPair) : ChannelSlot :=
  ⟨some pair, some pair.object, some pair.endpointA, some pair.endpointB, rfl, rfl, rfl⟩

def containsEndpoint (slot : ChannelSlot) (endpoint : ObjectId) : Bool :=
  slot.endpointA == some endpoint || slot.endpointB == some endpoint

end ChannelSlot

structure UserIpcState where
  registry : ObjectRegistry objectCapacity
  processes : Fin maxUserProcesses → Option (Process handleCapacity)
  channels : Fin channelCapacity → ChannelSlot
  waiters : WaitRegistry

namespace UserIpcState

def new : UserIpcState := ⟨.new, fun _ => none, fun _ => .new, .new⟩

variable (state : UserIpcState)

def withProcess (i : Fin maxUserProcesses) (process : Process handleCapacity) : UserIpcState :=
  { state with processes := update state.processes i (some process) }

def withPair (c : Fin channelCapacity) (pair : ChannelPair) : UserIpcState :=
  { state with channels := update state.channels c (.occupied pair) }

/-- `initialize`: register the bootstrap process on the first call. -/
def initializeState : Except UserIpcError Unit × UserIpcState :=
  if (state.processes 0).isSome then (.ok (), state)
  else match state.registry.create .addressSpace with
    | .error error => (.error (.handle error), state)
    | .ok (addressSpace, registry) =>
      (.ok (), { state with registry }.withProcess 0 (.new bootstrapProcessId addressSpace))

variable (processId : Nat)

def processIndex : Except UserIpcError (Fin maxUserProcesses) :=
  if processId = bootstrapProcessId then .ok 0
  else match Fin.find? fun i => (state.processes i).any (fun process => process.id == processId) with
    | none => .error .invalidProcess
    | some i => if i = 0 then .error .invalidProcess else .ok i

def processRef : Except UserIpcError (Fin maxUserProcesses × Process handleCapacity) :=
  match state.processIndex processId with
  | .error error => .error error
  | .ok i =>
    match state.processes i with
    | none => .error .invalidProcess
    | some process => .ok (i, process)

def processMut : Except UserIpcError (Fin maxUserProcesses × Process handleCapacity) × UserIpcState :=
  match state.initializeState with
  | (.error error, state) => (.error error, state)
  | (.ok (), state) => (state.processRef processId, state)

/-- `self.processes[self.process_index(process_id)?].as_mut().expect("validated process")`. -/
def validatedProcess : Except UserIpcError (Fin maxUserProcesses × Process handleCapacity) :=
  match state.processIndex processId with
  | .error error => .error error
  | .ok i =>
    match state.processes i with
    | none => .error .expectFailed
    | some process => .ok (i, process)

def channelWith (endpoint : ObjectId) : Option (Fin channelCapacity) :=
  Fin.find? fun c => (state.channels c).pair.isSome && (state.channels c).containsEndpoint endpoint

def locateEndpoint (handle : Handle) : Except UserIpcError (Fin channelCapacity × ObjectId) :=
  match state.processRef processId with
  | .error _ => .error .invalidEndpoint
  | .ok (_, process) =>
    match process.handles.resolve state.registry handle with
    | .error error => .error (.handle error)
    | .ok endpoint =>
      if endpoint.kind ≠ .channelEndpoint then .error .invalidEndpoint
      else match state.channelWith endpoint with
        | none => .error .invalidEndpoint
        | some c => .ok (c, endpoint)

def handleObjects : List ObjectId :=
  (List.finRange maxUserProcesses).flatMap fun i =>
    match state.processes i with
    | none => []
    | some process => process.handles.objects

def slotEscrow (slot : ChannelSlot) : List ObjectId :=
  match slot.pair with
  | none => []
  | some pair => pair.escrowObjects

def endpointReachable (endpoint : ObjectId) : Bool :=
  state.handleObjects.contains endpoint ||
    (List.finRange channelCapacity).any fun c => (slotEscrow (state.channels c)).contains endpoint

/-- `if object.kind() == ChannelEndpoint` and the search for its channel. -/
def channelOf (object : ObjectId) : Option (Fin channelCapacity) :=
  if object.kind = .channelEndpoint then state.channelWith object else none

def rootChannels : Fin channelCapacity → Bool :=
  fun c => (state.handleObjects.filterMap state.channelOf).contains c

def escrowedChannels (c : Fin channelCapacity) : List (Fin channelCapacity) :=
  (slotEscrow (state.channels c)).filterMap state.channelOf

/-- The mark phase of the collector. The loop runs once more than there are
channels at most, see `Marking.loop_eq_reach`. -/
def reachableChannels : Fin channelCapacity → Bool :=
  Marking.markLoop state.escrowedChannels (List.finRange channelCapacity) (channelCapacity + 1) state.rootChannels

def collectChannel (c : Fin channelCapacity) : Except UserIpcError Unit × UserIpcState :=
  match (state.channels c).endpointA, (state.channels c).endpointB, (state.channels c).object,
      (state.channels c).pair with
  | some endpointA, some endpointB, some object, some pair =>
    match pair.drain state.registry with
    | (.error error, pair, registry) => (.error (.channel error), { state with registry }.withPair c pair)
    | (.ok (), pair, registry) =>
      let state := { state with registry }.withPair c pair
      match state.registry.release endpointA with
      | .error error => (.error (.handle error), state)
      | .ok registry =>
        match registry.release endpointB with
        | .error error => (.error (.handle error), { state with registry })
        | .ok registry =>
          match registry.release object with
          | .error error => (.error (.handle error), { state with registry })
          | .ok registry =>
            (.ok (), { state with registry, channels := update state.channels c .new })
  | _, _, _, _ => (.error .expectFailed, state)

def sweepChannels (reachable : Fin channelCapacity → Bool) :
    List (Fin channelCapacity) → UserIpcState → Except UserIpcError Unit × UserIpcState
  | [], state => (.ok (), state)
  | c :: rest, state =>
    if reachable c || (state.channels c).pair.isNone then sweepChannels reachable rest state
    else match state.collectChannel c with
      | (.error error, state) => (.error error, state)
      | (.ok (), state) => sweepChannels reachable rest state

def collectUnreachableChannels : Except UserIpcError Unit × UserIpcState :=
  sweepChannels state.reachableChannels (List.finRange channelCapacity) state

def registerSpawnedProcess (parent child : Nat) (endpoint : BitVec 64)
    (rights : Rights) : Except UserIpcError (BitVec 64) × UserIpcState :=
  match state.initializeState with
  | (.error error, state) => (.error error, state)
  | (.ok (), state) =>
    if parent ≠ bootstrapProcessId ∨ child ≤ bootstrapProcessId then (.error .invalidProcess, state)
    else if (state.processIndex child).isOk then (.error .invalidProcess, state)
    else match Fin.find? fun i => decide (i ≠ 0) && (state.processes i).isNone with
      | none => (.error .capacity, state)
      | some childIndex =>
        match state.locateEndpoint parent ⟨endpoint⟩ with
        | .error error => (.error error, state)
        | .ok _ =>
          match state.registry.create .addressSpace with
          | .error error => (.error (.handle error), state)
          | .ok (addressSpace, registry) =>
            let state := { state with registry }
            match state.processRef parent with
            | .error error => (.error error, state)
            | .ok (parentIndex, parentProcess) =>
              match parentProcess.handles.beginMove state.registry ⟨endpoint⟩ rights with
              | .error error =>
                (.error (.handle error), { state with registry := state.registry.discard addressSpace })
              | .ok (token, handles) =>
                let state := state.withProcess parentIndex { parentProcess with handles }
                let childProcess := Process.new child addressSpace
                match childProcess.handles.installToken state.registry (some token) with
                | .ok (childHandle, handles) =>
                  (.ok childHandle.raw, state.withProcess childIndex { childProcess with handles })
                | .error error =>
                  let released := (state.registry.discard token.capability.object).discard addressSpace
                  let collected := { state with registry := released }.collectUnreachableChannels
                  (.error (.handle error), collected.2)

def exitProcess : Except UserIpcError Unit × UserIpcState :=
  if processId = bootstrapProcessId then (.error .invalidProcess, state)
  else match state.processRef processId with
    | .error error => (.error error, state)
    | .ok (i, process) =>
      let closed := process.handles.closeAll state.registry
      let state : UserIpcState :=
        { state with
          processes := update state.processes i none
          registry := closed.2.discard process.addressSpace }
      state.collectUnreachableChannels

def releaseCreatedObjects (registry : ObjectRegistry objectCapacity) (channel endpointA endpointB : ObjectId) :
    ObjectRegistry objectCapacity :=
  ((registry.discard endpointA).discard endpointB).discard channel

def endpointRights : Rights := .read ||| .write ||| .wait ||| .transfer

/-- The second half of `create_pair`: hand both endpoints of a new pair to the process. -/
def installPair (c : Fin channelCapacity) (pair : ChannelPair)
    (registry : ObjectRegistry objectCapacity) : Except UserIpcError ChannelEndpoints × UserIpcState :=
  let release (registry : ObjectRegistry objectCapacity) :=
    releaseCreatedObjects registry pair.object pair.endpointA pair.endpointB
  match state.validatedProcess processId with
  | .error error => (.error error, { state with registry })
  | .ok (i, process) =>
    match process.handles.insert registry pair.endpointA endpointRights with
    | (.error error, handles, registry) =>
      (.error (.handle error),
        { state with registry := release registry }.withProcess i { process with handles })
    | (.ok first, handles, registry) =>
      match handles.insert registry pair.endpointB endpointRights with
      | (.error error, handles, registry) =>
        let closed := match handles.close registry first with
          | .error _ => (handles, registry)
          | .ok closed => closed
        (.error (.handle error),
          { state with registry := release closed.2 }.withProcess i { process with handles := closed.1 })
      | (.ok second, handles, registry) =>
        (.ok ⟨first.raw, second.raw⟩,
          ({ state with registry }.withProcess i { process with handles }).withPair c pair)

def createPair : Except UserIpcError ChannelEndpoints × UserIpcState :=
  match state.processMut processId with
  | (.error error, state) => (.error error, state)
  | (.ok _, state) =>
    match Fin.find? fun c => (state.channels c).pair.isNone with
    | none => (.error .capacity, state)
    | some c =>
      match state.registry.create .channel with
      | .error error => (.error (.handle error), state)
      | .ok (channel, registry) =>
        match registry.create .channelEndpoint with
        | .error error => (.error (.handle error), { state with registry := registry.discard channel })
        | .ok (endpointA, registry) =>
          match registry.create .channelEndpoint with
          | .error error =>
            (.error (.handle error),
              { state with registry := (registry.discard endpointA).discard channel })
          | .ok (endpointB, registry) =>
            match ChannelPair.new channel endpointA endpointB with
            | .error error =>
              (.error (.channel error),
                { state with registry := releaseCreatedObjects registry channel endpointA endpointB })
            | .ok pair => state.installPair processId c pair registry

def addTransfers : OutgoingMessage → List ChannelHandleTransfer → Except UserIpcError OutgoingMessage
  | message, [] => .ok message
  | message, transfer :: rest =>
    if transfer.reserved ≠ 0 then .error .invalidRequest
    else match Rights.fromBits transfer.rights with
      | none => .error .invalidRequest
      | some rights =>
        match message.addTransfer ⟨transfer.handle⟩ rights with
        | .error error => .error (.channel error)
        | .ok message => addTransfers message rest

def outgoingMessage (request : ChannelSendRequest) : Except UserIpcError OutgoingMessage :=
  if request.payloadLen > maxInlinePayload ∨ request.transferCount > maxTransferHandles then
    .error .invalidRequest
  else
    let message := OutgoingMessage.new
      ⟨request.protocolId, request.version, request.requestId, request.opcode, request.flags⟩
    match message.setPayload (request.payload.slice request.payloadLen) with
    | .error error => .error (.channel error)
    | .ok message => addTransfers message ((List.ofFn request.transfers).take request.transferCount)

def send (state : UserIpcState) (processId : Nat) (endpoint : BitVec 64) (request : ChannelSendRequest) :
    Except UserIpcError (List Nat) × UserIpcState :=
  match state.processMut processId with
  | (.error error, state) => (.error error, state)
  | (.ok _, state) =>
    match outgoingMessage request with
    | .error error => (.error error, state)
    | .ok message =>
      match state.locateEndpoint processId ⟨endpoint⟩ with
      | .error error => (.error error, state)
      | .ok (c, senderEndpoint) =>
        let slot := state.channels c
        let peer := if slot.endpointA = some senderEndpoint then slot.endpointB else slot.endpointA
        if !peer.any state.endpointReachable then (.error .peerClosed, state)
        else match state.validatedProcess processId with
          | .error error => (.error error, state)
          | .ok (i, process) =>
            match slot.pair with
            | none => (.error .expectFailed, state)
            | some pair =>
              match pair.send state.registry process ⟨endpoint⟩ message state.waiters with
              | (.error error, pair, process, waiters) =>
                (.error (.channel error), ({ state with waiters }.withProcess i process).withPair c pair)
              | (.ok (), pair, process, waiters) =>
                let woken := waiters.takeWokenWaiters
                (.ok woken.1, ({ state with waiters := woken.2 }.withProcess i process).withPair c pair)

/-- `on_blocked` acts on the caller's own state. -/
def waitReadable {σ : Type} (state : UserIpcState) (processId : Nat) (endpoint : BitVec 64) (waiterId : Nat)
    (onBlocked : σ → Bool × σ) (caller : σ) :
    Except UserIpcError ChannelWaitOutcome × UserIpcState × σ :=
  match state.processMut processId with
  | (.error error, state) => (.error error, state, caller)
  | (.ok _, state) =>
    match state.locateEndpoint processId ⟨endpoint⟩ with
    | .error error => (.error error, state, caller)
    | .ok (c, _) =>
      match state.processRef processId with
      | .error error => (.error error, state, caller)
      | .ok (_, process) =>
        match (state.channels c).pair with
        | none => (.error .expectFailed, state, caller)
        | some pair =>
          match pair.waitItemForProcess state.registry process ⟨endpoint⟩ .readable with
          | .error error => (.error (.channel error), state, caller)
          | .ok item =>
            match wait state.waiters (.new waiterId) item with
            | (.ok _, waiters, _) => (.ok .readable, { state with waiters }, caller)
            | (.error .blocked, waiters, _) =>
              match onBlocked caller with
              | (true, caller) => (.ok .blocked, { state with waiters }, caller)
              | (false, caller) =>
                (.error (.wait .invalid), { state with waiters := waiters.cancelWaiter waiterId }, caller)
            | (.error error, waiters, _) => (.error (.wait error), { state with waiters }, caller)

def receiveResult (message : ReceivedMessage) : ChannelReceiveResult where
  senderProcessId := message.senderProcessId
  protocolId := message.header.protocolId
  version := message.header.version
  opcode := message.header.opcode
  flags := message.header.flags
  requestId := message.header.requestId
  payloadLen := (message.payload.slice message.payloadLen).length
  transferCount := message.handles.length
  payload := fun i => ((message.payload.slice message.payloadLen)[i.val]?).getD 0
  handles := fun i => (message.handles[i.val]?.map (·.raw)).getD 0

def tryReceive (endpoint : BitVec 64) : Except UserIpcError (Option ChannelReceiveResult) × UserIpcState :=
  match state.processMut processId with
  | (.error error, state) => (.error error, state)
  | (.ok _, state) =>
    match state.locateEndpoint processId ⟨endpoint⟩ with
    | .error error => (.error error, state)
    | .ok (c, _) =>
      match state.validatedProcess processId with
      | .error error => (.error error, state)
      | .ok (i, process) =>
        match (state.channels c).pair with
        | none => (.error .expectFailed, state)
        | some pair =>
          match pair.receive state.registry process ⟨endpoint⟩ with
          | (.error error, pair, process) =>
            (.error (.channel error), (state.withProcess i process).withPair c pair)
          | (.ok received, pair, process) =>
            (.ok (received.map receiveResult), (state.withProcess i process).withPair c pair)

def close (state : UserIpcState) (processId : Nat) (rawHandle : BitVec 64) :
    Except UserIpcError Unit × UserIpcState :=
  match state.processMut processId with
  | (.error error, state) => (.error error, state)
  | (.ok _, state) =>
    match state.locateEndpoint processId ⟨rawHandle⟩ with
    | .error error => (.error error, state)
    | .ok _ =>
      match state.validatedProcess processId with
      | .error error => (.error error, state)
      | .ok (i, process) =>
        match process.handles.close state.registry ⟨rawHandle⟩ with
        | .error error => (.error (.handle error), state)
        | .ok (handles, registry) =>
          ({ state with registry }.withProcess i { process with handles }).collectUnreachableChannels

def cancelWaiter (state : UserIpcState) (waiterId : Nat) : UserIpcState :=
  { state with waiters := state.waiters.cancelWaiter waiterId }

end UserIpcState
end Nagi.Kernel
