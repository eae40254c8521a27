import Nagi.Kernel.Handles.Accounting
import Nagi.Lib.Ring

/-! Messages, queues and channel pairs of `kernel/src/ipc.rs`.

A fixed array with a count of its used prefix is a list with a bound on its
length. The tokens of a queued message stay optional: receiving takes them out
of the queue one at a time before the message itself is dequeued. -/

namespace Nagi.Kernel

open Lib

abbrev maxQueue : Nat := 8
abbrev maxInlinePayload : Nat := 128
abbrev maxTransferHandles : Nat := 4

inductive ChannelError where
  | invalidEndpoint
  | stale
  | rightsMissing
  | queueFull
  | empty
  | messageTooLarge
  | tooManyTransfers
  | duplicateTransfer
  | receiverFull
  | objectStale
  deriving DecidableEq

def ChannelError.ofHandle : HandleError → ChannelError
  | .stale | .closed | .invalid => .stale
  | .wrongType => .invalidEndpoint
  | .rightsMissing => .rightsMissing
  | .tableFull | .receiverFull => .receiverFull
  | .generationExhausted | .objectTableFull | .objectReferenceOverflow => .objectStale

structure MessageHeader where
  protocolId : UInt16
  version : UInt16
  requestId : UInt64
  opcode : UInt16
  flags : UInt16
  deriving DecidableEq

abbrev Payload := Fin maxInlinePayload → UInt8

def Payload.slice (payload : Payload) (length : Nat) : List UInt8 := (List.ofFn payload).take length

structure HandleDisposition where
  source : Handle
  rights : Rights
  deriving DecidableEq

structure OutgoingMessage where
  header : MessageHeader
  payload : Payload
  payloadLen : Nat
  transfers : List HandleDisposition
  payloadLen_le : payloadLen ≤ maxInlinePayload
  transfers_le : transfers.length ≤ maxTransferHandles

namespace OutgoingMessage

def new (header : MessageHeader) : OutgoingMessage :=
  ⟨header, fun _ => 0, 0, [], Nat.zero_le _, Nat.zero_le _⟩

def setPayload (message : OutgoingMessage) (payload : List UInt8) : Except ChannelError OutgoingMessage :=
  if large : payload.length > maxInlinePayload then .error .messageTooLarge
  else .ok { message with
    payload := fun i => if h : i.val < payload.length then payload[i.val] else message.payload i
    payloadLen := payload.length
    payloadLen_le := Nat.le_of_not_gt large }

def addTransfer (message : OutgoingMessage) (source : Handle) (rights : Rights) :
    Except ChannelError OutgoingMessage :=
  if room : message.transfers.length < maxTransferHandles then
    .ok { message with
      transfers := message.transfers ++ [⟨source, rights⟩]
      transfers_le := by rw [List.length_append]; exact room }
  else .error .tooManyTransfers

end OutgoingMessage

structure ReceivedMessage where
  senderProcessId : Nat
  header : MessageHeader
  payload : Payload
  payloadLen : Nat
  handles : List Handle

structure QueuedMessage where
  senderProcessId : Nat
  header : MessageHeader
  payload : Payload
  payloadLen : Nat
  tokens : List (Option TransferToken)
  payloadLen_le : payloadLen ≤ maxInlinePayload
  tokens_le : tokens.length ≤ maxTransferHandles

namespace QueuedMessage

/-- `tokens[..token_count].iter().flatten()`. -/
def escrow (message : QueuedMessage) : List TransferToken := message.tokens.filterMap id

def objects (message : QueuedMessage) : List ObjectId := message.escrow.map (·.capability.object)

def setToken (message : QueuedMessage) (index : Nat) (token : Option TransferToken) : QueuedMessage :=
  { message with
    tokens := message.tokens.set index token
    tokens_le := by simpa using message.tokens_le }

end QueuedMessage

abbrev Queue := Ring QueuedMessage maxQueue

/-- Two endpoints and one queue for each direction. Queue 0 holds what endpoint
A has sent, queue 1 what endpoint B has sent. -/
structure ChannelPair where
  object : ObjectId
  endpointA : ObjectId
  endpointB : ObjectId
  queues : Fin 2 → Queue
  object_kind : object.kind = .channel
  endpointA_kind : endpointA.kind = .channelEndpoint
  endpointB_kind : endpointB.kind = .channelEndpoint
  distinct : endpointA ≠ endpointB

namespace ChannelPair

def new (object endpointA endpointB : ObjectId) : Except ChannelError ChannelPair :=
  if rejected : object.kind ≠ .channel ∨ endpointA.kind ≠ .channelEndpoint ∨
      endpointB.kind ≠ .channelEndpoint ∨ endpointA = endpointB then .error .invalidEndpoint
  else .ok {
    object := object
    endpointA := endpointA
    endpointB := endpointB
    queues := fun _ => .empty
    object_kind := by simp_all
    endpointA_kind := by simp_all
    endpointB_kind := by simp_all
    distinct := by simp_all }

variable (pair : ChannelPair)

def withQueue (index : Fin 2) (queue : Queue) : ChannelPair :=
  { pair with queues := Function.update pair.queues index queue }

def queueForSender (endpoint : ObjectId) : Except ChannelError (Fin 2) :=
  if endpoint = pair.endpointA then .ok 0
  else if endpoint = pair.endpointB then .ok 1
  else .error .invalidEndpoint

def queueForReceiver (endpoint : ObjectId) : Except ChannelError (Fin 2) :=
  if endpoint = pair.endpointA then .ok 1
  else if endpoint = pair.endpointB then .ok 0
  else .error .invalidEndpoint

def escrow (pair : ChannelPair) : List TransferToken :=
  (pair.queues 0).toList.flatMap (·.escrow) ++ (pair.queues 1).toList.flatMap (·.escrow)

/-- The objects `visit_escrow_objects` visits, in its order. -/
def escrowObjects : List ObjectId :=
  (List.finRange 2).flatMap fun i => (pair.queues i).scan.flatMap (·.objects)

def drain {m : Nat} (pair : ChannelPair) (registry : ObjectRegistry m) :
    Except ChannelError Unit × ChannelPair × ObjectRegistry m :=
  let first := (pair.queues 0).popAll maxQueue
  let second := (pair.queues 1).popAll maxQueue
  let drained := (pair.withQueue 0 first.2).withQueue 1 second.2
  let released := registry.releaseAll ((first.1 ++ second.1).flatMap (·.objects))
  match released.1 with
  | none => (.ok (), drained, released.2)
  | some error => (.error (.ofHandle error), drained, released.2)

end ChannelPair
end Nagi.Kernel
