import Nagi.Kernel.Ipc.Wakeups

/-! Sending and receiving on a channel pair: `ChannelPair::send` and
`ChannelPair::receive` of `kernel/src/ipc.rs`. -/

namespace Nagi.Kernel

open Lib

namespace ChannelPair
variable {m n : Nat}

def peerOf (pair : ChannelPair) (endpoint : ObjectId) : ObjectId :=
  if endpoint = pair.endpointA then pair.endpointB else pair.endpointA

/-- The first loop of `send`: no source twice, and every source may be moved. -/
def checkTransfers (registry : ObjectRegistry m) (table : HandleTable n) :
    List HandleDisposition → List HandleDisposition → Except ChannelError Unit
  | _, [] => .ok ()
  | earlier, first :: rest =>
    if earlier.any (fun other => other.source = first.source) then .error .duplicateTransfer
    else match table.checkMove registry first.source first.rights with
      | .error error => .error (.ofHandle error)
      | .ok () => checkTransfers registry table (earlier ++ [first]) rest

def moveTransfers (registry : ObjectRegistry m) :
    HandleTable n → List HandleDisposition → Except ChannelError (List TransferToken) × HandleTable n
  | table, [] => (.ok [], table)
  | table, first :: rest =>
    match table.beginMove registry first.source first.rights with
    | .error error => (.error (.ofHandle error), table)
    | .ok (token, table) =>
      match moveTransfers registry table rest with
      | (.error error, table) => (.error error, table)
      | (.ok tokens, table) => (.ok (token :: tokens), table)

theorem moveTransfers_length {registry : ObjectRegistry m} {table next : HandleTable n}
    {transfers : List HandleDisposition} {tokens : List TransferToken}
    (moved : moveTransfers registry table transfers = (.ok tokens, next)) :
    tokens.length = transfers.length := by
  induction transfers generalizing table tokens with
  | nil => cases moved; rfl
  | cons first rest ih =>
    unfold moveTransfers at moved
    split at moved
    · cases moved
    split at moved
    · cases moved
    · next moved' => cases moved; simp [ih moved']

def send (pair : ChannelPair) (registry : ObjectRegistry m) (sender : Process n) (endpoint : Handle)
    (message : OutgoingMessage) (waiters : WaitRegistry) :
    Except ChannelError Unit × ChannelPair × Process n × WaitRegistry :=
  match sender.handles.require registry endpoint .channelEndpoint .write with
  | .error error => (.error (.ofHandle error), pair, sender, waiters)
  | .ok object =>
    match pair.queueForSender object with
    | .error error => (.error error, pair, sender, waiters)
    | .ok index =>
      if (pair.queues index).length = maxQueue then (.error .queueFull, pair, sender, waiters)
      else match checkTransfers registry sender.handles [] message.transfers with
        | .error error => (.error error, pair, sender, waiters)
        | .ok () =>
          match moved : moveTransfers registry sender.handles message.transfers with
          | (.error error, handles) => (.error error, pair, { sender with handles }, waiters)
          | (.ok tokens, handles) =>
            let queued : QueuedMessage := {
              senderProcessId := sender.id
              header := message.header
              payload := message.payload
              payloadLen := message.payloadLen
              tokens := tokens.map some
              payloadLen_le := message.payloadLen_le
              tokens_le := by
                rw [List.length_map, moveTransfers_length moved]
                exact message.transfers_le }
            match (pair.queues index).push queued with
            | none => (.error .queueFull, pair, { sender with handles }, waiters)
            | some queue => (.ok (), pair.withQueue index queue, { sender with handles },
                (waiters.notify (pair.peerOf object) .readable).2)

def rollbackReceive : Nat → List Handle → HandleTable n → Queue →
    Except ChannelError Unit × HandleTable n × Queue
  | _, [], table, queue => (.ok (), table, queue)
  | index, handle :: rest, table, queue =>
    match queue.peek.bind (·.tokens[index]?) with
    | none => (.error .objectStale, table, queue)
    | some (some _) => (.error .objectStale, table, queue)
    | some none =>
      match table.rollbackInstall handle with
      | none => (.error .objectStale, table, queue)
      | some (token, table) =>
        rollbackReceive (index + 1) rest table (queue.modifyHead (·.setToken index (some token)))

/-- Roll back and fail: an error of the rollback itself takes precedence. -/
def abortReceive {α : Type} (handles : List Handle) (table : HandleTable n) (queue : Queue)
    (error : ChannelError) : Except ChannelError α × HandleTable n × Queue :=
  match rollbackReceive 0 handles table queue with
  | (.error failure, table, queue) => (.error failure, table, queue)
  | (.ok (), table, queue) => (.error error, table, queue)

/-- The install loop of `receive`: `remaining` tokens from position `index` on. -/
def receiveTokens (registry : ObjectRegistry m) : Nat → Nat → List Handle → HandleTable n → Queue →
    Except ChannelError (List Handle) × HandleTable n × Queue
  | 0, _, handles, table, queue => (.ok handles, table, queue)
  | remaining + 1, index, handles, table, queue =>
    match (queue.peek.bind (·.tokens[index]?)).join with
    | none => abortReceive handles table queue .objectStale
    | some token =>
      match table.installToken registry (some token) with
      | .ok (handle, table) =>
        receiveTokens registry remaining (index + 1) (handles ++ [handle]) table
          (queue.modifyHead (·.setToken index none))
      | .error error => abortReceive handles table queue (.ofHandle error)

def receive (pair : ChannelPair) (registry : ObjectRegistry m) (receiver : Process n) (endpoint : Handle) :
    Except ChannelError (Option ReceivedMessage) × ChannelPair × Process n :=
  match receiver.handles.require registry endpoint .channelEndpoint .read with
  | .error error => (.error (.ofHandle error), pair, receiver)
  | .ok object =>
    match pair.queueForReceiver object with
    | .error error => (.error error, pair, receiver)
    | .ok index =>
      match (pair.queues index).peek with
      | none => (.ok none, pair, receiver)
      | some queued =>
        if !receiver.handles.hasCapacity queued.tokens.length then (.error .receiverFull, pair, receiver)
        else match queued.escrow.findSome? fun token =>
            match registry.validate token.capability.object token.capability.object.kind with
            | .error error => some error
            | .ok () => none with
          | some error => (.error (.ofHandle error), pair, receiver)
          | none =>
            match receiveTokens registry queued.tokens.length 0 [] receiver.handles (pair.queues index) with
            | (.error error, handles, queue) =>
              (.error error, pair.withQueue index queue, { receiver with handles })
            | (.ok received, handles, queue) =>
              match queue.pop with
              | none =>
                match abortReceive received handles queue .empty with
                | (failure, handles, queue) => (failure, pair.withQueue index queue, { receiver with handles })
              | some (_, queue) =>
                (.ok (some ⟨queued.senderProcessId, queued.header, queued.payload, queued.payloadLen, received⟩),
                  pair.withQueue index queue, { receiver with handles })

end ChannelPair
end Nagi.Kernel
