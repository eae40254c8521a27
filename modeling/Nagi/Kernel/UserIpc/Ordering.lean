import Nagi.Kernel.UserIpc.Peers

/-! The messages of a channel over time.

A handle in a message stands for the capability that it names in the table of the
process that uses it. -/

namespace Nagi.Kernel

open Lib ChannelPair Runs Function HandleTable List

/-- A message, as the sender hands it over and as the receiver gets it. -/
structure Delivered where
  senderProcessId : Nat
  header : MessageHeader
  payload : List UInt8
  carried : List (Option Capability)

def QueuedMessage.delivered (entry : QueuedMessage) : Delivered :=
  ⟨entry.senderProcessId, entry.header, entry.payload.slice entry.payloadLen,
    entry.tokens.map (Option.map (·.capability))⟩

namespace UserIpcState

open HandleTable

variable (state : UserIpcState)

def capabilityOf (processId : Nat) (handle : Handle) : Option Capability :=
  match state.processRef processId with
  | .error _ => none
  | .ok (_, process) => (process.handles.entry state.registry handle).toOption

def posted (processId : Nat) (request : ChannelSendRequest) : Delivered :=
  ⟨processId, request.header, request.bytes, request.moved.map fun transfer =>
    (state.capabilityOf processId ⟨transfer.handle⟩).map fun capability => ⟨capability.object, ⟨transfer.rights⟩⟩⟩

def reported (processId : Nat) (result : ChannelReceiveResult) : Delivered :=
  ⟨result.senderProcessId, result.header, result.bytes, result.received.map (state.capabilityOf processId)⟩

abbrev CallEvent := Lib.Event UserIpcState Operation (Except UserIpcError Reply)

def history (operations : List Operation) : List CallEvent := Runs.trace step new operations

def sentBy (event : CallEvent) : Option (ObjectId × Delivered) :=
  match event.action, event.result with
  | .send processId handle request, .ok _ =>
    match event.before.locateEndpoint processId ⟨handle⟩ with
    | .error _ => none
    | .ok (_, endpoint) => some (endpoint, event.before.posted processId request)
  | _, _ => none

def receivedBy (event : CallEvent) : Option (ObjectId × Delivered) :=
  match event.action, event.result with
  | .tryReceive processId handle, .ok (.received (some result)) =>
    match event.before.locateEndpoint processId ⟨handle⟩ with
    | .error _ => none
    | .ok (_, endpoint) => some (endpoint, event.after.reported processId result)
  | _, _ => none

def onEndpoint (endpoint : ObjectId) (entry : ObjectId × Delivered) : Option Delivered :=
  if entry.1 = endpoint then some entry.2 else none

variable (past : List CallEvent)

def sentOn (endpoint : ObjectId) : List Delivered :=
  (past.filterMap sentBy).filterMap (onEndpoint endpoint)

def receivedOn (endpoint : ObjectId) : List Delivered :=
  (past.filterMap receivedBy).filterMap (onEndpoint endpoint)

/-- The messages sent on an endpoint that its peer has not received yet. -/
def Waiting (endpoint peer : ObjectId) (queue : List QueuedMessage) : Prop :=
  ∃ c pair index, (state.channels c).pair = some pair ∧ pair.queueForSender endpoint = .ok index ∧
    pair.peerOf endpoint = peer ∧ (pair.queues index).toList = queue

theorem append_onEndpoint (read : CallEvent → Option (ObjectId × Delivered)) (past : List CallEvent) (event : CallEvent)
    (endpoint : ObjectId) : ((past ++ [event]).filterMap read).filterMap (onEndpoint endpoint) =
      (past.filterMap read).filterMap (onEndpoint endpoint) ++ ((read event).bind (onEndpoint endpoint)).toList := by
  rw [filterMap_append, filterMap_append]
  cases here : read event with
  | none => simp [here]
  | some entry => cases same : onEndpoint endpoint entry <;> simp [here, same]

theorem sentOn_append (event : CallEvent) (endpoint : ObjectId) :
    sentOn (past ++ [event]) endpoint = sentOn past endpoint ++ ((sentBy event).bind (onEndpoint endpoint)).toList :=
  append_onEndpoint ..

theorem receivedOn_append (event : CallEvent) (endpoint : ObjectId) : receivedOn (past ++ [event]) endpoint =
      receivedOn past endpoint ++ ((receivedBy event).bind (onEndpoint endpoint)).toList :=
  append_onEndpoint ..

variable {before after : UserIpcState} {endpoint peer : ObjectId} {queue : List QueuedMessage}

theorem Linked.waiting (linked : before.Linked endpoint peer) : ∃ queue, Waiting before endpoint peer queue := by
  obtain ⟨c, pair, held, member, opposite⟩ := linked
  have sends : ∃ index, pair.queueForSender endpoint = .ok index := by
    simp only [endpoints, mem_cons, not_mem_nil, or_false] at member
    rcases member with same | same
    · exact ⟨0, queueForSender_eq_ok.mpr (.inl ⟨same, rfl⟩)⟩
    · exact ⟨1, queueForSender_eq_ok.mpr (.inr ⟨same, rfl⟩)⟩
  obtain ⟨index, sends⟩ := sends
  exact ⟨_, c, pair, index, held, sends, opposite, rfl⟩

theorem Waiting.short (waiting : Waiting before endpoint peer queue) : queue.length ≤ maxQueue := by
  obtain ⟨_, pair, index, _, _, _, rfl⟩ := waiting
  exact (pair.queues index).length_toList_le

theorem waiting_congr (channels : after.channels = before.channels) (waiting : Waiting after endpoint peer queue) :
    Waiting before endpoint peer queue := by
  simpa only [Waiting, channels] using waiting

theorem Collected.waiting (collected : Collected before after) (waiting : Waiting after endpoint peer queue) :
    Waiting before endpoint peer queue := by
  obtain ⟨c, pair, index, held, rest⟩ := waiting
  rw [collected.channels c] at held
  split at held
  · exact ⟨c, pair, index, held, rest⟩
  · cases held

section
variable {i : Fin maxUserProcesses} {c : Fin channelCapacity} {process process' : Process handleCapacity}
  {pair pair' : ChannelPair} {handle : Handle} {capability : Capability} {index : Fin 2}

theorem Created.waiting {middle handles : HandleTable handleCapacity} {k l : Fin handleCapacity}
    (created : Created before after i c process pair middle handles k l)
    (waiting : Waiting after endpoint peer queue) :
    Waiting before endpoint peer queue ∨ queue = [] ∧ before.Fresh endpoint ∧ before.Fresh peer := by
  obtain ⟨d, other, index, held, sends, opposite, contents⟩ := waiting
  rw [created.channels_eq] at held
  by_cases here : d = c
  · subst here
    rw [update_self] at held
    cases held
    refine .inr ⟨contents.symm.trans (created.empty index), created.fresh endpoint ?_, created.fresh peer ?_⟩
    · exact mem_cons_of_mem _ (sender_mem sends)
    · rw [← opposite]
      exact mem_cons_of_mem _ (pair.peer_mem endpoint)
  · rw [update_of_ne here] at held
    exact .inl ⟨d, other, index, held, sends, opposite, contents⟩

variable {tokens : List TransferToken}

theorem Waiting.requeued (ledger : Ledger before) (channel : (before.channels c).pair = some pair)
    (channels : after.channels = update before.channels c (.occupied pair'))
    (changed : pair' = pair.withQueue index (pair'.queues index)) (waiting : Waiting after endpoint peer queue) :
    (pair.queueForSender endpoint = .ok index ∧ pair.peerOf endpoint = peer) ∧
        Waiting before endpoint peer (pair.queues index).toList ∧ (pair'.queues index).toList = queue ∨
      (pair.queueForSender endpoint ≠ .ok index ∧ pair.queueForReceiver peer ≠ .ok index) ∧
        Waiting before endpoint peer queue := by
  obtain ⟨d, other, place, held, sends, opposite, contents⟩ := waiting
  rw [channels] at held
  by_cases here : d = c
  · subst here
    rw [update_self] at held
    cases held
    rw [changed] at sends opposite
    have sends : pair.queueForSender endpoint = .ok place := sends
    have opposite : pair.peerOf endpoint = peer := opposite
    by_cases same : place = index
    · subst same
      exact .inl ⟨⟨sends, opposite⟩, ⟨d, pair, place, channel, sends, opposite, rfl⟩, contents⟩
    · rw [changed, withQueue_of_ne _ _ same] at contents
      refine .inr ⟨?_, d, pair, place, channel, sends, opposite, contents⟩
      rw [← opposite, peer_receives sends, sends]
      simpa using same
  · rw [update_of_ne here] at held
    have elsewhere {object : ObjectId} (inside : object ∈ other.endpoints) (member : object ∈ pair.endpoints) :
        False := by
      rw [← ChannelSlot.endpoints_of_pair held] at inside
      rw [← ChannelSlot.endpoints_of_pair channel] at member
      exact here (ledger.endpoint_unique inside member)
    refine .inr ⟨⟨fun sends' => ?_, fun receives => ?_⟩, d, other, place, held, sends, opposite, contents⟩
    · exact elsewhere (sender_mem sends) (sender_mem sends')
    · exact elsewhere (opposite ▸ other.peer_mem endpoint) (receiver_mem receives)

theorem Sent.waiting {message : OutgoingMessage} {woken : List Nat}
    (sent : Sent before after i c process process' pair pair' handle message capability index tokens woken)
    (ledger : Ledger before) {entry : QueuedMessage}
    (grown : (pair'.queues index).toList = (pair.queues index).toList ++ [entry])
    (waiting : Waiting after endpoint peer queue) :
    endpoint = capability.object ∧ (∃ earlier, Waiting before endpoint peer earlier ∧ queue = earlier ++ [entry]) ∨
      endpoint ≠ capability.object ∧ Waiting before endpoint peer queue := by
  obtain ⟨_, queued, _⟩ := sent.sent
  obtain ⟨⟨sends, _⟩, earlier, rfl⟩ | ⟨⟨apart, _⟩, kept⟩ :=
    waiting.requeued ledger sent.channel sent.channels_eq queued.pair_eq
  · refine .inl ⟨?_, _, earlier, grown⟩
    obtain ⟨first, rfl⟩ | ⟨first, rfl⟩ := queueForSender_eq_ok.mp sends
    all_goals exact first.trans (by simpa [eq_comm] using queueForSender_eq_ok.mp queued.queue)
  · exact .inr ⟨fun same => apart (same ▸ queued.queue), kept⟩

variable {message : ReceivedMessage}

theorem Received.waiting {entry : QueuedMessage}
    (received : Received before after i c process process' pair pair' handle message capability index entry)
    (ledger : Ledger before) (waiting : Waiting after endpoint peer queue) :
    peer = capability.object ∧ Waiting before endpoint peer (entry :: queue) ∨
      peer ≠ capability.object ∧ Waiting before endpoint peer queue := by
  have taken := received.received
  obtain ⟨⟨sends, opposite⟩, earlier, rfl⟩ | ⟨⟨_, apart⟩, kept⟩ :=
    waiting.requeued ledger received.channel received.channels_eq taken.pair_eq
  · exact .inl ⟨opposite.symm.trans (receiver_is_peer sends taken.queue).symm, taken.dequeued ▸ earlier⟩
  · exact .inr ⟨fun same => apart (same ▸ taken.queue), kept⟩

variable {processId : Nat}

theorem Sent.posted {message : OutgoingMessage} {woken : List Nat} {request : ChannelSendRequest}
    (roster : Roster before) (found : before.processRef processId = .ok (i, process))
    (checked : outgoingMessage request = .ok message)
    (sent : Sent before after i c process process' pair pair' handle message capability index tokens woken) :
    ∃ entry : QueuedMessage, (pair'.queues index).toList = (pair.queues index).toList ++ [entry] ∧
      before.posted processId request = entry.delivered := by
  obtain ⟨_, queued, _⟩ := sent.sent
  obtain ⟨entry, grown, sender, header, payload, length, carried⟩ := queued.queued
  obtain ⟨header', bytes, moved⟩ := outgoingMessage_spec checked
  refine ⟨entry, grown, ?_⟩
  have each := queued.moves.tokens_for
  rw [moved, forall₂_map_left_iff] at each
  -- each transfer stands for the capability its handle names before the send
  have same : request.moved.map (fun transfer => (before.capabilityOf processId ⟨transfer.handle⟩).map
      fun capability => (⟨capability.object, ⟨transfer.rights⟩⟩ : Capability)) =
      tokens.map fun token => some token.capability := by
    apply Table.map_eq_of_forall₂ each
    intro transfer token made
    obtain ⟨held, named, _, _, rfl⟩ := made
    have named : process.handles.entry before.registry ⟨transfer.handle⟩ = .ok held := named
    simp only [capabilityOf, found, named, Except.toOption, Option.map_some]
    rfl
  rw [UserIpcState.posted, QueuedMessage.delivered, same, sender, roster.id_eq found, header, header', payload,
    length, bytes, carried, map_map]
  rfl

section
variable {entry : QueuedMessage} (found : before.processRef processId = .ok (i, process))
  (received : Received before after i c process process' pair pair' handle message capability index entry)
include found received

theorem Received.processRef : after.processRef processId = .ok (i, process') := by
  have changed := received.processes_eq
  have same : process'.id = process.id := by rw [received.received.process]
  apply processRef_eq_ok.mpr
  rw [processIndex_congr (ids_of_handles changed received.registered same), changed, update_self]
  exact ⟨(processRef_eq_ok.mp found).1, rfl⟩

theorem Received.named (ledger : Ledger after) :
    List.Forall₂ (fun token handle => before.capabilityOf processId handle = none ∧
      after.capabilityOf processId handle = some token.capability) entry.escrow message.handles := by
  apply (received.received.installs.named smallTable).imp
  intro token handle filled
  obtain ⟨k, named, free, held⟩ := filled
  have registered := (processRef_eq_ok.mp (received.processRef found)).2
  have live : 0 < after.registry.refs token.capability.object := by
    apply ledger.live_of_named
    apply named_of_mem
    exact mem_capabilities.mpr (.inl ⟨i, k, process', registered, held⟩)
  constructor
  · simp only [capabilityOf, found]
    cases read : process.handles.entry before.registry handle with
    | error _ => rfl
    | ok other =>
      obtain ⟨l, named', held', _⟩ := entry_eq_ok.mp read
      -- a handle has one slot, whatever the table
      obtain rfl : k = l := Fin.ext ((slot_eq_ok.mp named).1.symm.trans (slot_eq_ok.mp named').1)
      rw [free] at held'
      cases held'
  · simp only [capabilityOf, received.processRef found, entry_eq_ok.mpr ⟨k, named, held, live⟩]
    rfl

theorem Received.reported (ledger : Ledger before) (ledger' : Ledger after) :
    (receiveResult message).received = message.handles ∧
      after.reported processId (receiveResult message) = entry.delivered := by
  have taken := received.received
  have entire := entry.tokens_eq_of_full
    (ledger.full c pair received.channel index entry (taken.dequeued ▸ mem_cons_self))
  have few : message.handles.length ≤ maxTransferHandles := by
    have bound := entry.tokens_le
    rw [entire, length_map] at bound
    rw [taken.installs.length_eq]
    exact bound
  have handles := receiveResult_received few
  have carried : message.handles.map (after.capabilityOf processId) =
      entry.escrow.map fun token => some token.capability :=
    (Table.map_eq_of_forall₂ (received.named found ledger') fun _ _ same => same.2.symm).symm
  refine ⟨handles, ?_⟩
  rw [UserIpcState.reported, QueuedMessage.delivered, handles, carried, receiveResult_bytes, taken.payload,
    taken.payloadLen, entire, map_map]
  have header : (receiveResult message).header = message.header := rfl
  rw [header, taken.header]
  exact congrArg (fun sender => Delivered.mk sender _ _ _) taken.sender

end

end

/-- What one call does to the queues, with the message it accepts and the one it delivers. -/
inductive Traffic (before after : UserIpcState) :
    Option (ObjectId × Delivered) → Option (ObjectId × Delivered) → Prop where
  | quiet (queues : ∀ endpoint peer queue, Waiting after endpoint peer queue →
      Waiting before endpoint peer queue ∨ queue = [] ∧ before.Fresh endpoint ∧ before.Fresh peer) :
      Traffic before after none none
  | sent {sender : ObjectId} {entry : QueuedMessage} (live : 0 < before.registry.refs sender)
      (queues : ∀ endpoint peer queue, Waiting after endpoint peer queue →
        endpoint = sender ∧ (∃ earlier, Waiting before endpoint peer earlier ∧ queue = earlier ++ [entry]) ∨
          endpoint ≠ sender ∧ Waiting before endpoint peer queue) :
      Traffic before after (some (sender, entry.delivered)) none
  | received {receiver : ObjectId} {entry : QueuedMessage} (live : 0 < before.registry.refs receiver)
      (alive : 0 < after.registry.refs receiver)
      (queues : ∀ endpoint peer queue, Waiting after endpoint peer queue →
        peer = receiver ∧ Waiting before endpoint peer (entry :: queue) ∨
          peer ≠ receiver ∧ Waiting before endpoint peer queue) :
      Traffic before after none (some (receiver, entry.delivered))

theorem Traffic.of_channels (same : after.channels = before.channels) : Traffic before after none none :=
  .quiet fun _ _ _ waiting => .inl (waiting_congr same waiting)

theorem Traffic.of_collected {middle : UserIpcState} (same : middle.channels = before.channels)
    (collected : Collected middle after) : Traffic before after none none :=
  .quiet fun _ _ _ waiting => .inl (waiting_congr same (collected.waiting waiting))

variable {state : UserIpcState}

theorem step_traffic (invariant : Invariant state) (operation : Operation) :
    Traffic state (state.step operation).2 (sentBy (event step state operation))
      (receivedBy (event step state operation)) := by
  obtain ⟨ready, boots, outcome, _⟩ := step_outcome invariant operation
  have later := step_invariant state operation invariant
  have same := boots.channels_eq
  unfold event
  generalize (state.step operation).1 = result, (state.step operation).2 = after at outcome later ⊢
  cases outcome with
  | refused => cases operation <;> exact .of_channels same
  | peerClosed | nothing => exact .of_channels same
  | uncreated _ churned | unspawned churned => exact .of_channels (churned.channels.trans same)
  | created _ created =>
    apply Traffic.quiet
    intro endpoint peer queue waiting
    rcases created.waiting waiting with old | ⟨empty, fresh, fresh'⟩
    · exact .inl (waiting_congr same old)
    · exact .inr ⟨empty, fresh.back (Chain.evolves boots.chain), fresh'.back (Chain.evolves boots.chain)⟩
  | sent found checked sent =>
    obtain ⟨_, queued, _⟩ := sent.sent
    -- a process that holds the endpoint was registered before the call
    obtain rfl := boots.eq_of_entry invariant.roster sent.registered queued.found
    obtain ⟨entry, grown, posted⟩ := sent.posted invariant.roster found checked
    obtain ⟨_, _, _, live⟩ := entry_eq_ok.mp queued.found
    simp only [sentBy, receivedBy, sent.located invariant.ledger found, posted]
    exact .sent live fun _ _ _ => sent.waiting invariant.ledger grown
  | received found received =>
    have taken := received.received
    obtain rfl := boots.eq_of_entry invariant.roster received.registered taken.found
    obtain ⟨_, _, _, live⟩ := entry_eq_ok.mp taken.found
    have located := invariant.ledger.locateEndpoint_of_entry found taken.found received.channel
      (receiver_mem taken.queue)
    simp only [sentBy, receivedBy, located, (received.reported found invariant.ledger later.ledger).2]
    refine .received live ?_ fun _ _ _ => received.waiting invariant.ledger
    rw [received.after_eq]
    exact live
  | waited _ kept | cancelled kept | blocked kept => exact .of_channels (kept.unchanged.2.2.trans same)
  | spawned spawned => exact .of_channels (spawned.channels_eq.trans same)
  | closed _ _ _ _ kept collected | exited _ _ kept collected =>
    exact .of_collected (kept.channels_eq.trans same) collected

/-- Each queue holds what was sent and not yet received; endpoints that are yet
to be made have no messages. -/
structure InOrder (state : UserIpcState) (past : List CallEvent) : Prop where
  invariant : Invariant state
  queued : ∀ endpoint peer queue, Waiting state endpoint peer queue →
    sentOn past endpoint = receivedOn past peer ++ queue.map (·.delivered)
  unused : ∀ endpoint, state.Fresh endpoint → sentOn past endpoint = [] ∧ receivedOn past endpoint = []

theorem onEndpoint_self (message : Delivered) : onEndpoint endpoint (endpoint, message) = some message :=
  if_pos rfl

theorem onEndpoint_of_ne {other : ObjectId} (different : endpoint ≠ other) (message : Delivered) :
    onEndpoint endpoint (other, message) = none :=
  if_neg different.symm

theorem step_inOrder (state : UserIpcState) (past : List CallEvent) (operation : Operation)
    (holds : InOrder state past) :
    InOrder (state.step operation).2 (past ++ [event step state operation]) := by
  have evolves := Chain.evolves (step_chain holds.invariant operation)
  have traffic := step_traffic holds.invariant operation
  refine ⟨step_invariant state operation holds.invariant, fun endpoint peer queue waiting => ?_,
    fun endpoint fresh => ?_⟩
  · rw [sentOn_append, receivedOn_append]
    generalize sentBy _ = accepted, receivedBy _ = delivered at traffic ⊢
    cases traffic with
    | quiet queues =>
      simp only [Option.bind_none, Option.toList_none, append_nil]
      rcases queues endpoint peer queue waiting with old | ⟨rfl, fresh, fresh'⟩
      · exact holds.queued endpoint peer queue old
      · rw [(holds.unused endpoint fresh).1, (holds.unused peer fresh').2]
        rfl
    | sent _ queues =>
      simp only [Option.bind_none, Option.toList_none, append_nil, Option.bind_some]
      rcases queues endpoint peer queue waiting with ⟨rfl, earlier, old, rfl⟩ | ⟨different, old⟩
      · rw [onEndpoint_self, holds.queued endpoint peer earlier old, map_append, append_assoc]
        rfl
      · rw [onEndpoint_of_ne different, Option.toList_none, append_nil]
        exact holds.queued endpoint peer queue old
    | received _ _ queues =>
      simp only [Option.bind_none, Option.toList_none, append_nil, Option.bind_some]
      rcases queues endpoint peer queue waiting with ⟨rfl, old⟩ | ⟨different, old⟩
      · rw [onEndpoint_self, holds.queued endpoint peer _ old, append_assoc]
        rfl
      · rw [onEndpoint_of_ne different, Option.toList_none, append_nil]
        exact holds.queued endpoint peer queue old
  · have earlier := fresh.back evolves
    rw [sentOn_append, receivedOn_append, (holds.unused endpoint earlier).1, (holds.unused endpoint earlier).2]
    have other : ∀ {object : ObjectId}, 0 < state.registry.refs object → endpoint ≠ object := by
      rintro object live rfl
      exact absurd earlier.1 (Nat.ne_of_gt live)
    generalize sentBy _ = accepted, receivedBy _ = delivered at traffic ⊢
    cases traffic with
    | quiet => exact ⟨rfl, rfl⟩
    | sent live | received live => simp [onEndpoint_of_ne (other live)]

theorem inOrder_new : InOrder new [] where
  invariant := invariant_new
  queued := by
    intro endpoint peer queue waiting
    obtain ⟨_, _, _, held, _⟩ := waiting
    cases held
  unused _ _ := ⟨rfl, rfl⟩

theorem run_inOrder (operations : List Operation) : InOrder (run operations) (history operations) :=
  trace_invariant step_inOrder inOrder_new operations

theorem Linked.symm (linked : before.Linked endpoint peer) : before.Linked peer endpoint := by
  obtain ⟨c, pair, held, member, rfl⟩ := linked
  refine ⟨c, pair, held, pair.peer_mem endpoint, ?_⟩
  simp only [endpoints, mem_cons, not_mem_nil, or_false] at member
  unfold peerOf
  rcases member with rfl | rfl
  · rw [if_pos rfl, if_neg pair.distinct.symm]
  · rw [if_neg pair.distinct.symm, if_pos rfl]

/-- The two objects are or were the ends of one channel, and one has received
only what the other has sent. -/
structure Ahead (endpoint peer : ObjectId) (state : UserIpcState) (past : List CallEvent) : Prop where
  order : InOrder state past
  reader : LinkedOrSpent peer endpoint state
  sound : receivedOn past peer <+: sentOn past endpoint

theorem InOrder.sound {past : List CallEvent} (order : InOrder before past) (linked : before.Linked endpoint peer) :
    receivedOn past peer <+: sentOn past endpoint := by
  obtain ⟨queue, waiting⟩ := linked.waiting
  exact ⟨_, (order.queued endpoint peer queue waiting).symm⟩

theorem step_ahead (state : UserIpcState) (past : List CallEvent) (operation : Operation)
    (holds : Ahead endpoint peer state past) :
    Ahead endpoint peer (state.step operation).2 (past ++ [event step state operation]) := by
  have order := step_inOrder state past operation holds.order
  have reader := step_invariant_and (fun _ _ link => link.linkedOrSpent) state operation holds.order.invariant
    holds.reader
  refine ⟨order, reader, ?_⟩
  rcases reader with linked | spent
  · exact order.sound linked.symm
  · have silent : receivedOn (past ++ [event step state operation]) peer = receivedOn past peer := by
      have traffic := step_traffic holds.order.invariant operation
      rw [receivedOn_append]
      generalize sentBy _ = accepted, receivedBy _ = delivered at traffic ⊢
      cases traffic with
      | quiet | sent => exact append_nil _
      | received _ alive =>
        rw [Option.bind_some, onEndpoint_of_ne, Option.toList_none, append_nil]
        rintro rfl
        rw [spent.refs] at alive
        exact absurd alive (Nat.lt_irrefl 0)
    rw [silent, sentOn_append]
    exact holds.sound.trans (prefix_append _ _)

/-- What a successful call of the traffic leaves in the record. -/
structure Recorded (event : CallEvent) : Prop where
  sent : ∀ processId handle request reply, event.action = .send processId handle request →
    event.result = .ok reply → (sentBy event).isSome = true
  received : ∀ processId handle result, event.action = .tryReceive processId handle →
    event.result = .ok (.received (some result)) → (receivedBy event).isSome = true ∧
      result.received.Nodup ∧ ∀ handle ∈ result.received,
        event.before.capabilityOf processId handle = none ∧ (event.after.capabilityOf processId handle).isSome = true

theorem step_recorded (invariant : Invariant state) (operation : Operation) :
    Recorded (event step state operation) := by
  obtain ⟨ready, boots, outcome, _⟩ := step_outcome invariant operation
  have later := step_invariant state operation invariant
  unfold event
  generalize (state.step operation).1 = result, (state.step operation).2 = after at outcome later ⊢
  constructor
  · intro processId handle request reply call answer
    subst call answer
    cases outcome with
    | sent found _ sent =>
      obtain ⟨_, queued, _⟩ := sent.sent
      obtain rfl := boots.eq_of_entry invariant.roster sent.registered queued.found
      simp [sentBy, sent.located invariant.ledger found]
  · intro processId handle result call answer
    subst call answer
    cases outcome with
    | received found received =>
      have taken := received.received
      obtain rfl := boots.eq_of_entry invariant.roster received.registered taken.found
      have located := invariant.ledger.locateEndpoint_of_entry found taken.found received.channel
        (receiver_mem taken.queue)
      have named := received.named found later.ledger
      rw [(received.reported found invariant.ledger later.ledger).1]
      refine ⟨by simp [receivedBy, located], taken.installs.nodup smallTable, fun handle member => ?_⟩
      obtain ⟨_, _, unknown, known⟩ := Table.exists_of_forall₂ named.flip member
      exact ⟨unknown, by simp [known]⟩

/-- Messages are delivered in order, each once and as it was sent: what was
accepted on an endpoint is what was delivered on its peer followed by what is
queued, and of a channel that is gone a first part was delivered. -/
theorem messages_in_order (operations : List Operation) :
    (∀ endpoint peer queue, Waiting (run operations) endpoint peer queue →
      sentOn (history operations) endpoint = receivedOn (history operations) peer ++ queue.map (·.delivered) ∧
      queue.length ≤ maxQueue) ∧
    (∀ earlier later endpoint peer, operations = earlier ++ later → (run earlier).Linked endpoint peer →
      receivedOn (history operations) peer <+: sentOn (history operations) endpoint) ∧
    ∀ event ∈ history operations, Recorded event := by
  refine ⟨fun endpoint peer queue waiting => ?_, ?_, ?_⟩
  · exact ⟨(run_inOrder operations).queued endpoint peer queue waiting, waiting.short⟩
  · rintro earlier later endpoint peer rfl linked
    have order := run_inOrder earlier
    have ahead : Ahead endpoint peer (run earlier) (history earlier) := ⟨order, .inl linked.symm, order.sound linked⟩
    have whole := (trace_invariant_from step_ahead ahead later).sound
    rw [history, trace_append]
    exact whole
  · exact forall_event step_invariant (fun _ operation invariant => step_recorded invariant operation)
      invariant_new operations

end UserIpcState
end Nagi.Kernel
