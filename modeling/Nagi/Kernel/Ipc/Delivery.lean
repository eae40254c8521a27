import Nagi.Kernel.Ipc.Channel

/-! What a send and a receive do: the handles a send moves out of the sender's
table, the tokens it leaves in the queue, and the handles a receive installs. -/

namespace Nagi.Kernel

open Lib List

namespace HandleTable
variable {m n : Nat}

variable {before after : HandleTable n} {registry : ObjectRegistry m}

theorem entry_congr {handle : Handle} {i : Fin n} (named : before.slot handle = .ok i)
    (same : after.slots i = before.slots i) : after.entry registry handle = before.entry registry handle := by
  have named' : after.slot handle = .ok i := (slot_congr same).mpr named
  simp only [entry, named, named', same]

theorem Emptied.entry_back {i : Fin n} {capability held : Capability} {handle : Handle}
    (emptied : Emptied before after i capability) (found : after.entry registry handle = .ok held) :
    before.entry registry handle = .ok held := by
  obtain ⟨j, named, present, _⟩ := entry_eq_ok.mp found
  have other : j ≠ i := by
    rintro rfl
    rw [emptied.free] at present
    cases present
  have same := emptied.others j other
  rw [← entry_congr ((slot_congr same).mp named) same]
  exact found

inductive Moves (registry : ObjectRegistry m) :
    HandleTable n → List HandleDisposition → List TransferToken → HandleTable n → Prop where
  | nil (table : HandleTable n) : Moves registry table [] [] table
  | cons {table middle next : HandleTable n} {first : HandleDisposition} {rest : List HandleDisposition}
      {tokens : List TransferToken} {i : Fin n} {capability : Capability} :
      table.entry registry first.source = .ok capability → capability.rights.contains .transfer = true →
      capability.rights.contains first.rights = true → table.slot first.source = .ok i →
      Emptied table middle i capability → Moves registry middle rest tokens next →
      Moves registry table (first :: rest) (⟨⟨capability.object, first.rights⟩⟩ :: tokens) next

/-- The token a disposition leaves, read off the table before anything moved. -/
def TokenFor (registry : ObjectRegistry m) (table : HandleTable n) (disposition : HandleDisposition)
    (token : TransferToken) : Prop :=
  ∃ capability, table.entry registry disposition.source = .ok capability ∧
    capability.rights.contains .transfer = true ∧ capability.rights.contains disposition.rights = true ∧
    token = ⟨⟨capability.object, disposition.rights⟩⟩

namespace Moves
variable {table next : HandleTable n} {transfers : List HandleDisposition}
  {tokens : List TransferToken}

theorem count (moves : Moves registry table transfers tokens next) (object : ObjectId) :
    next.objects.count object + (tokens.map (·.capability.object)).count object =
      table.objects.count object := by
  induction moves with
  | nil => simp
  | cons _ _ _ _ emptied _ ih =>
    have removed := emptied.count object
    rw [map_cons, count_cons]
    simp only [beq_iff_eq, @eq_comm _ _ object] at ih ⊢
    omega

theorem tokens_for (moves : Moves registry table transfers tokens next) :
    List.Forall₂ (TokenFor registry table) transfers tokens := by
  induction moves with
  | nil => exact .nil
  | cons found transfer subset _ emptied _ ih =>
    refine .cons ⟨_, found, transfer, subset, rfl⟩ (ih.imp ?_)
    rintro disposition token ⟨held, present, rest⟩
    exact ⟨held, emptied.entry_back present, rest⟩

variable {disposition : HandleDisposition}

section
variable (moves : Moves registry table transfers tokens next)
include moves

theorem token_of_source (member : disposition ∈ transfers) :
    ∃ token ∈ tokens, TokenFor registry table disposition token :=
  Table.exists_of_forall₂ moves.tokens_for member

theorem source_of_token {token : TransferToken}
    (member : token ∈ tokens) : ∃ disposition ∈ transfers, TokenFor registry table disposition token :=
  Table.exists_of_forall₂ moves.tokens_for.flip member

theorem slots (i : Fin n) : next.slots i = table.slots i ∨
      (∃ disposition ∈ transfers, table.slot disposition.source = .ok i) ∧
        (table.slots i).capability.isSome = true ∧ (next.slots i).capability = none := by
  induction moves with
  | nil => exact .inl rfl
  | @cons table middle next first rest tokens j capability found _ _ named emptied _ ih =>
    by_cases here : i = j
    · subst here
      have free : (next.slots i).capability = none := by
        rcases ih with same | ⟨_, present, _⟩
        · rw [same]; exact emptied.free
        · rw [emptied.free] at present; cases present
      exact .inr ⟨⟨first, mem_cons_self, named⟩, by simp [emptied.held], free⟩
    · have same := emptied.others i here
      rcases ih with kept | ⟨⟨disposition, member, named'⟩, present, free⟩
      · exact .inl (kept.trans same)
      · exact .inr ⟨⟨disposition, mem_cons_of_mem _ member, (slot_congr same).mp named'⟩, same ▸ present, free⟩

theorem emptied (member : disposition ∈ transfers) {i : Fin n}
    (named : table.slot disposition.source = .ok i) : (next.slots i).capability = none := by
  induction moves with
  | nil => cases member
  | @cons table middle next first rest tokens j capability found _ _ first_named emptied tail ih =>
    by_cases here : i = j
    · subst here
      rcases tail.slots i with same | ⟨_, _, free⟩
      · rw [same]; exact emptied.free
      · exact free
    · have same := emptied.others i here
      rcases mem_cons.mp member with rfl | later
      · rw [first_named] at named
        cases named
        exact absurd rfl here
      · exact ih later ((slot_congr same).mpr named)

end

end Moves

inductive Installs : HandleTable n → List TransferToken → List Handle → HandleTable n → Prop where
  | nil (table : HandleTable n) : Installs table [] [] table
  | cons {table middle next : HandleTable n} {token : TransferToken} {tokens : List TransferToken}
      {handles : List Handle} {i : Fin n} :
      Filled table middle i token.capability → Installs middle tokens handles next →
      Installs table (token :: tokens) (.new i.val (table.slots i).generation :: handles) next

namespace Installs
variable {table next : HandleTable n} {tokens : List TransferToken} {handles : List Handle}

theorem count (installs : Installs table tokens handles next) (object : ObjectId) :
    next.objects.count object =
      table.objects.count object + (tokens.map (·.capability.object)).count object := by
  induction installs with
  | nil => simp
  | cons filled _ ih =>
    have added := filled.count object
    rw [ih, added, map_cons, count_cons]
    simp only [beq_iff_eq, @eq_comm _ _ object]
    omega

theorem slots (installs : Installs table tokens handles next) (i : Fin n) :
    next.slots i = table.slots i ∨
      (table.slots i).capability = none ∧
        ∃ token ∈ tokens, (next.slots i).capability = some token.capability := by
  induction installs with
  | nil => exact .inl rfl
  | @cons table middle next token tokens handles j filled _ ih =>
    by_cases here : i = j
    · subst here
      rcases ih with same | ⟨free, _⟩
      · exact .inr ⟨filled.free, token, mem_cons_self, by rw [same]; exact filled.held⟩
      · rw [filled.held] at free; cases free
    · have same := filled.others i here
      rcases ih with kept | ⟨free, other, member, held⟩
      · exact .inl (kept.trans same)
      · exact .inr ⟨same ▸ free, other, mem_cons_of_mem _ member, held⟩

/-- Each handle names, after all installs, the capability of its token, in a
slot that was free before. -/
theorem named (small : n ≤ 2 ^ 32) (installs : Installs table tokens handles next) :
    List.Forall₂ (fun token handle => ∃ i, next.slot handle = .ok i ∧
      (table.slots i).capability = none ∧
      (next.slots i).capability = some token.capability) tokens handles := by
  induction installs with
  | nil => exact .nil
  | @cons table middle next token tokens handles j filled tail ih =>
    have same : next.slots j = middle.slots j := by
      refine (tail.slots j).resolve_right fun both => ?_
      cases filled.held.symm.trans both.1
    refine .cons ⟨j, ?_, filled.free, by rw [same]; exact filled.held⟩ (ih.imp ?_)
    · rw [← filled.generation, ← same]
      exact slot_new_handle small next j
    · rintro other handle ⟨i, found, free, held⟩
      refine ⟨i, found, ?_, held⟩
      have elsewhere : i ≠ j := by
        rintro rfl
        rw [filled.held] at free
        cases free
      rw [← filled.others i elsewhere]
      exact free

theorem nodup (small : n ≤ 2 ^ 32) (installs : Installs table tokens handles next) : handles.Nodup := by
  induction installs with
  | nil => exact nodup_nil
  | @cons table middle next token tokens handles i filled rest ih =>
    refine nodup_cons.mpr ⟨fun again => ?_, ih⟩
    -- a later handle is for a slot that was free when this one had been filled
    obtain ⟨_, _, j, named, free, _⟩ := Table.exists_of_forall₂ (rest.named small).flip again
    have here := (slot_eq_ok.mp (slot_new_handle small table i)).1
    obtain rfl : i = j := Fin.ext (here.symm.trans (slot_eq_ok.mp named).1)
    rw [filled.held] at free
    cases free

theorem length_eq (installs : Installs table tokens handles next) : handles.length = tokens.length := by
  induction installs with
  | nil => rfl
  | cons _ _ ih => simp [ih]

end Installs
end HandleTable

theorem QueuedMessage.tokens_eq_of_full (message : QueuedMessage)
    (full : ∀ token ∈ message.tokens, token.isSome = true) : message.tokens = message.escrow.map some := by
  unfold escrow
  generalize message.tokens = tokens at full ⊢
  induction tokens with
  | nil => rfl
  | cons first rest ih =>
    obtain ⟨token, rfl⟩ := Option.isSome_iff_exists.mp (full first mem_cons_self)
    simpa using ih fun token member => full token (mem_cons_of_mem _ member)

namespace ChannelPair
open HandleTable
variable {m n : Nat}

theorem withQueue_self (pair : ChannelPair) (index : Fin 2) (queue : Queue) :
    (pair.withQueue index queue).queues index = queue := by
  simp [withQueue]

variable {index : Fin 2}

theorem withQueue_of_ne (pair : ChannelPair) {other : Fin 2} (queue : Queue) (different : other ≠ index) :
    (pair.withQueue index queue).queues other = pair.queues other := by
  simp [withQueue, different]

variable {pair : ChannelPair} {endpoint : ObjectId}

theorem queueForSender_eq_ok : pair.queueForSender endpoint = .ok index ↔
      endpoint = pair.endpointA ∧ index = 0 ∨ endpoint = pair.endpointB ∧ index = 1 := by
  unfold queueForSender
  have apart := pair.distinct
  split_ifs <;> simp_all [eq_comm]

theorem queueForReceiver_eq_ok : pair.queueForReceiver endpoint = .ok index ↔
      endpoint = pair.endpointA ∧ index = 1 ∨ endpoint = pair.endpointB ∧ index = 0 := by
  unfold queueForReceiver
  have apart := pair.distinct
  split_ifs <;> simp_all [eq_comm]

theorem receiver_is_peer {sender receiver : ObjectId} (sends : pair.queueForSender sender = .ok index)
    (receives : pair.queueForReceiver receiver = .ok index) : receiver = pair.peerOf sender := by
  unfold peerOf
  rcases queueForSender_eq_ok.mp sends with ⟨rfl, rfl⟩ | ⟨rfl, rfl⟩
  · rw [if_pos rfl]
    rcases queueForReceiver_eq_ok.mp receives with ⟨_, other⟩ | ⟨same, _⟩
    · cases other
    · exact same
  · rw [if_neg pair.distinct.symm]
    rcases queueForReceiver_eq_ok.mp receives with ⟨same, _⟩ | ⟨_, other⟩
    · exact same
    · cases other

theorem peer_receives (sends : pair.queueForSender endpoint = .ok index) :
    pair.queueForReceiver (pair.peerOf endpoint) = .ok index := by
  rw [queueForReceiver_eq_ok]
  rcases queueForSender_eq_ok.mp sends with ⟨rfl, rfl⟩ | ⟨rfl, rfl⟩
  · exact .inr ⟨if_pos rfl, rfl⟩
  · exact .inl ⟨if_neg pair.distinct.symm, rfl⟩

variable {registry : ObjectRegistry m} {table : HandleTable n} {transfers : List HandleDisposition}

theorem checkTransfers_ok {earlier : List HandleDisposition}
    (apart : earlier.Pairwise fun first later => first.source ≠ later.source)
    (checked : checkTransfers registry table earlier transfers = .ok ()) :
    ((earlier ++ transfers).Pairwise fun first later => first.source ≠ later.source) ∧
      ∀ disposition ∈ transfers, table.checkMove registry disposition.source disposition.rights = .ok () := by
  induction transfers generalizing earlier with
  | nil => simpa using apart
  | cons first rest ih =>
    unfold checkTransfers at checked
    split at checked
    · cases checked
    next fresh =>
    split at checked
    · cases checked
    next movable =>
    have apart' := pairwise_append.mpr ⟨apart, pairwise_singleton _ first, by simpa using fresh⟩
    obtain ⟨distinct, moves⟩ := ih apart' checked
    rw [append_assoc] at distinct
    exact ⟨distinct, forall_mem_cons.mpr ⟨movable, moves⟩⟩

theorem checkMove_of_emptied {middle : HandleTable n} {i : Fin n} {capability : Capability} {first other : Handle}
    {requested : Rights} (emptied : Emptied table middle i capability) (named : table.slot first = .ok i)
    (different : first ≠ other) (checked : table.checkMove registry other requested = .ok ()) :
    middle.checkMove registry other requested = .ok () := by
  obtain ⟨held, found, allowed⟩ := checkMove_eq_ok.mp checked
  obtain ⟨j, otherNamed, _⟩ := entry_eq_ok.mp found
  have elsewhere : j ≠ i := by
    rintro rfl
    exact different (slot_inj named otherNamed)
  exact checkMove_eq_ok.mpr ⟨held, (entry_congr otherNamed (emptied.others j elsewhere)).trans found, allowed⟩

theorem moveTransfers_of_check
    (checked : ∀ disposition ∈ transfers, table.checkMove registry disposition.source disposition.rights = .ok ())
    (distinct : transfers.Pairwise fun first later => first.source ≠ later.source) :
    ∃ tokens next, moveTransfers registry table transfers = (.ok tokens, next) ∧
      Moves registry table transfers tokens next := by
  induction transfers generalizing table with
  | nil => exact ⟨[], table, rfl, .nil table⟩
  | cons first rest ih =>
    obtain ⟨apart, distinct⟩ := pairwise_cons.mp distinct
    obtain ⟨held, found', transfer, subset⟩ := checkMove_eq_ok.mp (checked first mem_cons_self)
    obtain ⟨i, capability, middle, moved, found, named, emptied⟩ :=
      beginMove_of_check (checked first mem_cons_self)
    rw [found] at found'
    cases found'
    obtain ⟨tokens, next, rest_moved, moves⟩ := ih (fun disposition member =>
      checkMove_of_emptied emptied named (apart disposition member)
        (checked disposition (mem_cons_of_mem _ member))) distinct
    exact ⟨_ :: tokens, next, by simp only [moveTransfers, moved, rest_moved],
      .cons found transfer subset named emptied moves⟩

/-- A successful send: what was checked, what moved and what was queued. -/
structure Sent (registry : ObjectRegistry m) (pair : ChannelPair) (sender : Process n) (endpoint : Handle)
    (message : OutgoingMessage) (waiters : WaitRegistry) (pair' : ChannelPair) (sender' : Process n)
    (waiters' : WaitRegistry) (capability : Capability) (index : Fin 2) (tokens : List TransferToken) : Prop where
  found : sender.handles.entry registry endpoint = .ok capability
  kind : capability.object.kind = .channelEndpoint
  writable : capability.rights.contains .write = true
  queue : pair.queueForSender capability.object = .ok index
  room : (pair.queues index).length ≠ maxQueue
  checked : checkTransfers registry sender.handles [] message.transfers = .ok ()
  moves : Moves registry sender.handles message.transfers tokens sender'.handles
  process : sender' = { sender with handles := sender'.handles }
  pair_eq : pair' = pair.withQueue index (pair'.queues index)
  queued : ∃ entry : QueuedMessage, (pair'.queues index).toList = (pair.queues index).toList ++ [entry] ∧
    entry.senderProcessId = sender.id ∧ entry.header = message.header ∧ entry.payload = message.payload ∧
    entry.payloadLen = message.payloadLen ∧ entry.tokens = tokens.map some
  notified : waiters' = (waiters.notify (pair.peerOf capability.object) .readable).2

/-- A send succeeds as `Sent` says or changes nothing. -/
theorem send_spec (pair : ChannelPair) (registry : ObjectRegistry m) (sender : Process n) (endpoint : Handle)
    (message : OutgoingMessage) (waiters : WaitRegistry) :
    (∃ error, pair.send registry sender endpoint message waiters = (.error error, pair, sender, waiters)) ∨
      ∃ pair' sender' waiters' capability index tokens,
        pair.send registry sender endpoint message waiters = (.ok (), pair', sender', waiters') ∧
        Sent registry pair sender endpoint message waiters pair' sender' waiters' capability index tokens := by
  fun_cases pair.send registry sender endpoint message waiters with
  | case5 object required index located room checked error handles failed =>
    obtain ⟨distinct, movable⟩ := checkTransfers_ok .nil checked
    obtain ⟨tokens, handles, moved, moves⟩ := moveTransfers_of_check movable distinct
    rw [moved] at failed
    cases failed
  | case6 object required index located room checked tokens handles moved queued full =>
    exact absurd (Ring.push_eq_none.mp full) room
  | case7 object required index located room checked tokens handles moved queued queue pushed =>
    obtain ⟨capability, found, rfl, kind, writable⟩ := require_eq_ok.mp required
    obtain ⟨distinct, movable⟩ := checkTransfers_ok .nil checked
    obtain ⟨_, _, moved', moves⟩ := moveTransfers_of_check movable distinct
    rw [moved] at moved'
    cases moved'
    refine .inr ⟨_, _, _, capability, index, tokens, rfl, found, kind, writable, located, room, checked, moves, rfl, ?_,
      ?_, rfl⟩
    · simp [withQueue]
    · rw [withQueue_self]
      exact ⟨_, Ring.toList_push pushed, rfl, rfl, rfl, rfl, rfl⟩
  | _ => exact .inl ⟨_, rfl⟩

theorem send_ok {sender : Process n} {endpoint : Handle} {message : OutgoingMessage} {object : ObjectId}
    (required : sender.handles.require registry endpoint .channelEndpoint .write = .ok object)
    (located : pair.queueForSender object = .ok index) (room : (pair.queues index).length ≠ maxQueue)
    (checked : checkTransfers registry sender.handles [] message.transfers = .ok ()) (waiters : WaitRegistry) :
    (pair.send registry sender endpoint message waiters).1 = .ok () := by
  obtain ⟨distinct, movable⟩ := checkTransfers_ok .nil checked
  obtain ⟨tokens, handles, moved, _⟩ := moveTransfers_of_check movable distinct
  simp only [send, required, located, if_neg room, checked]
  split
  · next failed => rw [moved] at failed; cases failed
  split
  · next full => exact absurd (Ring.push_eq_none.mp full) room
  · rfl

theorem receiveTokens_ok (tokens : List TransferToken) (index : Nat) (handles : List Handle) (table : HandleTable n)
    (queue : Queue) {message : QueuedMessage} {rest : List QueuedMessage} (contents : queue.toList = message :: rest)
    (ahead : message.tokens.drop index = tokens.map some) (capacity : table.hasCapacity tokens.length = true)
    (live : ∀ token ∈ tokens, 0 < registry.refs token.capability.object) : ∃ received next queue' message',
      receiveTokens registry tokens.length index handles table queue = (.ok (handles ++ received), next, queue') ∧
      queue'.toList = message' :: rest ∧ Installs table tokens received next := by
  induction tokens generalizing index handles table queue message with
  | nil => exact ⟨[], table, queue, message, by simp [receiveTokens], contents, .nil table⟩
  | cons token tokens ih =>
    have here : message.tokens[index]? = some (some token) := by
      have first := congrArg head? ahead
      rwa [head?_drop] at first
    have read : (queue.peek.bind (·.tokens[index]?)).join = some token := by
      rw [Ring.peek_eq, contents]
      simp [here]
    have valid := ObjectRegistry.validate_iff.mpr (live token mem_cons_self)
    obtain ⟨handle, middle, installed, capacity'⟩ :=
      installCapability_ok capacity token.capability.object token.capability.rights
    obtain ⟨i, filled, rfl⟩ := installCapability_spec installed
    have behind : (message.setToken index none).tokens.drop (index + 1) = tokens.map some := by
      have later := congrArg tail ahead
      rw [tail_drop] at later
      rw [QueuedMessage.setToken, drop_set_of_lt (Nat.lt_succ_self index)]
      exact later
    obtain ⟨received, next, queue', message', rest_received, contents', installs⟩ :=
      ih (index + 1) (handles ++ [.new i.val (table.slots i).generation]) middle
        (queue.modifyHead (·.setToken index none)) (by rw [Ring.toList_modifyHead, contents]; rfl) behind
        capacity' (fun token member => live token (mem_cons_of_mem _ member))
    refine ⟨.new i.val (table.slots i).generation :: received, next, queue', message', ?_, contents',
      .cons filled installs⟩
    rw [length_cons, receiveTokens, read]
    simp only [installToken, valid, installed]
    rw [rest_received, append_assoc]
    rfl

/-- A successful receive of the head message of a queue. -/
structure Received (registry : ObjectRegistry m) (pair : ChannelPair) (receiver : Process n) (endpoint : Handle)
    (message : ReceivedMessage) (pair' : ChannelPair) (receiver' : Process n) (capability : Capability)
    (index : Fin 2) (entry : QueuedMessage) : Prop where
  found : receiver.handles.entry registry endpoint = .ok capability
  readable : capability.rights.contains .read = true
  queue : pair.queueForReceiver capability.object = .ok index
  dequeued : (pair.queues index).toList = entry :: (pair'.queues index).toList
  installs : Installs receiver.handles entry.escrow message.handles receiver'.handles
  process : receiver' = { receiver with handles := receiver'.handles }
  pair_eq : pair' = pair.withQueue index (pair'.queues index)
  sender : message.senderProcessId = entry.senderProcessId
  header : message.header = entry.header
  payload : message.payload = entry.payload
  payloadLen : message.payloadLen = entry.payloadLen

/-- No queued token has been taken out of its message. -/
def Full (pair : ChannelPair) : Prop :=
  ∀ index, ∀ entry ∈ (pair.queues index).toList, ∀ token ∈ entry.tokens, token.isSome = true

theorem receive_ok {receiver : Process n} {endpoint : Handle} {object : ObjectId} {entry : QueuedMessage}
    {rest : List QueuedMessage}
    (required : receiver.handles.require registry endpoint .channelEndpoint .read = .ok object)
    (located : pair.queueForReceiver object = .ok index) (contents : (pair.queues index).toList = entry :: rest)
    (full : ∀ token ∈ entry.tokens, token.isSome = true)
    (capacity : receiver.handles.hasCapacity entry.tokens.length = true)
    (live : ∀ token ∈ entry.escrow, 0 < registry.refs token.capability.object) :
    ∃ received handles queue, pair.receive registry receiver endpoint =
        (.ok (some ⟨entry.senderProcessId, entry.header, entry.payload, entry.payloadLen, received⟩),
          pair.withQueue index queue, { receiver with handles }) ∧
      queue.toList = rest ∧ Installs receiver.handles entry.escrow received handles := by
  have entire := entry.tokens_eq_of_full full
  have count : entry.tokens.length = entry.escrow.length := by
    rw [entire, length_map]
  have peeked : (pair.queues index).peek = some entry := by
    rw [Ring.peek_eq, contents]
    rfl
  obtain ⟨received, handles, queue, entry', loop, contents', installs⟩ :=
    receiveTokens_ok entry.escrow 0 [] receiver.handles (pair.queues index) contents
      (by rw [drop_zero]; exact entire) (count ▸ capacity) live
  obtain ⟨queue', popped, remaining⟩ := Ring.exists_pop contents'
  refine ⟨received, handles, queue', ?_, remaining, installs⟩
  simp only [receive, required, located, peeked, capacity, Bool.not_true, Bool.false_eq_true, if_false]
  split
  · next found =>
    obtain ⟨token, member, failed⟩ := exists_of_findSome?_eq_some found
    rw [ObjectRegistry.validate_iff.mpr (live token member)] at failed
    cases failed
  · rw [count, loop]
    simp only [popped, nil_append]

/-- With every queued token still in place, a receive delivers the head message
or changes nothing; it finds no message only when there is none. -/
theorem receive_spec (pair : ChannelPair) (registry : ObjectRegistry m) (receiver : Process n)
    (endpoint : Handle) (full : pair.Full) :
    (∃ error, pair.receive registry receiver endpoint = (.error error, pair, receiver)) ∨
      pair.receive registry receiver endpoint = (.ok none, pair, receiver) ∨
      ∃ message pair' receiver' capability index entry,
        pair.receive registry receiver endpoint = (.ok (some message), pair', receiver') ∧
        Received registry pair receiver endpoint message pair' receiver' capability index entry := by
  cases required : receiver.handles.require registry endpoint .channelEndpoint .read with
  | error error => exact .inl ⟨.ofHandle error, by simp only [receive, required]⟩
  | ok object =>
    obtain ⟨capability, found, rfl, _, readable⟩ := require_eq_ok.mp required
    cases located : pair.queueForReceiver capability.object with
    | error error => exact .inl ⟨error, by simp only [receive, required, located]⟩
    | ok index =>
      cases peeked : (pair.queues index).peek with
      | none => exact .inr (.inl (by simp only [receive, required, located, peeked]))
      | some entry =>
        have contents := Ring.toList_cons_of_peek peeked
        cases capacity : receiver.handles.hasCapacity entry.tokens.length with
        | false =>
          refine .inl ⟨.receiverFull, ?_⟩
          simp only [receive, required, located, peeked, capacity, Bool.not_false, if_true]
        | true =>
          by_cases live : ∀ token ∈ entry.escrow, 0 < registry.refs token.capability.object
          · obtain ⟨received, handles, queue, done, remaining, installs⟩ := receive_ok required located contents
              (full index entry (contents ▸ mem_cons_self)) capacity live
            refine .inr (.inr ⟨_, _, _, capability, index, entry, done, found, readable, located, ?_, installs, rfl,
              ?_, rfl, rfl, rfl, rfl⟩)
            · rw [withQueue_self, remaining]
              exact contents
            · simp [withQueue]
          · simp only [receive, required, located, peeked, capacity, Bool.not_true, Bool.false_eq_true, if_false]
            split
            · exact .inl ⟨_, rfl⟩
            next validated =>
            refine absurd (fun token member => ?_) live
            have passed := findSome?_eq_none_iff.mp validated token member
            split at passed
            · cases passed
            · next valid => exact ObjectRegistry.validate_iff.mp valid

end ChannelPair
end Nagi.Kernel
