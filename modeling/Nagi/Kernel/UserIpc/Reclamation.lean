import Nagi.Kernel.UserIpc.Holdings
import Nagi.Kernel.UserIpc.Machine
import Nagi.Kernel.UserIpc.Requests

/-! Which channels are reclaimed, and which are left behind. -/

namespace Nagi.Kernel.UserIpcState

open Lib HandleTable Function ChannelSlot List

variable {before after : UserIpcState}

def GivesUp (state : UserIpcState) : Operation → Fin maxUserProcesses → Fin handleCapacity → Prop
  | .send processId _ request, i, k => ∃ process, state.processRef processId = .ok (i, process) ∧
      ∃ transfer ∈ request.moved, process.handles.slot ⟨transfer.handle⟩ = .ok k
  | .close processId rawHandle, i, k => ∃ process, state.processRef processId = .ok (i, process) ∧
      process.handles.slot ⟨rawHandle⟩ = .ok k
  | .exitProcess processId, i, _ => ∃ process, state.processRef processId = .ok (i, process)
  | _, _, _ => False

def HeldWithout (state : UserIpcState) (gone : Fin maxUserProcesses → Fin handleCapacity → Prop)
    (c : Fin channelCapacity) : Prop :=
  ∃ i k capability, state.Holds i k capability ∧ ¬gone i k ∧ capability.object ∈ (state.channels c).endpoints

def ReachableWithout (state : UserIpcState) (gone : Fin maxUserProcesses → Fin handleCapacity → Prop) :
    Fin channelCapacity → Prop :=
  Reach (state.HeldWithout gone) state.Escrows

variable {state : UserIpcState} {c : Fin channelCapacity}

theorem held_iff : state.Held c ↔ ∃ i k capability, state.Holds i k capability ∧
      capability.object ∈ (state.channels c).endpoints := by
  constructor
  · rintro ⟨i, process, registered, object, member, endpoint⟩
    obtain ⟨k, capability, held, rfl⟩ := mem_objects.mp member
    exact ⟨i, k, capability, ⟨process, registered, held⟩, endpoint⟩
  · rintro ⟨i, k, capability, ⟨process, registered, held⟩, endpoint⟩
    exact ⟨i, process, registered, capability.object, mem_objects.mpr ⟨k, capability, held, rfl⟩, endpoint⟩

theorem escrows_iff {d : Fin channelCapacity} :
    state.Escrows c d ↔ ∃ object ∈ slotEscrow (state.channels c), object ∈ (state.channels d).endpoints := by
  unfold Escrows slotEscrow
  cases (state.channels c).pair <;> simp

theorem escrows_congr (channels : after.channels = before.channels) : after.Escrows = before.Escrows := by
  funext c d
  simp only [Escrows, channels]

variable {i : Fin maxUserProcesses} {process process' : Process handleCapacity} {pair pair' : ChannelPair}
  {message : OutgoingMessage} {capability : Capability} {index : Fin 2} {tokens : List TransferToken} {woken : List Nat}

section
variable {endpoint : Handle}
variable (sent : Sent before after i c process process' pair pair' endpoint message capability index tokens woken)
include sent

theorem Sent.endpoints_eq
    (d : Fin channelCapacity) : (after.channels d).endpoints = (before.channels d).endpoints := by
  obtain ⟨_, queued, _⟩ := sent.sent
  rw [sent.channels_eq]
  by_cases here : d = c
  · subst here
    rw [update_self, endpoints_of_pair sent.channel]
    exact congrArg tail queued.identities
  · rw [update_of_ne here]

theorem Sent.escrowed {l : Fin handleCapacity} {held : Capability} (holds : before.Holds i l held)
    (moved : ∃ disposition ∈ message.transfers, process.handles.slot disposition.source = .ok l) :
    held.object ∈ slotEscrow (after.channels c) := by
  obtain ⟨_, queued, _⟩ := sent.sent
  obtain ⟨disposition, member, named⟩ := moved
  rw [holds_of_registered sent.registered] at holds
  obtain ⟨token, present, other, entry, _, _, rfl⟩ := queued.moves.token_of_source member
  obtain ⟨l', named', held', _⟩ := entry_eq_ok.mp entry
  rw [named] at named'
  cases named'
  have same := holds.symm.trans held'
  cases same
  rw [sent.channels_eq, update_self, slotEscrow_occupied, ← count_pos_iff, queued.count]
  have counted : 0 < (tokens.map (·.capability.object)).count held.object :=
    count_pos_iff.mpr (mem_map.mpr ⟨_, present, rfl⟩)
  omega

theorem Sent.escrows {d e : Fin channelCapacity} (escrows : before.Escrows d e) : after.Escrows d e := by
  obtain ⟨_, queued, _⟩ := sent.sent
  obtain ⟨object, member, place⟩ := escrows_iff.mp escrows
  refine escrows_iff.mpr ⟨object, ?_, ?_⟩
  · by_cases here : d = c
    · subst here
      rw [slotEscrow_of_pair sent.channel] at member
      rw [sent.channels_eq, update_self, slotEscrow_occupied, ← count_pos_iff, queued.count]
      have := count_pos_iff.mpr member
      omega
    · rw [sent.channels_eq, update_of_ne here]
      exact member
  · rw [sent.endpoints_eq]
    exact place

end

def AllReachable (state : UserIpcState) : Prop :=
  ∀ c, (state.channels c).pair.isSome = true → state.Reachable c

theorem held_iff_count : state.Held c ↔ ∃ object ∈ (state.channels c).endpoints, 0 < state.handleCount object := by
  simp only [Held, handleCount_pos]
  constructor
  · rintro ⟨i, process, registered, object, member, endpoint⟩
    exact ⟨object, endpoint, i, process, registered, member⟩
  · rintro ⟨object, endpoint, i, process, registered, member⟩
    exact ⟨i, process, registered, object, member, endpoint⟩

theorem AllReachable.of_kept (all : AllReachable before)
    (occupied : ∀ c, (after.channels c).pair.isSome = true →
      (before.channels c).pair.isSome = true ∨ after.Held c)
    (held : ∀ c, before.Held c → after.Reachable c)
    (escrows : ∀ c d, before.Escrows c d → after.Reachable c → after.Reachable d) : AllReachable after := by
  intro c present
  rcases occupied c present with earlier | root
  · exact (all c earlier).mono held fun d e reached edge => escrows d e edge reached
  · exact .root root

theorem AllReachable.of_counts (all : AllReachable before) (channels : after.channels = before.channels)
    (named : ∀ object, after.namedCount object = before.namedCount object) : AllReachable after := by
  have handles : ∀ object, after.handleCount object = before.handleCount object := by
    intro object
    have counted := named object
    simp only [namedCount, tokenCount, channels] at counted
    exact Nat.add_right_cancel counted
  refine all.of_kept (fun c present => .inl (by rw [← channels]; exact present)) (fun c root => .root ?_)
    (fun c d edge reached => .step reached ?_)
  · rw [held_iff_count] at root ⊢
    simpa only [channels, handles] using root
  · rwa [escrows_congr channels]

theorem AllReachable.of_unchanged (all : AllReachable before)
    (unchanged : after.registry = before.registry ∧ after.processes = before.processes ∧
      after.channels = before.channels) : AllReachable after :=
  all.of_counts unchanged.2.2 fun object => namedCount_congr unchanged.2.1 unchanged.2.2 object

theorem Boots.allReachable (boots : Boots before after) (all : AllReachable before) : AllReachable after := by
  rcases boots with rfl | ⟨_, booted⟩
  · exact all
  · exact all.of_counts booted.channels_eq fun object => (booted.counts object).2

section
variable {endpoint : Handle}

theorem Created.allReachable {middle handles : HandleTable handleCapacity} {k l : Fin handleCapacity}
    (created : Created before after i c process pair middle handles k l) (all : AllReachable before) :
    AllReachable after := by
  have bare : ∀ object, pair.escrowObjects.count object = 0 := by
    intro object
    rw [pair.escrowObjects_perm.count_eq]
    simp [ChannelPair.queueObjects, created.empty]
  have handles : ∀ object, after.handleCount object = before.handleCount object + pair.endpoints.count object := by
    intro object
    have tokens := tokenCount_of_update created.channels_eq object
    have named := (created.counts object).2.1
    rw [eq_new_of_pair created.vacant, slotEscrow_new, slotEscrow_occupied, bare, count_nil] at tokens
    unfold namedCount at named
    omega
  have kept : ∀ d, (before.channels d).endpoints ≠ [] → after.channels d = before.channels d := by
    intro d nonempty
    rw [created.channels_eq]
    refine update_of_ne ?_ _ _
    rintro rfl
    rw [eq_new_of_pair created.vacant] at nonempty
    exact nonempty rfl
  refine all.of_kept (fun d present => ?_) (fun d root => .root ?_) (fun d e edge reached => .step reached ?_)
  · by_cases here : d = c
    · subst here
      refine .inr (held_iff_count.mpr ⟨pair.endpointA, ?_, ?_⟩)
      · rw [created.channels_eq, update_self]
        exact mem_cons_self
      · rw [handles]
        have : 0 < pair.endpoints.count pair.endpointA := count_pos_iff.mpr mem_cons_self
        omega
    · rw [created.channels_eq, update_of_ne here] at present
      exact .inl present
  · obtain ⟨object, member, named⟩ := held_iff_count.mp root
    refine held_iff_count.mpr ⟨object, ?_, ?_⟩
    · rw [kept d (ne_nil_of_mem member)]
      exact member
    · rw [handles]
      omega
  · obtain ⟨other, held, object, member, place⟩ := edge
    refine ⟨other, ?_, object, member, ?_⟩
    · rw [kept d (by rw [endpoints_of_pair held]; exact cons_ne_nil _ _)]
      exact held
    · rw [kept e (ne_nil_of_mem place)]
      exact place

variable {message : ReceivedMessage}

section
variable {entry : QueuedMessage}
  (received : Received before after i c process process' pair pair' endpoint message capability index entry)
include received

theorem Received.endpoints_eq
    (d : Fin channelCapacity) : (after.channels d).endpoints = (before.channels d).endpoints := by
  rw [received.channels_eq]
  by_cases here : d = c
  · subst here
    rw [update_self, endpoints_of_pair received.channel]
    exact congrArg tail received.received.identities
  · rw [update_of_ne here]

theorem Received.allReachable (all : AllReachable before) : AllReachable after := by
  have endpoints := received.endpoints_eq
  refine all.of_kept (fun d present => .inl ?_) (fun d root => .root ?_) (fun d e edge reached => ?_)
  · by_cases here : d = c
    · rw [here, received.channel]; rfl
    · rw [received.channels_eq, update_of_ne here] at present
      exact present
  · obtain ⟨object, member, named⟩ := held_iff_count.mp root
    refine held_iff_count.mpr ⟨object, by rw [endpoints]; exact member, ?_⟩
    have := (received.counts object).2.1
    omega
  · obtain ⟨object, member, place⟩ := escrows_iff.mp edge
    have counted := received.received.count object
    have handles := (received.counts object).2.1
    rw [← endpoints e] at place
    by_cases here : d = c
    · subst here
      rw [slotEscrow_of_pair received.channel, ← count_pos_iff] at member
      by_cases delivered : 0 < entry.objects.count object
      · exact .root (held_iff_count.mpr ⟨object, place, by omega⟩)
      · refine .step reached (escrows_iff.mpr ⟨object, ?_, place⟩)
        rw [received.channels_eq, update_self, slotEscrow_occupied, ← count_pos_iff]
        omega
    · refine .step reached (escrows_iff.mpr ⟨object, ?_, place⟩)
      rw [received.channels_eq, update_of_ne here]
      exact member

end

theorem Collected.allReachable (collected : Collected before after) (ledger : Ledger before) :
    AllReachable after := by
  have kept : ∀ d, before.Reachable d → after.channels d = before.channels d := by
    intro d reached
    rw [collected.channels d, if_pos ((reachableChannels_iff ledger).mpr reached)]
  have again : ∀ d, before.Reachable d → after.Reachable d := by
    intro d reached
    induction reached with
    | root held =>
      refine .root ?_
      simpa only [Held, collected.processes, kept _ (.root held)] using held
    | step path edge ih =>
      refine .step ih ?_
      simpa only [Escrows, kept _ path, kept _ (.step path edge)] using edge
  intro d present
  refine again d ((reachableChannels_iff ledger).mp ?_)
  by_contra lost
  rw [collected.channels d, if_neg lost] at present
  cases present

end

/-! Sending is the one operation that can lose a channel: nothing is collected
after a send, although it takes handles out of the sender's table. -/

/-- The checks that a send over the channel makes before it moves anything. -/
structure AcceptsSend (state : UserIpcState) (processId : Nat) (endpoint : BitVec 64) (request : ChannelSendRequest)
    (c : Fin channelCapacity) (i : Fin maxUserProcesses) (process : Process handleCapacity)
    (message : OutgoingMessage) (object : ObjectId) (pair : ChannelPair) (index : Fin 2) : Prop where
  found : state.processRef processId = .ok (i, process)
  request : outgoingMessage request = .ok message
  located : state.locateEndpoint processId ⟨endpoint⟩ = .ok (c, object)
  channel : (state.channels c).pair = some pair
  peer : state.endpointReachable (pair.peerOf object) = true
  required : process.handles.require state.registry ⟨endpoint⟩ .channelEndpoint .write = .ok object
  queue : pair.queueForSender object = .ok index
  room : (pair.queues index).length ≠ maxQueue
  transfers : ChannelPair.checkTransfers state.registry process.handles [] message.transfers = .ok ()

variable {endpoint : BitVec 64} {request : ChannelSendRequest}

theorem AcceptsSend.send_ok {processId : Nat} {c i process message object pair index}
    (accepts : AcceptsSend state processId endpoint request c i process message object pair index)
    (roster : Roster state) : (state.step (.send processId endpoint request)).1.isOk = true := by
  have delivered := ChannelPair.send_ok accepts.required accepts.queue accepts.room accepts.transfers state.waiters
  have started := processMut_of_ref roster accepts.found
  simp only [step, send, started, accepts.request, accepts.located, peer_eq accepts.channel, Option.any_some,
    accepts.peer, validatedProcess_of_ref accepts.found, accepts.channel]
  generalize pair.send state.registry process ⟨endpoint⟩ message state.waiters = result at delivered ⊢
  obtain ⟨outcome, pair', process', waiters⟩ := result
  subst delivered
  rfl

/-- A send that passes the checks keeps a path to its own channel that does not
use the handles it gives up. -/
def KeepsPath (state : UserIpcState) : Operation → Prop
  | .send processId endpoint request => ∀ c i process message object pair index,
      AcceptsSend state processId endpoint request c i process message object pair index →
      state.ReachableWithout (state.GivesUp (.send processId endpoint request)) c
  | _ => True

variable {processId : Nat}

theorem givesUp_send (found : before.processRef processId = .ok (i, process))
    (checked : outgoingMessage request = .ok message) (j : Fin maxUserProcesses) (k : Fin handleCapacity) :
    before.GivesUp (.send processId endpoint request) j k ↔
      j = i ∧ ∃ disposition ∈ message.transfers, process.handles.slot disposition.source = .ok k := by
  rw [(outgoingMessage_spec checked).2.2]
  simp only [GivesUp, found, mem_map, Except.ok.injEq, Prod.mk.injEq, exists_exists_and_eq_and]
  constructor
  · rintro ⟨_, ⟨rfl, rfl⟩, moved⟩
    exact ⟨rfl, moved⟩
  · rintro ⟨rfl, moved⟩
    exact ⟨process, ⟨rfl, rfl⟩, moved⟩

section
variable (sent : Sent before after i c process process' pair pair' ⟨endpoint⟩ message capability index tokens woken)
include sent

theorem Sent.located (ledger : Ledger before) (found : before.processRef processId = .ok (i, process)) :
    before.locateEndpoint processId ⟨endpoint⟩ = .ok (c, capability.object) := by
  obtain ⟨_, queued, _⟩ := sent.sent
  exact ledger.locateEndpoint_of_entry found queued.found sent.channel (ChannelPair.sender_mem queued.queue)

theorem Sent.accepts (ledger : Ledger before) (found : before.processRef processId = .ok (i, process))
    (checked : outgoingMessage request = .ok message) :
    AcceptsSend before processId endpoint request c i process message capability.object pair index := by
  obtain ⟨_, queued, _⟩ := sent.sent
  exact ⟨found, checked, sent.located ledger found, sent.channel, sent.reachable,
    require_eq_ok.mpr ⟨capability, queued.found, rfl, queued.kind, queued.writable⟩, queued.queue, queued.room,
    queued.checked⟩

theorem Sent.allReachable_iff
    (found : before.processRef processId = .ok (i, process)) (checked : outgoingMessage request = .ok message)
    (all : AllReachable before) :
    AllReachable after ↔ before.ReachableWithout (before.GivesUp (.send processId endpoint request)) c := by
  have holds : ∀ j l held, after.Holds j l held ↔
      before.Holds j l held ∧ ¬before.GivesUp (.send processId endpoint request) j l := by
    intro j l held
    rw [sent.holds_iff, givesUp_send found checked]
  have roots : ∀ d, before.HeldWithout (before.GivesUp (.send processId endpoint request)) d ↔ after.Held d := by
    intro d
    simp only [held_iff, HeldWithout, holds, sent.endpoints_eq, and_assoc]
  constructor
  · intro everywhere
    -- a path in the new state either avoids the new tokens or has passed through the channel
    have avoided : ∀ d, after.Reachable d →
        before.ReachableWithout (before.GivesUp (.send processId endpoint request)) d ∨
          before.ReachableWithout (before.GivesUp (.send processId endpoint request)) c := by
      intro d reached
      induction reached with
      | root held => exact .inl (.root ((roots _).mpr held))
      | @step d e path edge ih =>
        rcases ih with here | there
        · by_cases same : d = c
          · subst same; exact .inr here
          · refine .inl (.step here ?_)
            obtain ⟨object, member, place⟩ := escrows_iff.mp edge
            rw [sent.channels_eq, update_of_ne same] at member
            rw [sent.endpoints_eq] at place
            exact escrows_iff.mpr ⟨object, member, place⟩
        · exact .inr there
    have present : (after.channels c).pair.isSome = true := by
      rw [sent.channels_eq, update_self]; rfl
    exact (avoided c (everywhere c present)).elim id id
  · intro path
    have arrived : after.Reachable c := path.mono (fun d held => .root ((roots d).mp held))
      fun d e reached edge => .step reached (sent.escrows edge)
    refine all.of_kept (fun d present => .inl ?_) (fun d root => ?_)
      (fun d e edge reached => .step reached (sent.escrows edge))
    · by_cases here : d = c
      · rw [here, sent.channel]; rfl
      · rw [sent.channels_eq, update_of_ne here] at present
        exact present
    · obtain ⟨j, l, held, present, place⟩ := held_iff.mp root
      rw [← sent.endpoints_eq] at place
      by_cases gone : before.GivesUp (.send processId endpoint request) j l
      · obtain ⟨rfl, moved⟩ := (givesUp_send found checked j l).mp gone
        exact .step arrived (escrows_iff.mpr ⟨held.object, sent.escrowed present moved, place⟩)
      · exact .root (held_iff.mpr ⟨j, l, held, (holds j l held).mpr ⟨present, gone⟩, place⟩)

end

/-- Every other operation leaves no channel behind if there was none before. -/
theorem step_allReachable_iff (operation : Operation) (invariant : Invariant state) (all : AllReachable state) :
    AllReachable (state.step operation).2 ↔ state.KeepsPath operation := by
  have refused {error after} (answer : state.step operation = (.error error, after)) : state.KeepsPath operation := by
    cases operation with
    | send processId endpoint request =>
      intro _ _ _ _ _ _ _ accepts
      have accepted := accepts.send_ok invariant.roster
      rw [answer] at accepted
      cases accepted
    | _ => trivial
  obtain ⟨ready, boots, outcome, _⟩ := step_outcome invariant operation
  have ledger := boots.ledger invariant.ledger
  have start := boots.allReachable all
  generalize answer : state.step operation = result at outcome ⊢
  obtain ⟨reply, after⟩ := result
  cases outcome with
  | refused | peerClosed => exact iff_of_true start (refused answer)
  | sent found checked sent =>
    obtain ⟨_, queued, _⟩ := sent.sent
    obtain rfl := boots.eq_of_entry invariant.roster sent.registered queued.found
    refine (sent.allReachable_iff found checked all).trans ⟨fun path c _ _ _ _ _ _ accepts => ?_, fun path => ?_⟩
    · have located := accepts.located
      rw [sent.located ledger found] at located
      cases located
      exact path
    · exact path _ _ _ _ _ _ _ (sent.accepts ledger found checked)
  | uncreated _ churned | unspawned churned =>
    exact iff_of_true (start.of_counts churned.channels fun object => (churned.counts object).2) trivial
  | created _ done | received _ done => exact iff_of_true (done.allReachable start) trivial
  | nothing => exact iff_of_true start trivial
  | waited _ kept | cancelled kept | blocked kept => exact iff_of_true (start.of_unchanged kept.unchanged) trivial
  | closed _ _ _ _ fewer collected | exited _ _ fewer collected =>
    exact iff_of_true (collected.allReachable (fewer.ledger ledger)) trivial
  | spawned spawned =>
    exact iff_of_true (start.of_counts spawned.channels_eq fun object => (spawned.counts object).2) trivial

/-- No channel is lost exactly as long as every send keeps a path to its own
channel; and then a failure for want of a slot means that all are in use. -/
theorem channels_reachable_iff (operations : List Operation) :
    (Runs.Always step AllReachable new operations ↔ Runs.EachStep step KeepsPath new operations) ∧
      (Runs.EachStep step KeepsPath new operations → ∀ processId,
        ((run operations).createPair processId).1 = .error .capacity → ∀ c, (run operations).Reachable c) := by
  have characterised : Runs.Always step AllReachable new operations ↔ Runs.EachStep step KeepsPath new operations :=
    Runs.always_iff (I := Invariant) step_invariant
      (fun state operation invariant all => step_allReachable_iff operation invariant all)
      invariant_new nofun operations
  refine ⟨characterised, fun each processId refused c => ?_⟩
  have all : AllReachable (run operations) := (characterised.mpr each).last
  refine all c ?_
  obtain ⟨ready, boots, ⟨_, _, _, result, _, full⟩ | ⟨_, _, _, _, _, _, _, _, _, _, result, _⟩⟩ :=
    createPair_spec (run operations) processId
  · rw [result] at refused
    cases refused
    rw [← boots.channels_eq]
    exact (full rfl).2 c
  · rw [result] at refused
    cases refused

theorem allReachable_iff_marked (ledger : Ledger state) : AllReachable state ↔
      ∀ c, (state.channels c).pair.isSome = true → state.reachableChannels c = true := by
  simp only [AllReachable, reachableChannels_iff ledger]

/-- Create a channel and send both its endpoints over the first of them. The
slots of the two handles are at the given generation. -/
def encloseChannel (generation : Nat) : List Operation :=
  let first := (Handle.new 0 generation).raw
  let second := (Handle.new 1 generation).raw
  [.createPair bootstrapProcessId, .send bootstrapProcessId first
    (.ofTransfers [⟨first, endpointRights.bits, 0⟩, ⟨second, endpointRights.bits, 0⟩])]

def encloseChannels : List Operation :=
  (range channelCapacity).flatMap fun round => encloseChannel (round + 1)

/-- One send loses a channel; as many as there are slots leave the manager
without a free slot although no channel is reachable. -/
theorem enclosed_channels_lost :
    ¬AllReachable (run (encloseChannel 1)) ∧
      ((run encloseChannels).createPair bootstrapProcessId).1 = .error .capacity ∧
      ∀ c, ¬(run encloseChannels).Reachable c := by
  refine ⟨?_, by decide +kernel, fun c => ?_⟩
  · rw [allReachable_iff_marked (run_invariant _).ledger]
    decide +kernel
  · rw [← reachableChannels_iff (run_invariant _).ledger]
    revert c
    decide +kernel

def carryEndpoint : List Operation :=
  [.createPair bootstrapProcessId, .createPair bootstrapProcessId,
    .send bootstrapProcessId (Handle.new 0 1).raw (.ofTransfers [⟨(Handle.new 3 1).raw, endpointRights.bits, 0⟩])]

theorem carried_endpoint_keeps_path : Runs.EachStep step KeepsPath new carryEndpoint := by
  refine (channels_reachable_iff carryEndpoint).1.mp (Runs.always_of_prefixes fun n within => ?_)
  refine (allReachable_iff_marked (run_invariant (carryEndpoint.take n)).ledger).mpr ?_
  revert n
  decide +kernel

def Operation.collects : Operation → Bool
  | .close _ _ | .exitProcess _ => true
  | _ => false

def StillHeld (before after : UserIpcState) (c : Fin channelCapacity) : Prop :=
  ∃ i process, after.processes i = some process ∧
    ∃ object ∈ process.handles.objects, object ∈ (before.channels c).endpoints

/-- References to the object that the channel slots emptied between two states
accounted for: their queued tokens, their endpoints and their channel objects. -/
def collectedCount (before after : UserIpcState) (object : ObjectId) : Nat :=
  ∑ c, if (after.channels c).pair.isNone = true then
    (slotEscrow (before.channels c)).count object + (before.channels c).owned.count object else 0

/-- What a collecting call leaves of the channels. -/
structure Reclaimed (before after : UserIpcState) : Prop where
  kept : ∀ c, Reach (StillHeld before after) before.Escrows c → after.channels c = before.channels c
  cleared : ∀ c, ¬Reach (StillHeld before after) before.Escrows c → after.channels c = .new

theorem Collected.reclaimed {start : UserIpcState} (collected : Collected before after) (ledger : Ledger before)
    (channels : before.channels = start.channels) : Reclaimed start after := by
  have reach : ∀ c, before.reachableChannels c = true ↔ Reach (StillHeld start after) start.Escrows c := by
    intro c
    rw [reachableChannels_iff ledger, Reachable]
    have roots : before.Held = StillHeld start after := by
      funext c
      simp only [Held, StillHeld, collected.processes, channels]
    rw [roots, escrows_congr channels]
  refine ⟨fun c reached => ?_, fun c lost => ?_⟩
  · rw [collected.channels c, if_pos ((reach c).mpr reached), channels]
  · rw [collected.channels c, if_neg (mt (reach c).mp lost)]

theorem step_reclaimed (invariant : Invariant state) {operation : Operation} (collects : operation.collects = true) :
    (∃ error, (state.step operation).1 = .error error ∧ (state.step operation).2.channels = state.channels) ∨
      (∃ reply, (state.step operation).1 = .ok reply) ∧ Reclaimed state (state.step operation).2 := by
  obtain ⟨ready, boots, outcome, _⟩ := step_outcome invariant operation
  have ledger := boots.ledger invariant.ledger
  have channels : ready.channels = state.channels := boots.channels_eq
  generalize (state.step operation).1 = reply at outcome ⊢
  cases outcome with
  | @refused _ error => exact .inl ⟨error, rfl, channels⟩
  | closed _ _ _ _ fewer collected | exited _ _ fewer collected =>
    exact .inr ⟨⟨_, rfl⟩, collected.reclaimed (fewer.ledger ledger) (fewer.channels_eq.trans channels)⟩
  | _ => cases collects

theorem Reclaimed.counts (reclaimed : Reclaimed before after) (object : ObjectId) :
    after.tokenCount object + after.slotCount object + collectedCount before after object =
      before.tokenCount object + before.slotCount object := by
  unfold tokenCount slotCount collectedCount
  rw [← Finset.sum_add_distrib, ← Finset.sum_add_distrib, ← Finset.sum_add_distrib]
  refine Finset.sum_congr rfl fun c _ => ?_
  by_cases reached : Reach (StillHeld before after) before.Escrows c
  · rw [reclaimed.kept c reached]
    split
    · next empty =>
      simp [eq_new_of_pair (Option.isNone_iff_eq_none.mp empty)]
    · rfl
  · rw [reclaimed.cleared c reached]
    simp [ChannelSlot.new, slotEscrow, ChannelSlot.owned]

/-- After a successful `close` or `exit_process` an occupied slot is still
occupied if and only if its channel can be reached from a handle; and beyond
the handles and the address space that the call itself gives up, the registry
has lost exactly what the emptied slots accounted for. A failed call changes
no channel. -/
theorem collection_exact (operations : List Operation) (operation : Operation)
    (collects : operation.collects = true) :
    let before := run operations
    let result := (before.step operation).1
    let after := (before.step operation).2
    (result.isOk = true →
      (∀ c, (before.channels c).pair.isSome = true →
        ((after.channels c).pair.isSome = true ↔ Reach (StillHeld before after) before.Escrows c) ∧
        ((after.channels c).pair.isSome = true → after.channels c = before.channels c)) ∧
      ∀ object, after.registry.refs object + collectedCount before after object +
          before.handleCount object + before.addressSpaceCount object =
        before.registry.refs object + after.handleCount object + after.addressSpaceCount object) ∧
    (result.isOk = false → after.channels = before.channels) := by
  intro before result after
  have invariant : Invariant before := run_invariant operations
  have later : Invariant after := step_invariant before operation invariant
  rcases step_reclaimed invariant collects with ⟨error, failed, channels⟩ | ⟨⟨reply, succeeded⟩, reclaimed⟩
  · refine ⟨fun ok => ?_, fun _ => channels⟩
    simp [result, failed, Except.isOk, Except.toBool] at ok
  · refine ⟨fun _ => ⟨fun c occupied => ?_, fun object => ?_⟩, fun failed => ?_⟩
    · by_cases reached : Reach (StillHeld before after) before.Escrows c
      · have same := reclaimed.kept c reached
        exact ⟨iff_of_true (by rw [same]; exact occupied) reached, fun _ => same⟩
      · have empty : (after.channels c).pair.isSome = false := by rw [reclaimed.cleared c reached]; rfl
        refine ⟨iff_of_false (by rw [empty]; exact Bool.false_ne_true) reached, fun present => ?_⟩
        rw [empty] at present
        cases present
    · have counts : after.tokenCount object + after.slotCount object + collectedCount before after object =
          before.tokenCount object + before.slotCount object := reclaimed.counts object
      have balanced := invariant.ledger.balanced object
      have balanced' := later.ledger.balanced object
      unfold ownerCount namedCount at balanced balanced'
      omega
    · simp [result, succeeded, Except.isOk, Except.toBool] at failed

theorem step_exit_bootstrap (state : UserIpcState) :
    state.step (.exitProcess bootstrapProcessId) = (.error .invalidProcess, state) := rfl

/-- A refused call returns without collecting: a channel that a send has lost
is still in its slot. -/
theorem refused_exit_keeps_lost_channel :
    let before := run (encloseChannel 1)
    let after := (before.step (.exitProcess bootstrapProcessId)).2
    (before.step (.exitProcess bootstrapProcessId)).1.isOk = false ∧
      (before.channels 0).pair.isSome = true ∧ (after.channels 0).pair.isSome = true ∧
      ¬Reach (StillHeld before after) before.Escrows 0 := by
  simp only [step_exit_bootstrap]
  refine ⟨rfl, by decide +kernel, by decide +kernel, ?_⟩
  change ¬(run (encloseChannel 1)).Reachable 0
  rw [← reachableChannels_iff (run_invariant _).ledger]
  decide +kernel

def encloseThenCreate : List Operation := encloseChannel 1 ++ [.createPair bootstrapProcessId]

theorem collection_exact_after_send :
    let before := run encloseThenCreate
    let after := (before.step (.close bootstrapProcessId (Handle.new 0 2).raw)).2
    (before.channels 0).pair.isSome = true ∧ (after.channels 0).pair.isSome = false ∧
      (after.channels 1).pair.isSome = true ∧ Reach (StillHeld before after) before.Escrows 1 ∧
      ¬Reach (StillHeld before after) before.Escrows 0 := by
  have exact := collection_exact encloseThenCreate (.close bootstrapProcessId (Handle.new 0 2).raw) rfl
  have channels := (exact.1 (by decide +kernel)).1
  have lost := (channels 0 (by decide +kernel)).1
  have kept := (channels 1 (by decide +kernel)).1
  refine ⟨by decide +kernel, by decide +kernel, by decide +kernel, kept.mp (by decide +kernel), fun reached => ?_⟩
  exact absurd (lost.mpr reached) (by decide +kernel)

end Nagi.Kernel.UserIpcState
