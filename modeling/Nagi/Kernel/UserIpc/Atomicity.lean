import Nagi.Kernel.UserIpc.Machine
import Nagi.Kernel.UserIpc.Requests

/-! Calls of the manager happen as a whole or not at all, and what they rely on never fails. -/

namespace Nagi.Kernel.UserIpcState

open Lib HandleTable

variable {state ready : UserIpcState} {processId : Nat} {i : Fin maxUserProcesses} {process : Process handleCapacity}

theorem entry_of_moved {registry : ObjectRegistry objectCapacity} {table next : HandleTable handleCapacity}
    {transfers : List HandleDisposition} {tokens : List TransferToken} {disposition : HandleDisposition}
    (moves : Moves registry table transfers tokens next) (member : disposition ∈ transfers) :
    (next.entry registry disposition.source).isOk = false := by
  obtain ⟨_, _, _, found, _⟩ := moves.token_of_source member
  obtain ⟨k, named, _⟩ := entry_eq_ok.mp found
  have free := moves.emptied member named
  cases later : next.entry registry disposition.source with
  | error error => rfl
  | ok held =>
    obtain ⟨l, named', present, _⟩ := entry_eq_ok.mp later
    obtain rfl : k = l := Fin.ext ((slot_eq_ok.mp named).1.symm.trans (slot_eq_ok.mp named').1)
    rw [free] at present
    cases present

/-- A send that is refused changes nothing, apart from the registration of the bootstrap process by the first call of
all. One that succeeds queues one message with the capabilities of the listed handles, under the rights that were asked
for, and none of these handles is left. Once the handles have been checked, all of them move. -/
theorem send_whole_or_refused (operations : List Operation) (processId : Nat) (endpoint : BitVec 64)
    (request : ChannelSendRequest) :
    let before := run operations
    let result := before.send processId endpoint request
    (∀ error, result.1 = .error error → Boots before result.2) ∧
      (∀ woken, result.1 = .ok woken → ∃ i c process process' pair pair' index queued,
        before.processRef processId = .ok (i, process) ∧ (before.channels c).pair = some pair ∧
        result.2 = ({ before with waiters := result.2.waiters }.withProcess i process').withPair c pair' ∧
        pair' = pair.withQueue index (pair'.queues index) ∧
        (pair'.queues index).toList = (pair.queues index).toList ++ [queued] ∧
        List.Forall₂ (fun transfer token => ∃ capability,
          process.handles.entry before.registry ⟨transfer.handle⟩ = .ok capability ∧
            token = some ⟨⟨capability.object, ⟨transfer.rights⟩⟩⟩) request.moved queued.tokens ∧
        ∀ transfer ∈ request.moved, (process'.handles.entry before.registry ⟨transfer.handle⟩).isOk = false) ∧
      ∀ i process, before.processes i = some process → ∀ transfers,
        ChannelPair.checkTransfers before.registry process.handles [] transfers = .ok () →
          (ChannelPair.moveTransfers before.registry process.handles transfers).1.isOk = true := by
  intro before result
  have invariant : Invariant before := run_invariant operations
  obtain ⟨ready, boots, outcomes⟩ := send_spec invariant.ledger processId endpoint request
  refine ⟨fun error refused => ?_, fun woken accepted => ?_, fun i process _ transfers checked => ?_⟩
  · rcases outcomes with ⟨_, _, same, _⟩ | ⟨_, _, _, _, _, _, _, _, _, _, _, _, same, _⟩
    · simpa only [result, same] using boots
    · simp only [result, same] at refused
      cases refused
  · rcases outcomes with ⟨_, _, same, _⟩ |
      ⟨_, after, i, c, process, process', pair, pair', message, capability, index, tokens, same, found, checked, sent⟩
    · simp only [result, same] at accepted
      cases accepted
    · obtain ⟨waiters, queues, _⟩ := sent.sent
      obtain rfl : ready = before := boots.eq_of_entry invariant.roster sent.registered queues.found
      obtain ⟨queued, appended, _, _, _, _, carried⟩ := queues.queued
      obtain ⟨_, _, listed⟩ := outgoingMessage_spec checked
      have result_eq : result.2 = after := by simp only [result, same]
      refine ⟨i, c, process, process', pair, pair', index, queued, found, sent.channel, ?_, queues.pair_eq,
        appended, ?_, fun transfer member => ?_⟩
      · rw [result_eq]
        exact sent.after_eq
      · have tokens := queues.moves.tokens_for
        rw [listed, List.forall₂_map_left_iff] at tokens
        rw [carried, List.forall₂_map_right_iff]
        refine tokens.imp ?_
        rintro transfer token ⟨held, found, _, _, rfl⟩
        exact ⟨held, found, rfl⟩
      · exact entry_of_moved queues.moves
          (listed ▸ List.mem_map_of_mem member : transfer.disposition ∈ message.transfers)
  · obtain ⟨distinct, movable⟩ := ChannelPair.checkTransfers_ok .nil checked
    obtain ⟨_, _, moved, _⟩ := ChannelPair.moveTransfers_of_check movable distinct
    rw [moved]
    rfl

def firstAddressSpace : ObjectId := ⟨0, 1, .addressSpace⟩

/-- The first call of all registers the bootstrap process, even if it is a send that is refused. -/
theorem refused_send_registers_bootstrap :
    let result := (run []).send bootstrapProcessId 0 (.ofTransfers [])
    result.1.isOk = false ∧ (run []).registry.refs firstAddressSpace = 0 ∧
      result.2.registry.refs firstAddressSpace = 1 := by
  decide +kernel

theorem Ledger.escrow_live (ledger : Ledger state) {c : Fin channelCapacity} {pair : ChannelPair} {index : Fin 2}
    {entry : QueuedMessage} (channel : (state.channels c).pair = some pair)
    (queued : entry ∈ (pair.queues index).toList) {token : TransferToken} (carried : token ∈ entry.escrow) :
    0 < state.registry.refs token.capability.object := by
  have named : token.capability.object ∈ pair.escrowObjects :=
    ChannelPair.mem_escrowObjects.mpr ⟨index, entry, queued, List.mem_map_of_mem carried⟩
  have counted := tokenCount_pos.mpr ⟨c, pair, channel, named⟩
  have := ledger.balanced token.capability.object
  unfold namedCount at this
  omega

/-- A receive that is refused or finds nothing changes nothing, apart from the registration of the bootstrap process.
A message for which there is room is delivered with all its capabilities, so that none of the failures behind the check
of the room is ever met. -/
theorem receive_whole_or_refused (operations : List Operation) (processId : Nat) (endpoint : BitVec 64) :
    let before := run operations
    let result := before.tryReceive processId endpoint
    ((∃ error, result.1 = .error error) ∨ result.1 = .ok none → Boots before result.2) ∧
      ∀ i process capability c pair index entry rest, before.processRef processId = .ok (i, process) →
        process.handles.entry before.registry ⟨endpoint⟩ = .ok capability → capability.rights.contains .read = true →
        (before.channels c).pair = some pair → pair.queueForReceiver capability.object = .ok index →
        (pair.queues index).toList = entry :: rest → process.handles.hasCapacity entry.tokens.length = true →
        ∃ received handles queue, queue.toList = rest ∧ entry.tokens = entry.escrow.map some ∧
          Installs process.handles entry.escrow received handles ∧
          result = (.ok (some (receiveResult
              ⟨entry.senderProcessId, entry.header, entry.payload, entry.payloadLen, received⟩)),
            (before.withProcess i { process with handles }).withPair c (pair.withQueue index queue)) := by
  intro before result
  have invariant : Invariant before := run_invariant operations
  constructor
  · intro refused
    obtain ⟨ready, boots, ⟨_, _, same⟩ | same | ⟨_, _, _, _, _, _, _, _, _, _, _, same, _⟩⟩ :=
      tryReceive_spec invariant.ledger processId endpoint
    · simpa only [result, same] using boots
    · simpa only [result, same] using boots
    · simp only [result, same, reduceCtorEq, exists_false, Except.ok.injEq, or_self] at refused
  · intro i process capability c pair index entry rest found held readable channel located contents capacity
    have member := ChannelPair.receiver_mem located
    have queued : entry ∈ (pair.queues index).toList := contents ▸ List.mem_cons_self
    have full := invariant.ledger.full c pair channel index entry queued
    have required : process.handles.require before.registry ⟨endpoint⟩ .channelEndpoint .read = .ok capability.object :=
      require_eq_ok.mpr ⟨capability, held, rfl, ChannelPair.endpoint_kind member, readable⟩
    obtain ⟨received, handles, queue, done, remaining, installs⟩ :=
      ChannelPair.receive_ok required located contents full
      capacity fun token carried => invariant.ledger.escrow_live channel queued carried
    refine ⟨received, handles, queue, remaining, entry.tokens_eq_of_full full, installs, ?_⟩
    simp only [result, tryReceive, processMut_of_ref invariant.roster found,
      invariant.ledger.locateEndpoint_of_entry found held channel member, validatedProcess_of_ref found, channel, done,
      Option.map_some]

theorem refused_receive_registers_bootstrap :
    let result := (run []).tryReceive bootstrapProcessId 0
    result.1.isOk = false ∧ (run []).registry.refs firstAddressSpace = 0 ∧
      result.2.registry.refs firstAddressSpace = 1 := by
  decide +kernel

theorem close_of_located (ledger : Ledger state) {rawHandle : BitVec 64} {place : Fin channelCapacity × ObjectId}
    (started : state.processMut processId = (.ok (i, process), ready))
    (located : ready.locateEndpoint processId ⟨rawHandle⟩ = .ok place) :
    (state.close processId rawHandle).1 = .ok () := by
  obtain ⟨_, _, ⟨_, _, _, unstarted | lost⟩ | ⟨_, _, _, _, _, _, _, done, _⟩⟩ := close_spec ledger processId rawHandle
  · rw [started] at unstarted
    cases unstarted
  · rw [started, located] at lost
    cases lost
  · rw [done]

theorem Invariant.close_ok (invariant : Invariant state) {rawHandle : BitVec 64} {object : ObjectId}
    (found : state.processRef processId = .ok (i, process))
    (resolved : process.handles.resolve state.registry ⟨rawHandle⟩ = .ok object) :
    (state.close processId rawHandle).1 = .ok () := by
  obtain ⟨capability, entry, rfl⟩ := resolve_eq_ok.mp resolved
  have registered := (processRef_eq_ok.mp found).2
  -- a handle names an endpoint of an occupied channel
  obtain ⟨k, _, present, _⟩ := entry_eq_ok.mp entry
  have named : 0 < state.handleCount capability.object :=
    handleCount_pos.mpr ⟨i, process, registered, mem_objects.mpr ⟨k, capability, present, rfl⟩⟩
  have confined := invariant.confined capability.object
  unfold namedCount at confined
  obtain ⟨c, endpoint⟩ := endpointCount_pos.mp (show 0 < state.endpointCount capability.object by omega)
  obtain ⟨pair, held, member⟩ := invariant.ledger.located_pair (invariant.ledger.channelWith_eq.mpr endpoint)
  exact close_of_located invariant.ledger (processMut_of_ref invariant.roster found)
    (invariant.ledger.locateEndpoint_of_entry found entry held member)

theorem exitProcess_registered (ledger : Ledger state) (isolated : processId ≠ bootstrapProcessId)
    (registered : (state.processRef processId).isOk = true) : (state.exitProcess processId).1 = .ok () := by
  obtain ⟨_, _, _, bootstrap | missing⟩ | ⟨_, _, _, _, done, _⟩ := exitProcess_spec ledger processId
  · exact absurd bootstrap isolated
  · rw [registered] at missing
    cases missing
  · rw [done]

/-- In every reachable state a handle to an endpoint can be closed and a process other than the bootstrap process can be
ended. Each reference that the end of a process gives up is there to be given up, and no `expect` fails. -/
theorem closing_never_fails (operations : List Operation) :
    let state := run operations
    (∀ processId rawHandle i process object, state.processRef processId = .ok (i, process) →
        process.handles.resolve state.registry ⟨rawHandle⟩ = .ok object → object.kind = .channelEndpoint →
        (state.close processId rawHandle).1 = .ok ()) ∧
      (∀ processId, processId ≠ bootstrapProcessId → (state.processRef processId).isOk = true →
        (state.exitProcess processId).1 = .ok ()) ∧
      (∀ i process, state.processes i = some process →
        state.registry.releaseAll process.handles.objects = (none, (process.handles.closeAll state.registry).2) ∧
          ((process.handles.closeAll state.registry).2.release process.addressSpace).isOk = true) ∧
      ∀ operation, (state.step operation).1 ≠ .error .expectFailed := by
  intro state
  have invariant : Invariant state := run_invariant operations
  refine ⟨fun processId rawHandle i process object found resolved _ => invariant.close_ok found resolved,
    fun processId isolated known => exitProcess_registered invariant.ledger isolated known,
    fun i process registered => ?_, fun operation => ?_⟩
  · obtain ⟨released, live, _⟩ := exit_releases_ok invariant.ledger registered
    obtain ⟨_, given, _⟩ := ObjectRegistry.release_spec live
    exact ⟨released, by rw [given]; rfl⟩
  · obtain ⟨_, _, _, expected⟩ := step_outcome invariant operation
    exact expected

end Nagi.Kernel.UserIpcState
