import Nagi.Kernel.UserIpc.Waiting

/-! The manager as a machine: arbitrary calls of its operations, one after the
other, from the state `UserIpcState::new` on. Reference counts are conserved over
every run. -/

namespace Nagi.Kernel.UserIpcState

open Lib

inductive Operation where
  | createPair (processId : Nat)
  | send (processId : Nat) (endpoint : BitVec 64) (request : ChannelSendRequest)
  | tryReceive (processId : Nat) (endpoint : BitVec 64)
  /-- `agreed` is what `on_blocked` answers, should it be called. -/
  | waitReadable (processId : Nat) (endpoint : BitVec 64) (waiterId : Nat) (agreed : Bool)
  | close (processId : Nat) (rawHandle : BitVec 64)
  | registerSpawnedProcess (parent child : Nat) (endpoint : BitVec 64) (rights : Rights)
  | exitProcess (processId : Nat)
  | cancelWaiter (waiterId : Nat)

inductive Reply where
  | endpoints (endpoints : ChannelEndpoints)
  | woken (waiters : List Nat)
  | received (message : Option ChannelReceiveResult)
  | waited (outcome : ChannelWaitOutcome)
  | spawned (handle : BitVec 64)
  | done

def step (state : UserIpcState) : Operation → Except UserIpcError Reply × UserIpcState
  | .createPair processId => (state.createPair processId).map (·.map .endpoints) id
  | .send processId endpoint request => (state.send processId endpoint request).map (·.map .woken) id
  | .tryReceive processId endpoint => (state.tryReceive processId endpoint).map (·.map .received) id
  | .waitReadable processId endpoint waiterId agreed =>
    (state.waitReadable processId endpoint waiterId (fun caller => (agreed, caller)) ()).map (·.map .waited) (·.1)
  | .close processId rawHandle => (state.close processId rawHandle).map (·.map fun _ => .done) id
  | .registerSpawnedProcess parent child endpoint rights =>
    (state.registerSpawnedProcess parent child endpoint rights).map (·.map .spawned) id
  | .exitProcess processId => (state.exitProcess processId).map (·.map fun _ => .done) id
  | .cancelWaiter waiterId => (.ok .done, state.cancelWaiter waiterId)

def run (operations : List Operation) : UserIpcState := Runs.run step new operations

theorem run_append (earlier later : List Operation) :
    run (earlier ++ later) = Runs.run step (run earlier) later :=
  Runs.run_append step new earlier later

structure Invariant (state : UserIpcState) : Prop where
  ledger : Ledger state
  confined : Confined state
  roster : Roster state
  waits : Waits state

variable {before after : UserIpcState}

theorem Transition.invariant (transition : Transition before after) (invariant : Invariant before) :
    Invariant after where
  ledger := transition.ledger invariant.ledger
  confined := transition.confined invariant.ledger invariant.confined
  roster := transition.roster invariant.roster
  waits := transition.waits invariant.ledger invariant.waits

theorem Transition.evolves (transition : Transition before after) : before.registry.Evolves after.registry := by
  cases transition with
  | withdrawn kept | blocked kept => rw [kept.unchanged.1]; exact .refl _
  | sent kept | received kept =>
    rw [show after.registry = before.registry by rw [kept.after_eq]; rfl]
    exact .refl _
  | booted made | churned made | created made | dropped made | spawned made | exited made | collected made =>
    exact made.evolves

abbrev Chain : UserIpcState → UserIpcState → Prop := Relation.ReflTransGen Transition

theorem Chain.evolves (chain : Chain before after) : before.registry.Evolves after.registry := by
  induction chain with
  | refl => exact .refl _
  | tail _ last ih => exact ih.trans last.evolves

theorem Boots.chain (boots : Boots before after) : Chain before after := by
  rcases boots with rfl | ⟨_, booted⟩
  · exact .refl
  · exact .single (.booted booted)

theorem Invariant.boots (invariant : Invariant before) (boots : Boots before after) : Invariant after := by
  rcases boots with rfl | ⟨_, booted⟩
  · exact invariant
  · exact Transition.invariant (.booted booted) invariant

/-- What a call makes of a state in which the bootstrap process has been looked
after, and what it answers. -/
inductive Outcome (ready : UserIpcState) : Operation → Except UserIpcError Reply → UserIpcState → Prop where
  | refused {operation error}
      (open_ : ∀ processId endpoint request, operation = .send processId endpoint request → error ≠ .peerClosed)
      (full : ∀ processId, operation = .createPair processId → error = .capacity →
        ∀ c, (ready.channels c).pair.isSome = true) :
      Outcome ready operation (.error error) ready
  | peerClosed {processId endpoint request c object pair}
      (located : ready.locateEndpoint processId ⟨endpoint⟩ = .ok (c, object))
      (channel : (ready.channels c).pair = some pair) (member : object ∈ pair.endpoints)
      (closed : ready.endpointReachable (pair.peerOf object) = false) :
      Outcome ready (.send processId endpoint request) (.error .peerClosed) ready
  | uncreated {processId error after} (other : error ≠ .capacity) (churned : Churned ready after) :
      Outcome ready (.createPair processId) (.error error) after
  | created {processId endpoints after i c process pair middle handles k l}
      (found : ready.processRef processId = .ok (i, process))
      (created : Created ready after i c process pair middle handles k l) :
      Outcome ready (.createPair processId) (.ok (.endpoints endpoints)) after
  | sent {processId endpoint request after i c process process' pair pair' message capability index tokens woken}
      (found : ready.processRef processId = .ok (i, process)) (checked : outgoingMessage request = .ok message)
      (sent : Sent ready after i c process process' pair pair' ⟨endpoint⟩ message capability index tokens woken) :
      Outcome ready (.send processId endpoint request) (.ok (.woken woken)) after
  | nothing {processId endpoint} : Outcome ready (.tryReceive processId endpoint) (.ok (.received none)) ready
  | received {processId endpoint after i c process process' pair pair' message capability index entry}
      (found : ready.processRef processId = .ok (i, process))
      (received : Received ready after i c process process' pair pair' ⟨endpoint⟩ message capability index entry) :
      Outcome ready (.tryReceive processId endpoint) (.ok (.received (some (receiveResult message)))) after
  | waited {processId endpoint waiterId agreed result after} (ended : result ≠ .ok (.waited .blocked))
      (withdrawn : Withdrawn ready after waiterId) :
      Outcome ready (.waitReadable processId endpoint waiterId agreed) result after
  | blocked {processId endpoint waiterId after c pair object index free}
      (blocked : Blocked ready after waiterId c pair object index free) :
      Outcome ready (.waitReadable processId endpoint waiterId true) (.ok (.waited .blocked)) after
  | closed {processId rawHandle middle after i process handles k capability}
      (found : ready.processRef processId = .ok (i, process))
      (located : (ready.locateEndpoint processId ⟨rawHandle⟩).isOk = true)
      (entry : process.handles.entry ready.registry ⟨rawHandle⟩ = .ok capability)
      (named : process.handles.slot ⟨rawHandle⟩ = .ok k)
      (dropped : Dropped ready middle i process handles k capability) (collected : Collected middle after) :
      Outcome ready (.close processId rawHandle) (.ok .done) after
  | unspawned {parent child endpoint rights error after} (churned : Churned ready after) :
      Outcome ready (.registerSpawnedProcess parent child endpoint rights) (.error error) after
  | spawned {parent child endpoint rights handle after j process addressSpace handles childHandles k l capability}
      (spawned : Spawned ready after j child process addressSpace handles childHandles k l capability rights) :
      Outcome ready (.registerSpawnedProcess parent child endpoint rights) (.ok (.spawned handle)) after
  | exited {processId middle after i process} (isolated : processId ≠ bootstrapProcessId)
      (found : ready.processRef processId = .ok (i, process)) (exited : Exited ready middle i process)
      (collected : Collected middle after) : Outcome ready (.exitProcess processId) (.ok .done) after
  | cancelled {waiterId after} (withdrawn : Withdrawn ready after waiterId) :
      Outcome ready (.cancelWaiter waiterId) (.ok .done) after

variable {state : UserIpcState}

/-- Every call has one of the outcomes, and none meets a missing value where it expects one. -/
theorem step_outcome (invariant : Invariant state) (operation : Operation) :
    ∃ ready, Boots state ready ∧ Outcome ready operation (state.step operation).1 (state.step operation).2 ∧
      (state.step operation).1 ≠ .error .expectFailed := by
  cases operation with
  | createPair processId =>
    obtain ⟨ready, boots, outcome⟩ := createPair_spec state processId
    refine ⟨ready, boots, ?_⟩
    rcases outcome with ⟨error, after, expected, result, churned, full⟩ |
      ⟨_, after, _, _, _, _, _, _, _, _, result, found, created⟩ <;> simp only [step, result]
    · refine ⟨?_, mt Except.error.inj expected⟩
      by_cases same : error = .capacity
      · obtain ⟨rfl, full⟩ := full same
        exact .refused nofun fun _ _ _ => full
      · exact .uncreated same churned
    · exact ⟨.created found created, nofun⟩
  | send processId endpoint request =>
    obtain ⟨ready, boots, outcome⟩ := send_spec invariant.ledger processId endpoint request
    refine ⟨ready, boots, ?_⟩
    rcases outcome with ⟨error, expected, result, closed⟩ |
      ⟨_, after, _, _, _, _, _, _, _, _, _, _, result, found, checked, sent⟩ <;> simp only [step, result]
    · refine ⟨?_, mt Except.error.inj expected⟩
      by_cases same : error = .peerClosed
      · obtain ⟨_, _, _, located, channel, member, unreachable⟩ := closed same
        exact same ▸ .peerClosed located channel member unreachable
      · exact .refused (fun _ _ _ _ => same) nofun
    · exact ⟨.sent found checked sent, nofun⟩
  | tryReceive processId endpoint =>
    obtain ⟨ready, boots, outcome⟩ := tryReceive_spec invariant.ledger processId endpoint
    refine ⟨ready, boots, ?_⟩
    rcases outcome with ⟨_, expected, result⟩ | result |
      ⟨_, after, _, _, _, _, _, _, _, _, _, result, found, received⟩ <;> simp only [step, result]
    · exact ⟨.refused nofun nofun, mt Except.error.inj expected⟩
    · exact ⟨.nothing, nofun⟩
    · exact ⟨.received found received, nofun⟩
  | waitReadable processId endpoint waiterId agreed =>
    obtain ⟨ready, boots, outcome⟩ :=
      waitReadable_spec invariant.ledger processId endpoint waiterId (fun caller => (agreed, caller)) ()
    refine ⟨ready, boots, ?_⟩
    rcases outcome with ⟨outcome, after, _, result, ended, expected, _, withdrawn⟩ |
      ⟨after, _, _, _, _, _, _, answer, result, blocked⟩ <;> simp only [step, result]
    · cases outcome with
      | error error =>
        exact ⟨.waited nofun withdrawn, fun same => expected (congrArg Except.error (Except.error.inj same))⟩
      | ok reply =>
        refine ⟨.waited (fun same => ?_) withdrawn, nofun⟩
        cases same
        exact ended rfl
    · cases answer
      exact ⟨.blocked blocked, nofun⟩
  | close processId rawHandle =>
    obtain ⟨ready, boots, outcome⟩ := close_spec invariant.ledger processId rawHandle
    refine ⟨ready, boots, ?_⟩
    rcases outcome with ⟨_, expected, result, _⟩ |
      ⟨_, after, _, _, _, _, _, result, found, located, entry, named, dropped, collected⟩ <;> simp only [step, result]
    · exact ⟨.refused nofun nofun, mt Except.error.inj expected⟩
    · exact ⟨.closed found located entry named dropped collected, nofun⟩
  | registerSpawnedProcess parent child endpoint rights =>
    have bootstrap : ∀ process, state.processes 0 = some process → process.id = bootstrapProcessId :=
      fun process registered => invariant.roster.bootstrap _ (ids_of_process registered)
    obtain ⟨ready, boots, outcome⟩ := registerSpawnedProcess_spec state parent child endpoint rights bootstrap
    refine ⟨ready, boots, ?_⟩
    rcases outcome with ⟨_, after, expected, result, churned⟩ |
      ⟨_, after, _, _, _, _, _, _, _, _, result, spawned⟩ <;> simp only [step, result]
    · exact ⟨.unspawned churned, mt Except.error.inj expected⟩
    · exact ⟨.spawned spawned, nofun⟩
  | exitProcess processId =>
    refine ⟨state, .inl rfl, ?_⟩
    rcases exitProcess_spec invariant.ledger processId with
      ⟨_, expected, result, _⟩ | ⟨_, after, _, _, result, isolated, found, exited, collected⟩ <;>
      simp only [step, result]
    · exact ⟨.refused nofun nofun, mt Except.error.inj expected⟩
    · exact ⟨.exited isolated found exited collected, nofun⟩
  | cancelWaiter waiterId =>
    exact ⟨state, .inl rfl, .cancelled (cancelWaiter_withdrawn state waiterId), nofun⟩

theorem Outcome.chain {ready : UserIpcState} {operation : Operation} {result : Except UserIpcError Reply}
    (outcome : Outcome ready operation result after) : Chain ready after := by
  cases outcome with
  | refused | peerClosed | nothing => exact .refl
  | uncreated _ churned | unspawned churned => exact .single (.churned churned)
  | created _ created => exact .single (.created created)
  | sent _ _ sent => exact .single (.sent sent)
  | received _ received => exact .single (.received received)
  | waited _ withdrawn | cancelled withdrawn => exact .single (.withdrawn withdrawn)
  | blocked blocked => exact .single (.blocked blocked)
  | closed _ _ _ _ dropped collected =>
    exact (Relation.ReflTransGen.single (.dropped dropped)).tail (.collected collected)
  | spawned spawned => exact .single (.spawned spawned)
  | exited _ _ exited collected => exact (Relation.ReflTransGen.single (.exited exited)).tail (.collected collected)

theorem step_chain (invariant : Invariant state) (operation : Operation) : Chain state (state.step operation).2 := by
  obtain ⟨ready, boots, outcome, _⟩ := step_outcome invariant operation
  exact boots.chain.trans outcome.chain

theorem invariant_new : Invariant new where
  ledger := by
    refine ⟨fun object => ?_, fun object => ?_, fun c pair held => ?_⟩
    · simp [ownerCount, slotCount, addressSpaceCount, namedCount, handleCount, tokenCount, new]
    · simp [ownerCount, slotCount, addressSpaceCount, new]
    · cases held
  confined object := by simp [namedCount, handleCount, tokenCount, new]
  roster := ⟨nofun, nofun, nofun, fun _ _ => rfl⟩
  waits := ⟨fun _ => rfl, nofun, nofun, nofun⟩

theorem step_invariant (state : UserIpcState) (operation : Operation) (invariant : Invariant state) :
    Invariant (state.step operation).2 :=
  Runs.chain_invariant (P := Invariant) (fun _ _ link => link.invariant) (step_chain invariant operation) invariant

theorem run_invariant (operations : List Operation) : Invariant (run operations) :=
  Runs.run_invariant step_invariant invariant_new operations

/-- The object is the channel or an endpoint of an occupied slot, or the address
space of a registered process. -/
def isOwned (state : UserIpcState) (object : ObjectId) : Bool :=
  ((List.finRange channelCapacity).any fun c => (state.channels c).owned.contains object) ||
    (List.finRange maxUserProcesses).any fun i => (addressSpaces (state.processes i)).contains object

theorem ownerCount_pos {object : ObjectId} :
    0 < state.ownerCount object ↔ state.isOwned object = true := by
  unfold ownerCount slotCount addressSpaceCount isOwned
  rw [Nat.add_pos_iff_pos_or_pos, Bool.or_eq_true, List.any_eq_true, List.any_eq_true]
  simp only [List.mem_finRange, true_and, List.contains_iff_mem, Finset.sum_pos_iff, Finset.mem_univ,
    List.count_pos_iff]

theorem Ledger.ownerCount_eq (ledger : Ledger state) (object : ObjectId) :
    state.ownerCount object = if state.isOwned object then 1 else 0 := by
  have single := ledger.single object
  have owned : 0 < state.ownerCount object ↔ state.isOwned object = true := ownerCount_pos
  split
  · next here =>
    have := owned.mpr here
    omega
  · next here =>
    have := mt owned.mp here
    omega

/-- In every reachable state the reference count of an object is one for its
owner, if it has one, one for each handle and one for each queued token that
names it, and the object validates exactly while there is such a reference. -/
theorem references_accounted (operations : List Operation) (object : ObjectId) :
    let state := run operations
    let accounted := (if state.isOwned object then 1 else 0) + state.handleCount object + state.tokenCount object
    state.registry.refs object = accounted ∧
      (state.registry.validate object object.kind = .ok () ↔ accounted ≠ 0) := by
  intro state accounted
  have ledger := (run_invariant operations).ledger
  have count : state.registry.refs object = accounted := by
    rw [ledger.balanced object, ledger.ownerCount_eq object, namedCount, ← Nat.add_assoc]
  exact ⟨count, by rw [ObjectRegistry.validate_iff, count, Nat.pos_iff_ne_zero]⟩

end Nagi.Kernel.UserIpcState
