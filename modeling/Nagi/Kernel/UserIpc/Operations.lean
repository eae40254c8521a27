import Nagi.Kernel.UserIpc.Balance

/-! Each operation of the manager as a sequence of transitions. -/

namespace Nagi.Kernel

open Lib WaitRegistry ObjectRegistry Function List ChannelPair

namespace UserIpcState

open HandleTable

/-- The state an operation works on: the bootstrap process is registered if it
was not, unless its address space could not be created. -/
def Boots (before after : UserIpcState) : Prop :=
  after = before ∨ ∃ addressSpace, Booted before after addressSpace

theorem small : objectCapacity ≤ 2 ^ 32 := by decide

theorem smallTable : handleCapacity ≤ 2 ^ 32 := by decide

variable {before after : UserIpcState}

theorem Boots.channels_eq (boots : Boots before after) : after.channels = before.channels := by
  rcases boots with rfl | ⟨_, booted⟩
  · rfl
  · exact booted.channels_eq

theorem Boots.ledger (boots : Boots before after) (ledger : Ledger before) : Ledger after := by
  rcases boots with rfl | ⟨addressSpace, booted⟩
  · exact ledger
  · exact booted.ledger ledger

theorem initializeState_spec (state : UserIpcState) :
    ∃ ready, Boots state ready ∧
      ((∃ cause, state.initializeState = (.error (.handle cause), ready)) ∨
        state.initializeState = (.ok (), ready) ∧ (ready.processes 0).isSome = true) := by
  unfold initializeState
  split
  · next registered => exact ⟨state, .inl rfl, .inr ⟨rfl, registered⟩⟩
  next missing =>
  split
  · exact ⟨state, .inl rfl, .inl ⟨_, rfl⟩⟩
  · next addressSpace registry created =>
    obtain ⟨_, fresh, _, refs, evolves⟩ := create_spec small created
    refine ⟨_, .inr ⟨addressSpace, ?_, fresh, refs, evolves, rfl⟩, .inr ⟨rfl, by simp [withProcess]⟩⟩
    simpa using missing

variable {state : UserIpcState} {processId : Nat} {i : Fin maxUserProcesses} {process : Process handleCapacity}

theorem processRef_eq_ok : state.processRef processId = .ok (i, process) ↔
      state.processIndex processId = .ok i ∧ state.processes i = some process := by
  unfold processRef
  cases found : state.processIndex processId with
  | error error => simp
  | ok j =>
    dsimp only
    cases held : state.processes j with
    | none =>
      simp only [reduceCtorEq, Except.ok.injEq, false_iff]
      rintro ⟨rfl, other⟩
      rw [held] at other
      cases other
    | some other =>
      simp only [Except.ok.injEq, Prod.mk.injEq]
      constructor
      · rintro ⟨rfl, rfl⟩
        exact ⟨rfl, held⟩
      · rintro ⟨rfl, same⟩
        rw [held] at same
        cases same
        exact ⟨rfl, rfl⟩

theorem validatedProcess_of_ref (found : state.processRef processId = .ok (i, process)) :
    state.validatedProcess processId = .ok (i, process) := by
  obtain ⟨index, held⟩ := processRef_eq_ok.mp found
  simp only [validatedProcess, index, held]

variable {error : UserIpcError}

theorem processIndex_error (failed : state.processIndex processId = .error error) : error = .invalidProcess := by
  revert failed
  fun_cases state.processIndex processId <;> simp [eq_comm]

theorem processRef_error (failed : state.processRef processId = .error error) : error = .invalidProcess := by
  unfold processRef at failed
  split at failed
  · next missing => cases failed; exact processIndex_error missing
  · split at failed <;> cases failed; rfl

theorem processMut_spec (state : UserIpcState) (processId : Nat) :
    ∃ ready, Boots state ready ∧
      ((∃ error, (error ≠ .capacity ∧ error ≠ .peerClosed ∧ error ≠ .expectFailed) ∧
          state.processMut processId = (.error error, ready)) ∨
        ∃ i process, state.processMut processId = (.ok (i, process), ready) ∧
          ready.processRef processId = .ok (i, process)) := by
  obtain ⟨ready, boots, failed | ⟨started, _⟩⟩ := initializeState_spec state
  · obtain ⟨cause, failed⟩ := failed
    exact ⟨ready, boots, .inl ⟨.handle cause, ⟨nofun, nofun, nofun⟩, by simp only [processMut, failed]⟩⟩
  · refine ⟨ready, boots, ?_⟩
    simp only [processMut, started]
    cases found : ready.processRef processId with
    | error error =>
      cases processRef_error found
      exact .inl ⟨.invalidProcess, ⟨nofun, nofun, nofun⟩, rfl⟩
    | ok result => exact .inr ⟨result.1, result.2, rfl, rfl⟩

variable {handle : Handle} {c : Fin channelCapacity} {endpoint : ObjectId}

theorem locateEndpoint_spec (located : state.locateEndpoint processId handle = .ok (c, endpoint)) :
    ∃ i process capability, state.processRef processId = .ok (i, process) ∧
      process.handles.entry state.registry handle = .ok capability ∧ capability.object = endpoint ∧
      endpoint.kind = .channelEndpoint ∧ state.channelWith endpoint = some c := by
  revert located
  fun_cases state.locateEndpoint processId handle with
  | case5 i process found object resolved kind d searched =>
    rintro ⟨⟩
    obtain ⟨capability, entry, same⟩ := resolve_eq_ok.mp resolved
    exact ⟨i, process, capability, found, entry, same, not_not.mp kind, searched⟩
  | _ => simp

variable {capability : Capability} {pair : ChannelPair}

theorem Ledger.locateEndpoint_of_entry (ledger : Ledger state) (found : state.processRef processId = .ok (i, process))
    (entry : process.handles.entry state.registry handle = .ok capability)
    (channel : (state.channels c).pair = some pair) (member : capability.object ∈ pair.endpoints) :
    state.locateEndpoint processId handle = .ok (c, capability.object) := by
  have place : capability.object ∈ (state.channels c).endpoints := by
    rw [ChannelSlot.endpoints_of_pair channel]
    exact member
  simp [locateEndpoint, found, HandleTable.resolve, entry, Except.map, ChannelPair.endpoint_kind member,
    ledger.channelWith_eq.mpr place]

theorem Ledger.located_pair (ledger : Ledger state) (found : state.channelWith endpoint = some c) :
    ∃ pair, (state.channels c).pair = some pair ∧ endpoint ∈ pair.endpoints := by
  have member := ledger.channelWith_eq.mp found
  unfold ChannelSlot.endpoints at member
  split at member
  · cases member
  · next pair held => exact ⟨pair, held, member⟩

theorem Ledger.located (ledger : Ledger state) (found : state.processRef processId = .ok (i, process))
    (located : state.locateEndpoint processId handle = .ok (c, endpoint)) : ∃ capability pair,
      process.handles.entry state.registry handle = .ok capability ∧ capability.object = endpoint ∧
        (state.channels c).pair = some pair ∧ endpoint ∈ pair.endpoints := by
  obtain ⟨_, _, capability, found', entry, named, _, searched⟩ := locateEndpoint_spec located
  rw [found] at found'
  cases found'
  obtain ⟨pair, held, member⟩ := ledger.located_pair searched
  exact ⟨capability, pair, entry, named, held, member⟩

theorem withProcess_self (held : state.processes i = some process) : state.withProcess i process = state := by
  rw [withProcess, ← held, update_eq_self]

theorem withPair_self (held : (state.channels c).pair = some pair) : state.withPair c pair = state := by
  rw [withPair, ← ChannelSlot.eq_of_pair held, update_eq_self]

theorem SameProcess.refl (process : Process handleCapacity) : SameProcess process process := ⟨rfl, rfl, fun _ => rfl⟩

theorem sameProcesses (processes : Fin maxUserProcesses → Option (Process handleCapacity))
    (i : Fin maxUserProcesses) : Option.Rel SameProcess (processes i) (processes i) := by
  cases processes i with
  | none => exact .none
  | some process => exact .some (.refl process)

variable {registry : ObjectRegistry objectCapacity}

theorem churned_registry
    (refs : ∀ object, registry.refs object = state.registry.refs object) (evolves : state.registry.Evolves registry) :
    Churned state { state with registry := registry } :=
  ⟨rfl, rfl, refs, evolves, sameProcesses state.processes⟩

theorem Churned.refl (state : UserIpcState) : Churned state state := churned_registry (fun _ => rfl) (.refl _)

theorem churned_process {process' : Process handleCapacity}
    (held : state.processes i = some process) (same : SameProcess process process')
    (refs : ∀ object, registry.refs object = state.registry.refs object) (evolves : state.registry.Evolves registry) :
    Churned state ({ state with registry := registry }.withProcess i process') := by
  refine ⟨rfl, rfl, refs, evolves, fun j => ?_⟩
  by_cases here : j = i
  · subst here
    simp only [withProcess, update_self, held]
    exact .some same
  · simp only [withProcess, update_of_ne here]
    exact sameProcesses state.processes j

structure NewObjects (before after : ObjectRegistry objectCapacity) (channel endpointA endpointB : ObjectId) :
    Prop where
  fresh : ∀ object ∈ [channel, endpointA, endpointB], before.refs object = 0 ∧ ¬before.Spent object
  distinct : [channel, endpointA, endpointB].Nodup
  refs : ∀ object, after.refs object = before.refs object + [channel, endpointA, endpointB].count object
  evolves : before.Evolves after

variable {channel endpointA endpointB : ObjectId}

theorem newObjects {first second third fourth : ObjectRegistry objectCapacity}
    (makeChannel : first.create .channel = .ok (channel, second))
    (makeA : second.create .channelEndpoint = .ok (endpointA, third))
    (makeB : third.create .channelEndpoint = .ok (endpointB, fourth)) :
    NewObjects first fourth channel endpointA endpointB := by
  obtain ⟨_, freshC, unspentC, refsC, evolvesC⟩ := create_spec small makeChannel
  obtain ⟨_, freshA, unspentA, refsA, evolvesA⟩ := create_spec small makeA
  obtain ⟨_, freshB, unspentB, refsB, evolvesB⟩ := create_spec small makeB
  have notA : endpointA ≠ channel := by
    rintro rfl
    simp [refsC] at freshA
  have notB : endpointB ≠ endpointA := by
    rintro rfl
    simp [refsA] at freshB
  have notC : endpointB ≠ channel := by
    rintro rfl
    simp [refsA, refsC] at freshB
  rw [refsC, if_neg notA] at freshA
  rw [refsA, if_neg notB, refsC, if_neg notC] at freshB
  refine ⟨?_, ?_, fun object => ?_, evolvesC.trans (evolvesA.trans evolvesB)⟩
  · simp only [mem_cons, not_mem_nil, or_false]
    rintro object (rfl | rfl | rfl)
    · exact ⟨freshC, unspentC⟩
    · exact ⟨freshA, fun spent => unspentA (evolvesC.spent _ spent)⟩
    · exact ⟨freshB, fun spent => unspentB (evolvesA.spent _ (evolvesC.spent _ spent))⟩
  · simp [notA.symm, notB.symm, notC.symm]
  · rw [refsB, refsA, refsC]
    simp only [count_cons, count_nil, beq_iff_eq, @eq_comm _ _ object]
    omega

theorem releaseCreatedObjects_spec {before after : ObjectRegistry objectCapacity}
    (refs : ∀ object, after.refs object = before.refs object + [channel, endpointA, endpointB].count object) :
    (∀ object, (releaseCreatedObjects after channel endpointA endpointB).refs object = before.refs object) ∧
      after.Evolves (releaseCreatedObjects after channel endpointA endpointB) := by
  have order : ∀ object, [channel, endpointA, endpointB].count object =
      [endpointA, endpointB, channel].count object := by
    simp only [count_cons, count_nil]
    omega
  have enough : ∀ object, [endpointA, endpointB, channel].count object ≤ after.refs object := by
    intro object
    rw [refs, order]
    omega
  obtain ⟨first, releaseA, boundA, countsA, evolvesA⟩ := release_cons enough
  obtain ⟨second, releaseB, boundB, countsB, evolvesB⟩ := release_cons boundA
  obtain ⟨third, releaseC, _, countsC, evolvesC⟩ := release_cons boundB
  have result : releaseCreatedObjects after channel endpointA endpointB = third := by
    simp only [releaseCreatedObjects, ObjectRegistry.discard, releaseA, releaseB, releaseC]
  rw [result]
  refine ⟨fun object => ?_, evolvesA.trans (evolvesB.trans evolvesC)⟩
  have := countsA object
  have := countsB object
  have := countsC object
  have := refs object
  have := order object
  rw [count_nil] at *
  omega

variable {object : ObjectId}

theorem discard_restores {before after : ObjectRegistry objectCapacity}
    (refs : ∀ other, after.refs other = before.refs other + if other = object then 1 else 0) (other : ObjectId) :
    (after.discard object).refs other = before.refs other := by
  have live : 0 < after.refs object := by
    rw [refs, if_pos rfl]
    omega
  have := discard_spec live other
  have := refs other
  omega

variable {table next : HandleTable handleCapacity}

section
variable {i : Fin handleCapacity} (filled : Filled table next i capability)
include filled

theorem Filled.entry (live : 0 < registry.refs capability.object) :
    next.entry registry (.new i.val (table.slots i).generation) = .ok capability := by
  rw [← filled.generation]
  exact entry_eq_ok.mpr ⟨i, slot_new_handle smallTable next i, filled.held, live⟩

theorem Filled.close (live : 0 < registry.refs capability.object) :
    ∃ closed after, next.close registry (.new i.val (table.slots i).generation) = .ok (closed, after) ∧
      (∀ k, (closed.slots k).capability = (table.slots k).capability) ∧
      (∀ object, after.refs object + (if object = capability.object then 1 else 0) = registry.refs object) ∧
      registry.Evolves after := by
  have named := slot_new_handle smallTable next i
  rw [filled.generation] at named
  obtain ⟨⟨closed, after⟩, done⟩ := close_ok (Filled.entry filled live)
  obtain ⟨j, other, found, emptied, released⟩ := close_spec done
  rw [named] at found
  cases found
  have same := filled.held.symm.trans emptied.held
  cases same
  obtain ⟨counts, evolves⟩ := release_counts released
  refine ⟨closed, after, done, fun k => ?_, counts, evolves⟩
  by_cases here : k = i
  · subst here
    rw [emptied.free, filled.free]
  · rw [emptied.others k here, filled.others k here]

end

theorem installPair_spec
    (found : state.processRef processId = .ok (i, process)) (vacant : (state.channels c).pair = none)
    (empty : ∀ index, (pair.queues index).toList = [])
    (objects : NewObjects state.registry registry pair.object pair.endpointA pair.endpointB) :
    (∃ cause after, state.installPair processId c pair registry = (.error (.handle cause), after) ∧
        Churned state after) ∨
      ∃ endpoints after middle handles k l, state.installPair processId c pair registry = (.ok endpoints, after) ∧
        Created state after i c process pair middle handles k l := by
  have held := (processRef_eq_ok.mp found).2
  simp only [installPair, validatedProcess_of_ref found]
  rcases process.handles.insert_spec registry pair.endpointA endpointRights with
    ⟨cause, after, inserted, refs, evolves⟩ | ⟨first, middle, after, k, inserted, filled, rfl, refs, evolves⟩
  · simp only [inserted]
    obtain ⟨restored, later⟩ := releaseCreatedObjects_spec
      (fun object => (refs object).trans (objects.refs object))
    exact .inl ⟨cause, _, rfl, churned_process held (.refl process) restored
      (objects.evolves.trans (evolves.trans later))⟩
  · have live : 0 < after.refs pair.endpointA := by
      rw [refs, if_pos rfl]
      omega
    simp only [inserted]
    rcases middle.insert_spec after pair.endpointB endpointRights with
      ⟨cause, after', inserted', refs', evolves'⟩ |
      ⟨second, handles, after', l, inserted', filled', rfl, refs', evolves'⟩
    · obtain ⟨closed, final, close, same, counts, closes⟩ := Filled.close filled ((refs' pair.endpointA).symm ▸ live)
      simp only [inserted', close]
      have remaining : ∀ object, final.refs object = state.registry.refs object +
          [pair.object, pair.endpointA, pair.endpointB].count object := by
        intro object
        have := counts object
        have := refs object
        have := refs' object
        have := objects.refs object
        dsimp only at *
        omega
      obtain ⟨restored, later⟩ := releaseCreatedObjects_spec remaining
      exact .inl ⟨cause, _, rfl, churned_process held ⟨rfl, rfl, same⟩ restored
        (objects.evolves.trans (evolves.trans (evolves'.trans (closes.trans later))))⟩
    · simp only [inserted']
      refine .inr ⟨_, _, middle, handles, k, l, rfl, held, vacant, empty, objects.fresh, objects.distinct, ?_,
        objects.evolves.trans (evolves.trans evolves'), filled, filled', rfl⟩
      intro object
      have := refs object
      have := refs' object
      have := objects.refs object
      simp only [withPair, withProcess, owned, endpoints, count_cons, count_nil,
        beq_iff_eq, @eq_comm _ _ object] at *
      omega

theorem ChannelPair.new_spec (made : ChannelPair.new channel endpointA endpointB = .ok pair) :
    pair.object = channel ∧ pair.endpointA = endpointA ∧ pair.endpointB = endpointB ∧
      ∀ index, (pair.queues index).toList = [] := by
  unfold ChannelPair.new at made
  split at made <;> cases made
  exact ⟨rfl, rfl, rfl, fun _ => Ring.toList_empty⟩

theorem createPair_spec (state : UserIpcState) (processId : Nat) :
    ∃ ready, Boots state ready ∧
      ((∃ error after, error ≠ .expectFailed ∧ state.createPair processId = (.error error, after) ∧
          Churned ready after ∧
          (error = .capacity → after = ready ∧ ∀ c, (ready.channels c).pair.isSome = true)) ∨
        ∃ endpoints after i c process pair middle handles k l,
          state.createPair processId = (.ok endpoints, after) ∧
          ready.processRef processId = .ok (i, process) ∧
          Created ready after i c process pair middle handles k l) := by
  obtain ⟨ready, boots, ⟨error, unlike, failed⟩ | ⟨i, process, started, found⟩⟩ := processMut_spec state processId
  · exact ⟨ready, boots, .inl ⟨error, ready, unlike.2.2, by simp only [createPair, failed], .refl _,
      fun same => absurd same unlike.1⟩⟩
  refine ⟨ready, boots, ?_⟩
  simp only [createPair, started]
  rcases searched : Fin.find? fun c => (ready.channels c).pair.isNone with _ | c
  · refine .inl ⟨.capacity, _, nofun, rfl, .refl _, fun _ => ⟨rfl, fun c => ?_⟩⟩
    simpa using Fin.eq_false_of_find?_eq_none searched c
  have vacant : (ready.channels c).pair = none := by simpa using Fin.eq_true_of_find?_eq_some searched
  rcases makeChannel : ready.registry.create .channel with error | ⟨channel, second⟩
  · exact .inl ⟨.handle error, _, nofun, rfl, .refl _, nofun⟩
  obtain ⟨_, _, _, refsC, evolvesC⟩ := create_spec small makeChannel
  rcases makeA : second.create .channelEndpoint with error | ⟨endpointA, third⟩
  · refine .inl ⟨.handle error, _, nofun, ?_, churned_registry (discard_restores refsC)
      (evolvesC.trans (second.discard_evolves channel)), nofun⟩
    simp only [makeA]
  rcases makeB : third.create .channelEndpoint with error | ⟨endpointB, fourth⟩
  · obtain ⟨_, _, _, refsA, evolvesA⟩ := create_spec small makeA
    have refs := discard_restores refsA
    refine .inl ⟨.handle error, _, nofun, ?_,
      churned_registry (discard_restores fun other => (refs other).trans (refsC other))
        (evolvesC.trans (evolvesA.trans ((third.discard_evolves endpointA).trans
          ((third.discard endpointA).discard_evolves channel)))), nofun⟩
    simp only [makeA, makeB]
  have objects := newObjects makeChannel makeA makeB
  simp only [makeA, makeB]
  rcases paired : ChannelPair.new channel endpointA endpointB with error | pair
  · obtain ⟨restored, later⟩ := releaseCreatedObjects_spec objects.refs
    exact .inl ⟨.channel error, _, nofun, rfl, churned_registry restored (objects.evolves.trans later), nofun⟩
  obtain ⟨rfl, rfl, rfl, empty⟩ := ChannelPair.new_spec paired
  rcases installPair_spec found vacant empty objects with
    ⟨cause, after, result, churned⟩ | ⟨endpoints, after, middle, handles, k, l, result, created⟩
  · exact .inl ⟨.handle cause, after, nofun, result, churned, nofun⟩
  · exact .inr ⟨endpoints, after, i, c, process, pair, middle, handles, k, l, result, found, created⟩

variable {message : OutgoingMessage}

theorem addTransfers_error {transfers : List ChannelHandleTransfer}
    (failed : addTransfers message transfers = .error error) :
    error ≠ .peerClosed ∧ error ≠ .expectFailed := by
  fun_induction addTransfers message transfers with
  | case5 _ _ _ _ _ _ _ _ ih => exact ih failed
  | _ => cases failed <;> exact ⟨nofun, nofun⟩

variable {request : ChannelSendRequest}

theorem outgoingMessage_error (failed : outgoingMessage request = .error error) :
    error ≠ .peerClosed ∧ error ≠ .expectFailed := by
  revert failed
  fun_cases outgoingMessage request with
  | case3 => exact addTransfers_error
  | _ => rintro ⟨⟩; exact ⟨nofun, nofun⟩

theorem locateEndpoint_error (failed : state.locateEndpoint processId handle = .error error) :
    error ≠ .peerClosed ∧ error ≠ .expectFailed := by
  revert failed
  fun_cases state.locateEndpoint processId handle <;> rintro ⟨⟩ <;> exact ⟨nofun, nofun⟩

theorem processIndex_ne_zero (found : state.processIndex processId = .ok i)
    (isolated : processId ≠ bootstrapProcessId) : i ≠ 0 := by
  revert found
  fun_cases state.processIndex processId with
  | case4 _ _ _ nonzero =>
    rintro ⟨⟩
    exact nonzero
  | _ => simp_all

/-- Every release that the exit of a process makes succeeds: one for each handle, and one for the address space. -/
theorem exit_releases_ok (ledger : Ledger state) (registered : state.processes i = some process) :
    state.registry.releaseAll process.handles.objects = (none, (process.handles.closeAll state.registry).2) ∧
      0 < (process.handles.closeAll state.registry).2.refs process.addressSpace ∧
      (∀ object, (process.handles.closeAll state.registry).2.refs object + process.handles.objects.count object =
        state.registry.refs object) ∧
      state.registry.Evolves (process.handles.closeAll state.registry).2 := by
  have handles : ∀ object, process.handles.objects.count object ≤ state.handleCount object := by
    intro object
    have cell := Table.le_sum (fun i => (tableObjects (state.processes i)).count object) i
    rw [registered, tableObjects_some] at cell
    rw [handleCount]
    exact cell
  have spaces : ∀ object, (if object = process.addressSpace then 1 else 0) ≤ state.addressSpaceCount object := by
    intro object
    have cell := Table.le_sum (fun i => (addressSpaces (state.processes i)).count object) i
    rw [registered, addressSpaces_some] at cell
    rw [addressSpaceCount]
    simpa only [count_cons, count_nil, beq_iff_eq, Nat.zero_add, @eq_comm _ object] using cell
  have enough : ∀ object, process.handles.objects.count object + (if object = process.addressSpace then 1 else 0) ≤
      state.registry.refs object := by
    intro object
    have := handles object
    have := spaces object
    have := ledger.balanced object
    unfold ownerCount namedCount at this
    omega
  obtain ⟨closed, released, counts, evolves⟩ := state.registry.releaseAll_spec process.handles.objects
    (fun object => Nat.le_trans (Nat.le_add_right _ _) (enough object))
  have result : (process.handles.closeAll state.registry).2 = closed := by
    rw [closeAll_registry, ← releaseAll_snd, released]
  rw [result]
  refine ⟨released, ?_, counts, evolves⟩
  have := enough process.addressSpace
  have := counts process.addressSpace
  rw [if_pos rfl] at *
  omega

theorem exit_releases (ledger : Ledger state) (registered : state.processes i = some process) :
    ∃ registry, (process.handles.closeAll state.registry).2.discard process.addressSpace = registry ∧
      (∀ object, registry.refs object + process.handles.objects.count object +
        (if object = process.addressSpace then 1 else 0) = state.registry.refs object) ∧
      state.registry.Evolves registry := by
  obtain ⟨_, live, counts, evolves⟩ := exit_releases_ok ledger registered
  refine ⟨_, rfl, fun object => ?_, evolves.trans (discard_evolves _ process.addressSpace)⟩
  have := counts object
  have := discard_spec live object
  omega

theorem peer_eq {slot : ChannelSlot} (held : slot.pair = some pair) (endpoint : ObjectId) :
    (if slot.endpointA = some endpoint then slot.endpointB else slot.endpointA) = some (pair.peerOf endpoint) := by
  rw [ChannelSlot.eq_of_pair held]
  simp only [ChannelSlot.occupied, peerOf, Option.some.injEq, @eq_comm _ pair.endpointA]
  split <;> rfl

/-- `send` past the request checks, on an endpoint whose peer nothing names. -/
theorem send_peerClosed {ready : UserIpcState} {endpoint : BitVec 64}
    {found : Fin maxUserProcesses × Process handleCapacity}
    (started : state.processMut processId = (.ok found, ready)) (checked : outgoingMessage request = .ok message)
    (located : ready.locateEndpoint processId ⟨endpoint⟩ = .ok (c, object))
    (held : (ready.channels c).pair = some pair) (closed : ready.endpointReachable (pair.peerOf object) = false) :
    state.send processId endpoint request = (.error .peerClosed, ready) := by
  simp only [send, started, checked, located, peer_eq held, Option.any_some, closed, Bool.not_false, if_true]

section
variable (ledger : Ledger state)
include ledger
variable (processId : Nat)

/-- `send` queues the message, is refused for want of a peer, or is refused for
another reason; a refusal changes nothing. -/
theorem send_spec (endpoint : BitVec 64) (request : ChannelSendRequest) : ∃ ready, Boots state ready ∧
      ((∃ error, error ≠ .expectFailed ∧ state.send processId endpoint request = (.error error, ready) ∧
          (error = .peerClosed → ∃ c object pair,
          ready.locateEndpoint processId ⟨endpoint⟩ = .ok (c, object) ∧ (ready.channels c).pair = some pair ∧
          object ∈ pair.endpoints ∧ ready.endpointReachable (pair.peerOf object) = false)) ∨
        ∃ woken after i c process process' pair pair' message capability index tokens,
          state.send processId endpoint request = (.ok woken, after) ∧
          ready.processRef processId = .ok (i, process) ∧ outgoingMessage request = .ok message ∧
          Sent ready after i c process process' pair pair' ⟨endpoint⟩ message capability index tokens woken) := by
  obtain ⟨ready, boots, ⟨error, unlike, failed⟩ | ⟨i, process, started, found⟩⟩ := processMut_spec state processId
  · exact ⟨ready, boots, .inl ⟨error, unlike.2.2, by simp only [send, failed], fun same => absurd same unlike.2.1⟩⟩
  refine ⟨ready, boots, ?_⟩
  rcases checked : outgoingMessage request with error | message
  · obtain ⟨isOpen, expected⟩ := outgoingMessage_error checked
    exact .inl ⟨error, expected, by simp only [send, started, checked], fun same => absurd same isOpen⟩
  rcases located : ready.locateEndpoint processId ⟨endpoint⟩ with error | ⟨c, object⟩
  · obtain ⟨isOpen, expected⟩ := locateEndpoint_error located
    exact .inl ⟨error, expected, by simp only [send, started, checked, located], fun same => absurd same isOpen⟩
  obtain ⟨capability, pair, entry, rfl, held, member⟩ := (boots.ledger ledger).located found located
  rcases reachable : ready.endpointReachable (pair.peerOf capability.object) with _ | _
  · exact .inl ⟨.peerClosed, nofun, send_peerClosed started checked located held reachable,
      fun _ => ⟨c, _, pair, rfl, held, member, reachable⟩⟩
  have registered := (processRef_eq_ok.mp found).2
  simp only [send, started, checked, located, peer_eq held, Option.any_some, reachable, Bool.not_true,
    Bool.false_eq_true, if_false, validatedProcess_of_ref found, held]
  rcases pair.send_spec ready.registry process ⟨endpoint⟩ message ready.waiters with
    ⟨error, failed⟩ | ⟨pair', process', waiters, capability', index, tokens, done, sent⟩
  · refine .inl ⟨.channel error, nofun, ?_, nofun⟩
    simp only [failed]
    rw [withProcess_self registered, withPair_self held]
  · cases entry.symm.trans sent.found
    let after := ({ ready with waiters := waiters.takeWokenWaiters.2 }.withProcess i process').withPair c pair'
    refine .inr ⟨waiters.takeWokenWaiters.1, after, i, c, process, process', pair, pair', message,
      capability, index, tokens, ?_, found, rfl, registered, held, ⟨waiters, sent, rfl⟩, reachable, rfl⟩
    simp only [done, after]

theorem tryReceive_spec (endpoint : BitVec 64) : ∃ ready, Boots state ready ∧
      ((∃ error, error ≠ .expectFailed ∧ state.tryReceive processId endpoint = (.error error, ready)) ∨
        state.tryReceive processId endpoint = (.ok none, ready) ∨
        ∃ message after i c process process' pair pair' capability index entry,
          state.tryReceive processId endpoint = (.ok (some (receiveResult message)), after) ∧
          ready.processRef processId = .ok (i, process) ∧
          Received ready after i c process process' pair pair' ⟨endpoint⟩ message capability index entry) := by
  obtain ⟨ready, boots, ⟨error, unlike, failed⟩ | ⟨i, process, started, found⟩⟩ := processMut_spec state processId
  · exact ⟨ready, boots, .inl ⟨error, unlike.2.2, by simp only [tryReceive, failed]⟩⟩
  refine ⟨ready, boots, ?_⟩
  have ledger := boots.ledger ledger
  rcases located : ready.locateEndpoint processId ⟨endpoint⟩ with error | ⟨c, object⟩
  · exact .inl ⟨error, (locateEndpoint_error located).2, by simp only [tryReceive, started, located]⟩
  obtain ⟨_, pair, _, _, held, _⟩ := ledger.located found located
  have registered := (processRef_eq_ok.mp found).2
  simp only [tryReceive, started, located, validatedProcess_of_ref found, held]
  rcases pair.receive_spec ready.registry process ⟨endpoint⟩ (ledger.full c pair held) with
    ⟨error, failed⟩ | nothing | ⟨message, pair', process', capability, index, entry, done, received⟩
  · refine .inl ⟨.channel error, nofun, ?_⟩
    simp only [failed]
    rw [withProcess_self registered, withPair_self held]
  · refine .inr (.inl ?_)
    simp only [nothing, Option.map_none]
    rw [withProcess_self registered, withPair_self held]
  · refine .inr (.inr ⟨message, _, i, c, process, process', pair, pair', capability, index, entry, ?_, found,
      registered, held, received, rfl⟩)
    simp only [done, Option.map_some]

theorem close_spec (rawHandle : BitVec 64) : ∃ ready, Boots state ready ∧
      ((∃ error, error ≠ .expectFailed ∧ state.close processId rawHandle = (.error error, ready) ∧
          ((state.processMut processId).1.isOk = false ∨
            ((state.processMut processId).2.locateEndpoint processId ⟨rawHandle⟩).isOk = false)) ∨
        ∃ middle after i process handles k capability,
          state.close processId rawHandle = (.ok (), after) ∧ ready.processRef processId = .ok (i, process) ∧
          (ready.locateEndpoint processId ⟨rawHandle⟩).isOk = true ∧
          process.handles.entry ready.registry ⟨rawHandle⟩ = .ok capability ∧
          process.handles.slot ⟨rawHandle⟩ = .ok k ∧
          Dropped ready middle i process handles k capability ∧ Collected middle after) := by
  obtain ⟨ready, boots, ⟨error, unlike, failed⟩ | ⟨i, process, started, found⟩⟩ := processMut_spec state processId
  · exact ⟨ready, boots, .inl ⟨error, unlike.2.2, by simp only [close, failed], .inl (by rw [failed]; rfl)⟩⟩
  refine ⟨ready, boots, ?_⟩
  have ledger := boots.ledger ledger
  rcases located : ready.locateEndpoint processId ⟨rawHandle⟩ with error | result
  · exact .inl ⟨error, (locateEndpoint_error located).2, by simp only [close, started, located],
      .inr (by rw [started, located]; rfl)⟩
  obtain ⟨capability, _, entry, _⟩ := ledger.located found located
  have registered := (processRef_eq_ok.mp found).2
  obtain ⟨⟨handles, registry⟩, closed⟩ := close_ok entry
  obtain ⟨k, capability', named, emptied, released⟩ := HandleTable.close_spec closed
  obtain ⟨k', named', present, live⟩ := entry_eq_ok.mp entry
  rw [named] at named'
  cases named'
  cases present.symm.trans emptied.held
  obtain ⟨refs, evolves⟩ := release_counts released
  let middle := { ready with registry := registry }.withProcess i { process with handles := handles }
  have dropped : Dropped ready middle i process handles k capability := ⟨registered, emptied, refs, evolves, rfl⟩
  obtain ⟨after, done, collected⟩ := collectUnreachableChannels_spec (dropped.ledger ledger)
  refine .inr ⟨middle, after, i, process, handles, k, capability, ?_, found, rfl, entry, named, dropped, collected⟩
  simp only [close, started, located, validatedProcess_of_ref found, closed]
  exact done

theorem exitProcess_spec : (∃ error, error ≠ .expectFailed ∧ state.exitProcess processId = (.error error, state) ∧
        (processId = bootstrapProcessId ∨ (state.processRef processId).isOk = false)) ∨
      ∃ middle after i process, state.exitProcess processId = (.ok (), after) ∧ processId ≠ bootstrapProcessId ∧
        state.processRef processId = .ok (i, process) ∧ Exited state middle i process ∧ Collected middle after := by
  unfold exitProcess
  split
  · next same => exact .inl ⟨.invalidProcess, nofun, rfl, .inl same⟩
  next isolated =>
  rcases found : state.processRef processId with error | ⟨i, process⟩
  · cases processRef_error found
    exact .inl ⟨.invalidProcess, nofun, rfl, .inr rfl⟩
  obtain ⟨index, registered⟩ := processRef_eq_ok.mp found
  right
  dsimp only
  have notFirst : i ≠ 0 := processIndex_ne_zero index isolated
  obtain ⟨registry, closed, refs, evolves⟩ := exit_releases ledger registered
  rw [closed]
  let middle : UserIpcState := { state with processes := update state.processes i none, registry := registry }
  have exited : Exited state middle i process := ⟨registered, notFirst, refs, evolves, rfl⟩
  obtain ⟨after, done, collected⟩ := collectUnreachableChannels_spec (exited.ledger ledger)
  exact ⟨middle, after, i, process, done, isolated, rfl, exited, collected⟩

end

theorem unused_of_index {child : Nat} (isolated : bootstrapProcessId < child)
    (bootstrap : ∀ process, state.processes 0 = some process → process.id = bootstrapProcessId)
    (unknown : (state.processIndex child).isOk = false) :
    ∀ i process, state.processes i = some process → process.id ≠ child := by
  rintro i process registered rfl
  unfold processIndex at unknown
  rw [if_neg (Nat.ne_of_gt isolated)] at unknown
  split at unknown
  · next missing =>
    have absent := Fin.eq_false_of_find?_eq_none missing i
    simp [registered] at absent
  next j found =>
  have here := Fin.eq_true_of_find?_eq_some found
  split at unknown
  · next zero =>
    subst zero
    simp only [Option.any_eq_true, beq_iff_eq] at here
    obtain ⟨first, held, same⟩ := here
    rw [bootstrap first held] at same
    exact absurd same (Nat.ne_of_lt isolated)
  · cases unknown

theorem registerSpawnedProcess_spec (state : UserIpcState) (parent child : Nat) (endpoint : BitVec 64)
    (rights : Rights) (bootstrap : ∀ process, state.processes 0 = some process → process.id = bootstrapProcessId) :
    ∃ ready, Boots state ready ∧
      ((∃ error after, error ≠ .expectFailed ∧
          state.registerSpawnedProcess parent child endpoint rights = (.error error, after) ∧ Churned ready after) ∨
        ∃ handle after j process addressSpace handles childHandles k l capability,
          state.registerSpawnedProcess parent child endpoint rights = (.ok handle, after) ∧
          Spawned ready after j child process addressSpace handles childHandles k l capability rights) := by
  obtain ⟨ready, boots, ⟨cause, failed⟩ | ⟨started, _⟩⟩ := initializeState_spec state
  · exact ⟨ready, boots, .inl ⟨.handle cause, ready, nofun, by simp only [registerSpawnedProcess, failed], .refl _⟩⟩
  refine ⟨ready, boots, ?_⟩
  have bootstrap : ∀ process, ready.processes 0 = some process → process.id = bootstrapProcessId := by
    rcases boots with rfl | ⟨addressSpace, booted⟩
    · exact bootstrap
    · intro process registered
      rw [booted.after_eq] at registered
      simp only [withProcess, update_self, Option.some.injEq] at registered
      rw [← registered]
      rfl
  simp only [registerSpawnedProcess, started]
  split
  · exact .inl ⟨.invalidProcess, _, nofun, rfl, .refl _⟩
  next allowed =>
  rw [not_or, not_not, Nat.not_le] at allowed
  obtain ⟨rfl, isolated⟩ := allowed
  split
  · exact .inl ⟨.invalidProcess, _, nofun, rfl, .refl _⟩
  next unknown =>
  have unused := unused_of_index isolated bootstrap (by simpa using unknown)
  rcases searched : Fin.find? fun i => decide (i ≠ 0) && (ready.processes i).isNone with _ | j
  · exact .inl ⟨.capacity, _, nofun, rfl, .refl _⟩
  have vacant : j ≠ 0 ∧ ready.processes j = none := by
    simpa using Fin.eq_true_of_find?_eq_some searched
  rcases located : ready.locateEndpoint bootstrapProcessId ⟨endpoint⟩ with error | result
  · exact .inl ⟨error, _, (locateEndpoint_error located).2, rfl, .refl _⟩
  obtain ⟨_, process, capability, found, _, _, _, _⟩ := locateEndpoint_spec located
  rcases made : ready.registry.create .addressSpace with error | ⟨addressSpace, registry⟩
  · exact .inl ⟨.handle error, _, nofun, rfl, .refl _⟩
  obtain ⟨_, fresh, _, refs, evolves⟩ := create_spec small made
  obtain ⟨index, registered⟩ := processRef_eq_ok.mp found
  cases index
  have parent : { ready with registry := registry }.processRef bootstrapProcessId = .ok (0, process) := found
  simp only [parent]
  rcases moved : process.handles.beginMove registry ⟨endpoint⟩ rights with error | ⟨token, handles⟩
  · exact .inl ⟨.handle error, _, nofun, rfl, churned_registry (discard_restores refs)
      (evolves.trans (registry.discard_evolves addressSpace))⟩
  have checked := check_of_beginMove moved
  obtain ⟨held, entry, transferable, weaker⟩ := checkMove_eq_ok.mp checked
  obtain ⟨k, capability, handles', moved', entry', named, emptied⟩ := beginMove_of_check checked
  rw [moved] at moved'
  cases moved'
  rw [entry] at entry'
  cases entry'
  obtain ⟨_, _, _, live⟩ := entry_eq_ok.mp entry
  have valid := validate_iff.mpr live
  have room : (HandleTable.new : HandleTable handleCapacity).hasCapacity (0 + 1) = true := by decide
  obtain ⟨childHandle, childHandles, installed, _⟩ := installCapability_ok room held.object rights
  obtain ⟨l, filled, _⟩ := installCapability_spec installed
  have install : (HandleTable.new : HandleTable handleCapacity).installToken registry
      (some ⟨⟨held.object, rights⟩⟩) = .ok (childHandle, childHandles) := by
    simp only [installToken, valid, installed]
  let after := ({ ready with registry := registry }.withProcess 0 { process with handles := handles
    }).withProcess j ⟨child, addressSpace, childHandles⟩
  refine .inr ⟨childHandle.raw, after, j, process, addressSpace, handles, childHandles, k, l, held, ?_,
    registered, vacant.2, vacant.1, isolated, unused, fresh, refs, evolves, emptied, transferable, weaker, filled, rfl⟩
  simp only [Process.new, withProcess, install, after]

theorem withdrawn_of_removeWhere {waiterId : Nat} {p : WaitRegistration → Bool}
    (own : ∀ registration, p registration = true → registration.waiterId = waiterId) {wakeups : _}
    (quiet : ∀ i, state.waiters.wakeups i = none → wakeups i = none) :
    Withdrawn state { state with waiters := { state.waiters.removeWhere p with wakeups := wakeups } } waiterId where
  after_eq := rfl
  registrations i registration kept := (removeWhere_eq_some.mp kept).1
  others i registration held other :=
    removeWhere_eq_some.mpr ⟨held, by
      by_contra removed
      exact other (own registration (by simpa using removed))⟩
  wakeups := quiet

theorem Withdrawn.refl (state : UserIpcState) (waiterId : Nat) : Withdrawn state state waiterId :=
  ⟨rfl, fun _ _ held => held, fun _ _ held _ => held, fun _ empty => empty⟩

theorem cancelWaiter_withdrawn (state : UserIpcState) (waiterId : Nat) :
    Withdrawn state { state with waiters := state.waiters.cancelWaiter waiterId } waiterId :=
  withdrawn_of_removeWhere (by simp) fun i empty => by
    simp only [clearForWaiter, removeWhere, empty, Option.filter_none]

theorem cancelled_registration {waiterId : Nat} {free : Fin maxWaitItems}
    (vacant : (state.waiters.cancelWaiter waiterId).registrations free = none) (object : ObjectId) :
    Withdrawn state { state with waiters := ((state.waiters.cancelWaiter waiterId).withRegistration free
      ⟨waiterId, 1, object, .readable, 0⟩).cancelWaiter waiterId } waiterId := by
  have first := cancelWaiter_withdrawn state waiterId
  have second := cancelWaiter_withdrawn { state with waiters :=
    (state.waiters.cancelWaiter waiterId).withRegistration free ⟨waiterId, 1, object, .readable, 0⟩ } waiterId
  refine ⟨rfl, fun i registration kept => ?_, fun i registration held other => ?_, fun i empty => ?_⟩
  · have present := second.registrations i registration kept
    have foreign : registration.waiterId ≠ waiterId := by
      have := (removeWhere_eq_some.mp kept).2
      simpa using this
    rcases withRegistration_eq_some.mp present with ⟨_, rfl⟩ | ⟨_, old⟩
    · exact absurd rfl foreign
    · exact first.registrations i registration old
  · have present := first.others i registration held other
    have elsewhere : i ≠ free := by
      rintro rfl
      exact absurd (vacant.symm.trans present) nofun
    exact second.others i registration (withRegistration_eq_some.mpr (.inr ⟨elsewhere, present⟩)) other
  · exact second.wakeups i (first.wakeups i empty)

theorem waitItem_spec {endpoint : Handle} {interests : Signals}
    {item : WaitItem} (entry : process.handles.entry registry endpoint = .ok capability)
    (itemized : pair.waitItemForProcess registry process endpoint interests = .ok item) :
    ∃ index, pair.queueForReceiver capability.object = .ok index ∧
      item = .channel pair capability.object interests ∧
      WaitItem.observe item.source =
        if (pair.queues index).length != 0 then .writable ||| .readable else .writable := by
  unfold waitItemForProcess at itemized
  split at itemized
  · cases itemized
  next object required =>
  obtain ⟨other, entry', rfl, _, _⟩ := require_eq_ok.mp required
  rw [entry] at entry'
  cases entry'
  unfold waitItem at itemized
  split at itemized
  · cases itemized
  next signals ready =>
  cases itemized
  have observed : WaitItem.observe (.channel pair capability.object) = signals := by
    simp only [WaitItem.observe, ready]
  unfold readiness at ready
  split at ready
  · cases ready
  · next index queue =>
    refine ⟨index, queue, rfl, ?_⟩
    refine Eq.trans observed ?_
    split at ready <;> cases ready <;> simp_all

/-- `wait_readable` blocks, or it finds a message, is refused, or takes the
registration back because the caller could not block. -/
theorem waitReadable_spec {σ : Type} (ledger : Ledger state) (processId : Nat) (endpoint : BitVec 64) (waiterId : Nat)
    (onBlocked : σ → Bool × σ) (caller : σ) : ∃ ready, Boots state ready ∧
      ((∃ result after caller', state.waitReadable processId endpoint waiterId onBlocked caller =
            (result, after, caller') ∧ result ≠ .ok .blocked ∧ result ≠ .error .expectFailed ∧
          (caller' = caller ∨ (false, caller') = onBlocked caller) ∧ Withdrawn ready after waiterId) ∨
        ∃ after caller' c pair object index free, onBlocked caller = (true, caller') ∧
          state.waitReadable processId endpoint waiterId onBlocked caller = (.ok .blocked, after, caller') ∧
          Blocked ready after waiterId c pair object index free) := by
  obtain ⟨ready, boots, ⟨error, unlike, failed⟩ | ⟨i, process, started, found⟩⟩ := processMut_spec state processId
  · exact ⟨ready, boots, .inl ⟨.error error, ready, caller, by simp only [waitReadable, failed], nofun,
      mt Except.error.inj unlike.2.2, .inl rfl, .refl _ _⟩⟩
  refine ⟨ready, boots, ?_⟩
  have ledger := boots.ledger ledger
  rcases located : ready.locateEndpoint processId ⟨endpoint⟩ with error | ⟨c, object⟩
  · exact .inl ⟨.error error, ready, caller, by simp only [waitReadable, started, located], nofun,
      mt Except.error.inj (locateEndpoint_error located).2, .inl rfl, .refl _ _⟩
  obtain ⟨capability, pair, entry, rfl, held, member⟩ := ledger.located found located
  simp only [waitReadable, started, located, found, held]
  rcases itemized : pair.waitItemForProcess ready.registry process ⟨endpoint⟩ .readable with error | item
  · exact .inl ⟨_, _, _, rfl, nofun, nofun, .inl rfl, .refl _ _⟩
  obtain ⟨index, queue, rfl, observed⟩ := waitItem_spec entry itemized
  have cases := wait_cases ready.waiters (.new waiterId) (.channel pair capability.object .readable)
  dsimp only
  generalize wait ready.waiters (.new waiterId) (.channel pair capability.object .readable) = waited at cases ⊢
  obtain ⟨result, waiters, waiter⟩ := waited
  rcases cases with ⟨_, rfl, rfl⟩ | ⟨_, _, rfl, rfl⟩ | ⟨quiet, _, rfl, free, vacant, rfl⟩
  · refine .inl ⟨_, _, _, rfl, nofun, nofun, .inl rfl, ?_⟩
    refine withdrawn_of_removeWhere (fun registration same => ?_) fun i empty => empty
    exact congrArg Prod.fst (beq_iff_eq.mp same)
  · exact .inl ⟨_, _, _, rfl, nofun, nofun, .inl rfl, cancelWaiter_withdrawn ready waiterId⟩
  · rcases answer : onBlocked caller with ⟨_ | _, caller'⟩
    · exact .inl ⟨_, _, _, rfl, nofun, nofun, .inr rfl, cancelled_registration vacant capability.object⟩
    refine .inr ⟨_, caller', c, pair, capability.object, index, free, rfl, rfl, held, queue, ?_, vacant, rfl⟩
    -- Not ready means that the receive queue has length zero.
    rw [← length_eq_zero_iff, Ring.length_toList]
    by_contra pending
    rw [observed, if_pos (by simpa using pending)] at quiet
    have both : (Signals.writable ||| Signals.readable).intersects .readable = true := by decide
    exact absurd (both.symm.trans quiet) nofun

end UserIpcState
end Nagi.Kernel
