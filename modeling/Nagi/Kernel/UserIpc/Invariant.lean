import Nagi.Kernel.UserIpc.Operations
import Nagi.Lib.Runs

/-! What every transition of the manager keeps, beside the ledger. -/

namespace Nagi.Kernel.UserIpcState

open Lib HandleTable Function Option

variable {before after : UserIpcState}

/-! Every capability names an endpoint of an occupied channel, and no endpoint
is named twice. -/

def Confined (state : UserIpcState) : Prop := ∀ object, state.namedCount object ≤ state.endpointCount object

theorem endpointCount_of_pair {c : Fin channelCapacity} {pair pair' : ChannelPair}
    (changed : after.channels = update before.channels c (.occupied pair'))
    (held : (before.channels c).pair = some pair) (same : pair'.owned = pair.owned) (object : ObjectId) :
    after.endpointCount object = before.endpointCount object := by
  have endpoints : pair'.endpoints = pair.endpoints := congrArg List.tail same
  have change := endpointCount_of_update changed object
  rw [ChannelSlot.endpoints_of_pair held, ChannelSlot.endpoints_occupied, endpoints] at change
  omega

theorem Confined.mono (confined : Confined before) (channels : after.channels = before.channels)
    (fewer : ∀ object, after.namedCount object ≤ before.namedCount object) : Confined after := by
  intro object
  have same : after.endpointCount object = before.endpointCount object := by simp only [endpointCount, channels]
  exact same ▸ Nat.le_trans (fewer object) (confined object)

section
variable (collected : Collected before after)
include collected

theorem Collected.named_le (object : ObjectId) : after.namedCount object ≤ before.namedCount object := by
  have tokens : after.tokenCount object ≤ before.tokenCount object := by
    unfold tokenCount
    refine Finset.sum_le_sum fun c _ => ?_
    rw [collected.channels c]
    split
    · exact Nat.le_refl _
    · exact Nat.zero_le _
  have handles : after.handleCount object = before.handleCount object := by
    simp only [handleCount, collected.processes]
  unfold namedCount
  omega

theorem Collected.kept_of_named (ledger : Ledger before)
    (confined : Confined before) {object : ObjectId} (named : 0 < after.namedCount object) :
    ∃ c, before.Reachable c ∧ object ∈ (before.channels c).endpoints := by
  have before_named := Nat.lt_of_lt_of_le named (collected.named_le object)
  obtain ⟨c, endpoint⟩ := endpointCount_pos.mp (Nat.lt_of_lt_of_le before_named (confined object))
  refine ⟨c, ?_, endpoint⟩
  rcases Nat.add_pos_iff_pos_or_pos.mp named with held | queued
  · obtain ⟨i, process, registered, member⟩ := handleCount_pos.mp held
    rw [collected.processes] at registered
    exact .root ⟨i, process, registered, object, member, endpoint⟩
  · obtain ⟨d, pair, kept, member⟩ := tokenCount_pos.mp queued
    rw [collected.channels d] at kept
    split at kept
    · next marked =>
      exact .step ((reachableChannels_iff ledger).mp marked) ⟨pair, kept, object, member, endpoint⟩
    · cases kept

theorem Collected.confined (ledger : Ledger before) (confined : Confined before) : Confined after := by
  intro object
  by_cases named : 0 < after.namedCount object
  · obtain ⟨c, reached, endpoint⟩ := collected.kept_of_named ledger confined named
    have kept : after.channels c = before.channels c := by
      rw [collected.channels c, if_pos ((reachableChannels_iff ledger).mpr reached)]
    have present : 0 < after.endpointCount object := endpointCount_pos.mpr ⟨c, kept ▸ endpoint⟩
    have := collected.named_le object
    have := confined object
    have := before.endpointCount_le object
    have := ledger.single object
    omega
  · omega

end

theorem Transition.confined (transition : Transition before after) (ledger : Ledger before)
    (confined : Confined before) : Confined after := by
  cases transition with
  | booted more | spawned more => exact confined.mono more.channels_eq fun object => (more.counts object).2.le
  | churned churned => exact confined.mono churned.channels fun object => (churned.counts object).2.le
  | withdrawn kept | blocked kept =>
    obtain ⟨_, processes, channels⟩ := kept.unchanged
    exact confined.mono channels fun object => (namedCount_congr processes channels object).le
  | created created =>
    intro object
    obtain ⟨_, named, endpoints⟩ := created.counts object
    rw [named, endpoints]
    exact Nat.add_le_add_right (confined object) _
  | sent sent =>
    intro object
    obtain ⟨waiters, queued, _⟩ := sent.sent
    obtain ⟨_, tables, escrow⟩ := sent.counts object
    rw [endpointCount_of_pair sent.channels_eq sent.channel queued.identities]
    have := confined object
    unfold namedCount at *
    omega
  | received received =>
    intro object
    obtain ⟨_, tables, escrow⟩ := received.counts object
    rw [endpointCount_of_pair received.channels_eq received.channel received.received.identities]
    have := confined object
    unfold namedCount at *
    omega
  | dropped fewer | exited fewer =>
    refine confined.mono fewer.channels_eq fun object => ?_
    have := (fewer.counts object).2
    omega
  | collected collected => exact collected.confined ledger confined

def ids (state : UserIpcState) (i : Fin maxUserProcesses) : Option Nat := (state.processes i).map (·.id)

structure Roster (state : UserIpcState) : Prop where
  bootstrap : ∀ id, state.ids 0 = some id → id = bootstrapProcessId
  isolated : ∀ i id, i ≠ 0 → state.ids i = some id → bootstrapProcessId < id
  distinct : ∀ i j id, state.ids i = some id → state.ids j = some id → i = j
  rooted : state.ids 0 = none → ∀ i, state.ids i = none

variable {state : UserIpcState} {i : Fin maxUserProcesses} {process : Process handleCapacity}

theorem ids_of_process (registered : state.processes i = some process) : state.ids i = some process.id := by
  rw [ids, registered, map_some]

theorem Roster.congr (roster : Roster before) (same : ∀ i, after.ids i = before.ids i) : Roster after where
  bootstrap := by simpa only [same] using roster.bootstrap
  isolated := by simpa only [same] using roster.isolated
  distinct := by simpa only [same] using roster.distinct
  rooted := by simpa only [same] using roster.rooted

theorem ids_congr (processes : after.processes = before.processes) (i : Fin maxUserProcesses) :
    after.ids i = before.ids i := by
  rw [ids, ids, processes]

theorem ids_of_update {process : Option (Process handleCapacity)}
    (changed : after.processes = update before.processes i process) (j : Fin maxUserProcesses) :
    after.ids j = if j = i then process.map (·.id) else before.ids j := by
  rw [ids, changed]
  by_cases same : j = i
  · subst same
    simp
  · simp [same, ids]

theorem ids_of_handles {process' : Process handleCapacity}
    (changed : after.processes = update before.processes i (some process'))
    (registered : before.processes i = some process) (same : process'.id = process.id) (j : Fin maxUserProcesses) :
    after.ids j = before.ids j := by
  rw [ids_of_update changed]
  split
  · next here =>
    subst here
    rw [ids_of_process registered, map_some, same]
  · rfl

theorem Booted.roster {addressSpace : ObjectId} (booted : Booted before after addressSpace)
    (roster : Roster before) : Roster after := by
  have ids := ids_of_update booted.processes_eq
  have none := roster.rooted (by rw [UserIpcState.ids, booted.vacant, map_none])
  simp only [none, map_some, Process.new] at ids
  refine ⟨fun id found => ?_, fun i id other found => ?_, fun i j id left right => ?_, fun missing => ?_⟩
  · simpa [ids, eq_comm] using found
  · simp [ids, other] at found
  · rw [ids] at left right
    split at left <;> split at right <;> simp_all
  · simp [ids] at missing

theorem Roster.put {j : Fin maxUserProcesses} {entry : Option Nat} (roster : Roster before) (isolated : j ≠ 0)
    (ids : ∀ i, after.ids i = if i = j then entry else before.ids i)
    (fresh : ∀ id, entry = some id → bootstrapProcessId < id ∧ ∀ i, before.ids i ≠ some id)
    (rooted : before.ids 0 = none → entry = none) : Roster after := by
  have root : after.ids 0 = before.ids 0 := by rw [ids, if_neg isolated.symm]
  refine ⟨root ▸ roster.bootstrap, fun i id other found => ?_, fun i i' id left right => ?_, fun missing i => ?_⟩
  · rw [ids] at found
    split at found
    · exact (fresh id found).1
    · exact roster.isolated i id other found
  · rw [ids] at left right
    split at left <;> split at right
    · simp_all
    · exact absurd right ((fresh id left).2 i')
    · exact absurd left ((fresh id right).2 i)
    · exact roster.distinct i i' id left right
  · rw [root] at missing
    rw [ids, rooted missing, roster.rooted missing, ite_self]

section
variable {j child parent addressSpace handles childHandles k l capability rights}
  (spawned : Spawned before after j child parent addressSpace handles childHandles k l capability rights)
include spawned

theorem Spawned.ids_eq (i : Fin maxUserProcesses) : after.ids i = if i = j then some child else before.ids i := by
  let middle := before.withProcess 0 { parent with handles := handles }
  have same : ∀ i, middle.ids i = before.ids i :=
    ids_of_handles (rfl : middle.processes = update before.processes 0 _) spawned.registered rfl
  have changed : after.processes = update middle.processes j (some ⟨child, addressSpace, childHandles⟩) :=
    spawned.processes_eq
  rw [ids_of_update changed, same, map_some]

theorem Spawned.roster (roster : Roster before) : Roster after := by
  refine roster.put spawned.isolated spawned.ids_eq ?_ fun missing => ?_
  · rintro _ ⟨⟩
    refine ⟨spawned.id, fun i found => ?_⟩
    obtain ⟨process, registered, same⟩ := map_eq_some_iff.mp found
    exact spawned.unused i process registered same
  · rw [ids_of_process spawned.registered] at missing
    cases missing

end

theorem Churned.ids_eq (churned : Churned before after) (i : Fin maxUserProcesses) : after.ids i = before.ids i := by
  have related := churned.processes i
  rw [ids, ids]
  generalize before.processes i = process, after.processes i = process' at related
  cases related with
  | some same => rw [map_some, map_some, same.id]
  | none => rfl

theorem Exited.roster {i process} (exited : Exited before after i process) (roster : Roster before) :
    Roster after :=
  roster.put exited.isolated (ids_of_update exited.processes_eq) nofun fun _ => rfl

theorem Transition.roster (transition : Transition before after) (roster : Roster before) : Roster after := by
  cases transition with
  | booted booted => exact booted.roster roster
  | churned churned => exact roster.congr churned.ids_eq
  | withdrawn kept | blocked kept => exact roster.congr (ids_congr kept.unchanged.2.1)
  | created own | dropped own => exact roster.congr (ids_of_handles own.processes_eq own.registered rfl)
  | sent sent =>
    obtain ⟨_, queued, _⟩ := sent.sent
    exact roster.congr (ids_of_handles sent.processes_eq sent.registered (by rw [queued.process]))
  | received received =>
    exact roster.congr
      (ids_of_handles received.processes_eq received.registered (by rw [received.received.process]))
  | spawned spawned => exact spawned.roster roster
  | exited exited => exact exited.roster roster
  | collected collected => exact roster.congr (ids_congr collected.processes)

theorem Roster.id_eq (roster : Roster state) {processId : Nat} (found : state.processRef processId = .ok (i, process)) :
    process.id = processId := by
  obtain ⟨index, registered⟩ := processRef_eq_ok.mp found
  unfold processIndex at index
  split at index
  · next same =>
    cases index
    rw [same]
    exact roster.bootstrap process.id (ids_of_process registered)
  · split at index
    · cases index
    next j searched =>
    split at index
    · cases index
    · cases index
      have here := Fin.eq_true_of_find?_eq_some searched
      simpa [registered] using here

theorem Boots.eq_of_isolated (boots : Boots before after) (roster : Roster before)
    (registered : after.processes i = some process) (isolated : i ≠ 0) : after = before := by
  rcases boots with same | ⟨addressSpace, booted⟩
  · exact same
  · have none : before.ids i = none := roster.rooted (by rw [ids, booted.vacant]; rfl) i
    rw [booted.processes_eq, update_of_ne isolated, map_eq_none_iff.mp none] at registered
    cases registered

theorem Boots.eq_of_entry (boots : Boots before after) (roster : Roster before)
    (registered : after.processes i = some process) {handle : Handle} {registry : ObjectRegistry objectCapacity}
    {capability : Capability} (found : process.handles.entry registry handle = .ok capability) : after = before := by
  by_cases root : i = 0
  · subst root
    rcases boots with same | ⟨addressSpace, booted⟩
    · exact same
    · rw [booted.processes_eq, update_self] at registered
      cases registered
      obtain ⟨_, _, held, _⟩ := entry_eq_ok.mp found
      cases held
  · exact boots.eq_of_isolated roster registered root

theorem processIndex_congr (same : ∀ i, after.ids i = before.ids i) (processId : Nat) :
    after.processIndex processId = before.processIndex processId := by
  have search : ∀ state : UserIpcState, (fun i => (state.processes i).any fun process => process.id == processId) =
      fun i => (state.ids i).any (· == processId) := by
    intro state
    funext i
    rw [ids, any_map]
  rw [processIndex, processIndex, search, search]
  simp only [same]

theorem processMut_of_ref (roster : Roster state) {processId : Nat}
    (found : state.processRef processId = .ok (i, process)) :
    state.processMut processId = (.ok (i, process), state) := by
  have rooted : (state.processes 0).isSome = true := by
    by_contra missing
    have none : state.ids 0 = none := by
      rw [Bool.not_eq_true, isSome_eq_false_iff, isNone_iff_eq_none] at missing
      rw [ids, missing]
      rfl
    have registered := ids_of_process (processRef_eq_ok.mp found).2
    rw [roster.rooted none i] at registered
    cases registered
  simp only [processMut, initializeState, rooted, if_true, found]

end Nagi.Kernel.UserIpcState
