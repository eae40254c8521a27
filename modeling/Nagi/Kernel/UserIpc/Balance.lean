import Nagi.Kernel.UserIpc.Effects

/-! Every transition keeps the ledger: what it writes to the tables and queues
is what it retains and releases in the registry. -/

namespace Nagi.Kernel

open Lib HandleTable UserIpcState Function ChannelSlot List

theorem HandleTable.objects_new {n : Nat} : (HandleTable.new : HandleTable n).objects = [] := by
  simp [objects, HandleTable.new, HandleSlot.empty]

namespace ChannelPair
variable {m n : Nat}

theorem objects_of_tokens {entry : QueuedMessage} {tokens : List TransferToken}
    (same : entry.tokens = tokens.map some) : entry.objects = tokens.map (·.capability.object) := by
  rw [QueuedMessage.objects, QueuedMessage.escrow, same, filterMap_map]
  simp

section
variable {registry : ObjectRegistry m} {pair pair' : ChannelPair} {process process' : Process n}
  {endpoint : Handle} {capability : Capability} {index : Fin 2}

variable {message : OutgoingMessage} {waiters waiters' : WaitRegistry} {tokens : List TransferToken}

section
variable (sent : Sent registry pair process endpoint message waiters pair' process' waiters' capability index tokens)
include sent

theorem Sent.identities : pair'.owned = pair.owned := by
  rw [sent.pair_eq]
  rfl

theorem Sent.count (object : ObjectId) : pair'.escrowObjects.count object =
      pair.escrowObjects.count object + (tokens.map (·.capability.object)).count object := by
  obtain ⟨entry, contents, _, _, _, _, same⟩ := sent.queued
  have change := count_escrow_withQueue pair index (pair'.queues index) object
  rw [← sent.pair_eq] at change
  have queue : queueObjects (pair'.queues index) =
      queueObjects (pair.queues index) ++ tokens.map (·.capability.object) := by
    rw [queueObjects, contents, flatMap_append, ← objects_of_tokens same]
    simp [queueObjects]
  rw [queue, count_append] at change
  omega

theorem Sent.full (full : pair.Full) : pair'.Full := by
  obtain ⟨entry, contents, _, _, _, _, same⟩ := sent.queued
  intro other message member
  by_cases here : other = index
  · subst here
    rw [contents, mem_append, mem_singleton] at member
    rcases member with before | rfl
    · exact full other message before
    · rw [same]
      simp
  · rw [sent.pair_eq, withQueue_of_ne pair _ here] at member
    exact full other message member

end

section
variable {message : ReceivedMessage} {entry : QueuedMessage}
  (received : Received registry pair process endpoint message pair' process' capability index entry)
include received

theorem Received.identities : pair'.owned = pair.owned := by
  rw [received.pair_eq]
  rfl

theorem Received.count (object : ObjectId) : pair'.escrowObjects.count object + entry.objects.count object =
      pair.escrowObjects.count object := by
  have change := count_escrow_withQueue pair index (pair'.queues index) object
  rw [← received.pair_eq] at change
  have queue : queueObjects (pair.queues index) = entry.objects ++ queueObjects (pair'.queues index) := by
    rw [queueObjects, received.dequeued, flatMap_cons]
    rfl
  rw [queue, count_append] at change
  omega

theorem Received.full (full : pair.Full) : pair'.Full := by
  intro other message member
  by_cases here : other = index
  · subst here
    exact full other message (received.dequeued ▸ mem_cons_of_mem _ member)
  · rw [received.pair_eq, withQueue_of_ne pair _ here] at member
    exact full other message member

end

end
end ChannelPair

namespace UserIpcState
variable {before after : UserIpcState}

theorem SameProcess.objects {process process' : Process handleCapacity} (same : SameProcess process process') :
    process'.handles.objects = process.handles.objects := by
  unfold HandleTable.objects
  simp only [same.capability]

theorem namedCount_congr (processes : after.processes = before.processes) (channels : after.channels = before.channels)
    (object : ObjectId) : after.namedCount object = before.namedCount object := by
  simp only [namedCount, handleCount, tokenCount, processes, channels]

theorem ownerCount_congr (processes : after.processes = before.processes) (channels : after.channels = before.channels)
    (object : ObjectId) : after.ownerCount object = before.ownerCount object := by
  simp only [ownerCount, slotCount, addressSpaceCount, processes, channels]

section
variable {i : Fin maxUserProcesses} {process process' : Process handleCapacity}
variable (changed : after.processes = update before.processes i (some process'))
include changed

theorem addressSpaceCount_of_handles
    (registered : before.processes i = some process) (same : process'.addressSpace = process.addressSpace)
    (object : ObjectId) : after.addressSpaceCount object = before.addressSpaceCount object := by
  have change := addressSpaceCount_of_update changed object
  rw [registered] at change
  simp only [addressSpaces_some, same] at change
  omega

theorem handleCount_of_handles (registered : before.processes i = some process) (object : ObjectId) :
    after.handleCount object + process.handles.objects.count object =
      before.handleCount object + process'.handles.objects.count object := by
  have change := handleCount_of_update changed object
  rw [registered] at change
  exact change

end

section
variable {c : Fin channelCapacity} {pair pair' : ChannelPair}

section
variable (changed : after.channels = update before.channels c (.occupied pair'))
include changed

theorem slotCount_of_pair
    (held : (before.channels c).pair = some pair) (same : pair'.owned = pair.owned) (object : ObjectId) :
    after.slotCount object = before.slotCount object := by
  have change := slotCount_of_update changed object
  rw [owned_of_pair held, owned_occupied, same] at change
  omega

theorem tokenCount_of_pair (held : (before.channels c).pair = some pair) (object : ObjectId) :
    after.tokenCount object + pair.escrowObjects.count object =
      before.tokenCount object + pair'.escrowObjects.count object := by
  have change := tokenCount_of_update changed object
  rw [slotEscrow_of_pair held, slotEscrow_occupied] at change
  exact change

end

theorem full_of_pair (ledger : Ledger before)
    (changed : after.channels = update before.channels c (.occupied pair')) (full : pair'.Full) :
    ∀ d pair, (after.channels d).pair = some pair → pair.Full := by
  rw [changed]
  refine (forall_update_iff before.channels fun _ slot => ∀ pair, slot.pair = some pair → pair.Full).mpr ⟨?_, ?_⟩
  · rintro _ ⟨⟩
    exact full
  · exact fun d _ => ledger.full d

end

section
variable {addressSpace : ObjectId}

section
variable (booted : Booted before after addressSpace)
include booted

theorem Booted.processes_eq :
    after.processes = update before.processes 0 (some (.new bootstrapProcessId addressSpace)) :=
  (congrArg processes booted.after_eq).trans rfl

theorem Booted.channels_eq : after.channels = before.channels :=
  (congrArg channels booted.after_eq).trans rfl

theorem Booted.counts (object : ObjectId) :
    after.ownerCount object = before.ownerCount object + (if object = addressSpace then 1 else 0) ∧
      after.namedCount object = before.namedCount object := by
  have spaces := addressSpaceCount_of_update booted.processes_eq object
  have tables := handleCount_of_update booted.processes_eq object
  simp only [booted.vacant, addressSpaces_none, addressSpaces_some, tableObjects_none, tableObjects_some, Process.new,
    HandleTable.objects_new, count_cons, count_nil, beq_iff_eq, @eq_comm _ addressSpace] at spaces tables
  simp only [ownerCount, slotCount, namedCount, tokenCount, booted.channels_eq]
  omega

end

theorem Ledger.single_of_fresh (ledger : Ledger before) (fresh : before.registry.refs addressSpace = 0)
    (owners : ∀ object, after.ownerCount object =
      before.ownerCount object + if object = addressSpace then 1 else 0) (object : ObjectId) :
    after.ownerCount object ≤ 1 := by
  have single := ledger.single object
  rw [owners]
  split
  · next same =>
    rw [← same, ledger.balanced object] at fresh
    omega
  · exact single

theorem Booted.ledger (booted : Booted before after addressSpace) (ledger : Ledger before) : Ledger after where
  balanced object := by
    obtain ⟨owners, named⟩ := booted.counts object
    rw [booted.refs, owners, named, ledger.balanced object]
    omega
  single := ledger.single_of_fresh booted.fresh fun object => (booted.counts object).1
  full := by rw [booted.channels_eq]; exact ledger.full

end

theorem SameProcess.optional {process process' : Option (Process handleCapacity)}
    (related : Option.Rel SameProcess process process') :
    tableObjects process' = tableObjects process ∧ addressSpaces process' = addressSpaces process := by
  cases related with
  | some same => exact ⟨same.objects, congrArg (fun space => [space]) same.addressSpace⟩
  | none => exact ⟨rfl, rfl⟩

theorem Churned.counts (churned : Churned before after) (object : ObjectId) :
    after.ownerCount object = before.ownerCount object ∧ after.namedCount object = before.namedCount object := by
  have tables : ∀ i, tableObjects (after.processes i) = tableObjects (before.processes i) :=
    fun i => (SameProcess.optional (churned.processes i)).1
  have spaces : ∀ i, addressSpaces (after.processes i) = addressSpaces (before.processes i) :=
    fun i => (SameProcess.optional (churned.processes i)).2
  unfold ownerCount slotCount addressSpaceCount namedCount handleCount tokenCount
  simp only [churned.channels, tables, spaces]
  exact ⟨trivial, trivial⟩

theorem Churned.ledger (churned : Churned before after) (ledger : Ledger before) : Ledger after where
  balanced object := by
    rw [churned.refs, (churned.counts object).1, (churned.counts object).2, ledger.balanced object]
  single object := (churned.counts object).1 ▸ ledger.single object
  full := by rw [churned.channels]; exact ledger.full

theorem Ledger.congr (ledger : Ledger before) (unchanged : after.registry = before.registry ∧
      after.processes = before.processes ∧ after.channels = before.channels) : Ledger after := by
  obtain ⟨registry, processes, channels⟩ := unchanged
  refine ⟨fun object => ?_, fun object => ownerCount_congr processes channels object ▸ ledger.single object, ?_⟩
  · rw [registry, ownerCount_congr processes channels, namedCount_congr processes channels, ledger.balanced object]
  · rw [channels]
    exact ledger.full

theorem Withdrawn.unchanged {waiterId : Nat} (withdrawn : Withdrawn before after waiterId) :
    after.registry = before.registry ∧ after.processes = before.processes ∧ after.channels = before.channels := by
  rw [withdrawn.after_eq]
  exact ⟨rfl, rfl, rfl⟩

theorem Blocked.unchanged {waiterId c pair object index free}
    (blocked : Blocked before after waiterId c pair object index free) :
    after.registry = before.registry ∧ after.processes = before.processes ∧ after.channels = before.channels := by
  rw [blocked.after_eq]
  exact ⟨rfl, rfl, rfl⟩

section
variable {i : Fin maxUserProcesses} {c : Fin channelCapacity} {process process' : Process handleCapacity}
  {pair pair' : ChannelPair} {middle handles : HandleTable handleCapacity} {k l : Fin handleCapacity}

section
variable (created : Created before after i c process pair middle handles k l)
include created

theorem Created.processes_eq :
    after.processes = update before.processes i (some { process with handles := handles }) :=
  (congrArg processes created.after_eq).trans rfl

theorem Created.channels_eq : after.channels = update before.channels c (.occupied pair) :=
  (congrArg channels created.after_eq).trans rfl

theorem Created.counts (object : ObjectId) :
    after.ownerCount object = before.ownerCount object + pair.owned.count object ∧
      after.namedCount object = before.namedCount object + pair.endpoints.count object ∧
      after.endpointCount object = before.endpointCount object + pair.endpoints.count object := by
  have spaces := addressSpaceCount_of_handles created.processes_eq created.registered rfl object
  have tables := handleCount_of_handles created.processes_eq created.registered object
  dsimp only at tables
  have tokens := tokenCount_of_update created.channels_eq object
  have slots := slotCount_of_update created.channels_eq object
  have endpoints := endpointCount_of_update created.channels_eq object
  have noTokens : pair.escrowObjects = [] := by
    refine eq_nil_iff_forall_not_mem.mpr fun object member => ?_
    obtain ⟨index, entry, queued, _⟩ := ChannelPair.mem_escrowObjects.mp member
    rw [created.empty index] at queued
    cases queued
  have installed : handles.objects.count object =
      process.handles.objects.count object + pair.endpoints.count object := by
    rw [created.second.count object, created.first.count object]
    simp only [ChannelPair.endpoints, count_cons, count_nil, beq_iff_eq, @eq_comm _ _ object]
    omega
  rw [eq_new_of_pair created.vacant] at tokens slots endpoints
  simp only [slotEscrow_new, slotEscrow_occupied, noTokens, count_nil, owned_new,
    owned_occupied, endpoints_new, endpoints_occupied] at tokens slots endpoints
  unfold ownerCount namedCount
  omega

theorem Created.ledger (ledger : Ledger before) : Ledger after where
  balanced object := by
    obtain ⟨owners, named, _⟩ := created.counts object
    rw [created.refs object, owners, named, ledger.balanced object]
    omega
  single object := by
    obtain ⟨owners, _, _⟩ := created.counts object
    rw [owners]
    by_cases new : object ∈ pair.owned
    · have fresh := (created.fresh object new).1
      rw [ledger.balanced object] at fresh
      have once := nodup_iff_count_le_one.mp created.distinct object
      omega
    · rw [count_eq_zero_of_not_mem new]
      exact ledger.single object
  full := full_of_pair ledger created.channels_eq fun index entry queued => by
    rw [created.empty index] at queued
    cases queued

end

section
variable {endpoint : Handle} {message : OutgoingMessage} {capability : Capability} {index : Fin 2}
  {tokens : List TransferToken} {woken : List Nat}
variable (sent : Sent before after i c process process' pair pair' endpoint message capability index tokens woken)
include sent

theorem Sent.processes_eq : after.processes = update before.processes i (some process') :=
  (congrArg processes sent.after_eq).trans rfl

theorem Sent.channels_eq : after.channels = update before.channels c (.occupied pair') :=
  (congrArg channels sent.after_eq).trans rfl

theorem Sent.counts (object : ObjectId) : after.ownerCount object = before.ownerCount object ∧
      after.handleCount object + (tokens.map (·.capability.object)).count object = before.handleCount object ∧
      after.tokenCount object = before.tokenCount object + (tokens.map (·.capability.object)).count object := by
  obtain ⟨waiters, queued, _⟩ := sent.sent
  have space : process'.addressSpace = process.addressSpace := by rw [queued.process]
  have spaces := addressSpaceCount_of_handles sent.processes_eq sent.registered space object
  have tables := handleCount_of_handles sent.processes_eq sent.registered object
  have slots := slotCount_of_pair sent.channels_eq sent.channel queued.identities object
  have escrow := tokenCount_of_pair sent.channels_eq sent.channel object
  have moved := queued.moves.count object
  have added := queued.count object
  unfold ownerCount
  omega

theorem Sent.ledger (ledger : Ledger before) : Ledger after where
  balanced object := by
    obtain ⟨owners, tables, escrow⟩ := sent.counts object
    have registry : after.registry = before.registry := (congrArg registry sent.after_eq).trans rfl
    rw [registry, owners, ledger.balanced object, namedCount, namedCount]
    omega
  single object := (sent.counts object).1 ▸ ledger.single object
  full := by
    obtain ⟨waiters, queued, _⟩ := sent.sent
    exact full_of_pair ledger sent.channels_eq (queued.full (ledger.full c pair sent.channel))

end

section
variable {endpoint : Handle} {message : ReceivedMessage} {capability : Capability} {index : Fin 2}
  {entry : QueuedMessage}
variable (received : Received before after i c process process' pair pair' endpoint message capability index entry)
include received

theorem Received.processes_eq : after.processes = update before.processes i (some process') :=
  (congrArg processes received.after_eq).trans rfl

theorem Received.channels_eq : after.channels = update before.channels c (.occupied pair') :=
  (congrArg channels received.after_eq).trans rfl

theorem Received.counts (object : ObjectId) : after.ownerCount object = before.ownerCount object ∧
      after.handleCount object = before.handleCount object + entry.objects.count object ∧
      after.tokenCount object + entry.objects.count object = before.tokenCount object := by
  have queued := received.received
  have space : process'.addressSpace = process.addressSpace := by rw [queued.process]
  have spaces := addressSpaceCount_of_handles received.processes_eq received.registered space object
  have tables := handleCount_of_handles received.processes_eq received.registered object
  have slots := slotCount_of_pair received.channels_eq received.channel queued.identities object
  have escrow := tokenCount_of_pair received.channels_eq received.channel object
  have installed := queued.installs.count object
  have removed := queued.count object
  have objects : (entry.escrow.map (·.capability.object)).count object = entry.objects.count object := rfl
  unfold ownerCount
  omega

theorem Received.ledger (ledger : Ledger before) : Ledger after where
  balanced object := by
    obtain ⟨owners, tables, escrow⟩ := received.counts object
    have registry : after.registry = before.registry := (congrArg registry received.after_eq).trans rfl
    rw [registry, owners, ledger.balanced object, namedCount, namedCount]
    omega
  single object := (received.counts object).1 ▸ ledger.single object
  full := full_of_pair ledger received.channels_eq
    (received.received.full (ledger.full c pair received.channel))

end

variable {capability : Capability}

section
variable (dropped : Dropped before after i process handles k capability)
include dropped

theorem Dropped.processes_eq :
    after.processes = update before.processes i (some { process with handles := handles }) :=
  (congrArg processes dropped.after_eq).trans rfl

theorem Dropped.channels_eq : after.channels = before.channels :=
  (congrArg channels dropped.after_eq).trans rfl

theorem Dropped.counts (object : ObjectId) : after.ownerCount object = before.ownerCount object ∧
      after.namedCount object + (if object = capability.object then 1 else 0) = before.namedCount object := by
  have spaces := addressSpaceCount_of_handles dropped.processes_eq dropped.registered rfl object
  have tables := handleCount_of_handles dropped.processes_eq dropped.registered object
  dsimp only at tables
  have removed := dropped.emptied.count object
  simp only [ownerCount, slotCount, namedCount, tokenCount, dropped.channels_eq]
  omega

theorem Dropped.ledger (ledger : Ledger before) : Ledger after where
  balanced object := by
    obtain ⟨owners, named⟩ := dropped.counts object
    have released := dropped.refs object
    rw [ledger.balanced object] at released
    omega
  single object := (dropped.counts object).1 ▸ ledger.single object
  full := by rw [dropped.channels_eq]; exact ledger.full

end

section
variable (exited : Exited before after i process)
include exited

theorem Exited.processes_eq : after.processes = update before.processes i none :=
  (congrArg processes exited.after_eq).trans rfl

theorem Exited.channels_eq : after.channels = before.channels :=
  (congrArg channels exited.after_eq).trans rfl

theorem Exited.counts (object : ObjectId) :
    after.ownerCount object + (if object = process.addressSpace then 1 else 0) = before.ownerCount object ∧
      after.namedCount object + process.handles.objects.count object = before.namedCount object := by
  have spaces := addressSpaceCount_of_update exited.processes_eq object
  have tables := handleCount_of_update exited.processes_eq object
  simp only [exited.registered, addressSpaces_some, addressSpaces_none, tableObjects_some, tableObjects_none,
    count_cons, count_nil, beq_iff_eq, @eq_comm _ process.addressSpace] at spaces tables
  simp only [ownerCount, slotCount, namedCount, tokenCount, exited.channels_eq]
  omega

theorem Exited.ledger (ledger : Ledger before) : Ledger after where
  balanced object := by
    obtain ⟨owners, named⟩ := exited.counts object
    have released := exited.refs object
    rw [ledger.balanced object] at released
    omega
  single object := by
    have owners := (exited.counts object).1
    have single := ledger.single object
    omega
  full := by rw [exited.channels_eq]; exact ledger.full

end

end

section
variable {j : Fin maxUserProcesses} {child : Nat} {parent : Process handleCapacity} {addressSpace : ObjectId}
  {handles childHandles : HandleTable handleCapacity} {k l : Fin handleCapacity} {capability : Capability}
  {rights : Rights}
variable (spawned : Spawned before after j child parent addressSpace handles childHandles k l capability rights)
include spawned

theorem Spawned.processes_eq :
    after.processes = update (update before.processes 0 (some { parent with handles := handles }))
      j (some ⟨child, addressSpace, childHandles⟩) :=
  (congrArg processes spawned.after_eq).trans rfl

theorem Spawned.channels_eq : after.channels = before.channels :=
  (congrArg channels spawned.after_eq).trans rfl

theorem Spawned.counts (object : ObjectId) :
    after.ownerCount object = before.ownerCount object + (if object = addressSpace then 1 else 0) ∧
      after.namedCount object = before.namedCount object := by
  let middle := before.withProcess 0 { parent with handles := handles }
  have moved : middle.processes = update before.processes 0 (some { parent with handles := handles }) := rfl
  have vacant : middle.processes j = none := by
    rw [moved, update_of_ne spawned.isolated]
    exact spawned.vacant
  have changed : after.processes = update middle.processes j (some ⟨child, addressSpace, childHandles⟩) :=
    spawned.processes_eq
  have parentSpaces := addressSpaceCount_of_handles moved spawned.registered rfl object
  have parentTables := handleCount_of_handles moved spawned.registered object
  dsimp only at parentTables
  have childSpaces := addressSpaceCount_of_update changed object
  have childTables := handleCount_of_update changed object
  have removed := spawned.emptied.count object
  have added := spawned.filled.count object
  simp only [vacant, addressSpaces_none, addressSpaces_some, tableObjects_none, tableObjects_some,
    count_cons, count_nil, beq_iff_eq, @eq_comm _ addressSpace] at childSpaces childTables
  simp only [HandleTable.objects_new, count_nil] at added
  simp only [ownerCount, slotCount, namedCount, tokenCount, spawned.channels_eq]
  omega

theorem Spawned.ledger (ledger : Ledger before) : Ledger after where
  balanced object := by
    obtain ⟨owners, named⟩ := spawned.counts object
    rw [spawned.refs object, owners, named, ledger.balanced object]
    omega
  single := ledger.single_of_fresh spawned.fresh fun object => (spawned.counts object).1
  full := by rw [spawned.channels_eq]; exact ledger.full

end

theorem Transition.ledger (transition : Transition before after) (ledger : Ledger before) : Ledger after := by
  cases transition with
  | withdrawn kept | blocked kept => exact ledger.congr kept.unchanged
  | collected collected => exact collected.ledger
  | booted made | churned made | created made | sent made | received made | dropped made | spawned made | exited made =>
    exact made.ledger ledger

end UserIpcState
end Nagi.Kernel
