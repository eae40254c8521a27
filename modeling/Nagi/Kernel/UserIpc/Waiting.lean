import Nagi.Kernel.UserIpc.Invariant

/-! Waiters and the endpoints they wait on: a registration means that there is
nothing to receive, and a message that arrives ends every wait for it. -/

namespace Nagi.Kernel.UserIpcState

open Lib HandleTable WaitRegistry Function

variable {before after : UserIpcState}

def NothingToReceive (state : UserIpcState) (endpoint : ObjectId) : Prop :=
  ∀ c pair index, (state.channels c).pair = some pair → pair.queueForReceiver endpoint = .ok index →
    (pair.queues index).toList = []

structure Waits (state : UserIpcState) : Prop where
  quiet : ∀ i, state.waiters.wakeups i = none
  single : ∀ i j first second, state.waiters.registrations i = some first →
    state.waiters.registrations j = some second → first.waiterId = second.waiterId → i = j
  interests : ∀ i registration, state.waiters.registrations i = some registration →
    registration.interests = .readable
  drained : ∀ i registration, state.waiters.registrations i = some registration →
    state.NothingToReceive registration.object

theorem Waits.mono (waits : Waits before) (quiet : ∀ i, after.waiters.wakeups i = none)
    (registrations : ∀ i registration, after.waiters.registrations i = some registration →
      before.waiters.registrations i = some registration)
    (queues : ∀ i registration, after.waiters.registrations i = some registration →
      before.NothingToReceive registration.object → after.NothingToReceive registration.object) :
    Waits after where
  quiet := quiet
  single i j first second left right :=
    waits.single i j first second (registrations i first left) (registrations j second right)
  interests i registration held := waits.interests i registration (registrations i registration held)
  drained i registration held :=
    queues i registration held (waits.drained i registration (registrations i registration held))

theorem Waits.of_queues (waits : Waits before) (waiters : after.waiters = before.waiters)
    (queues : ∀ endpoint, before.NothingToReceive endpoint → after.NothingToReceive endpoint) : Waits after :=
  waits.mono (by rw [waiters]; exact waits.quiet) (by rw [waiters]; exact fun _ _ held => held)
    fun _ registration _ => queues registration.object

theorem nothingToReceive_congr (channels : after.channels = before.channels) (endpoint : ObjectId)
    (nothing : before.NothingToReceive endpoint) : after.NothingToReceive endpoint := by
  intro c
  rw [channels]
  exact nothing c

theorem nothingToReceive_of_update {c : Fin channelCapacity} {pair : ChannelPair} {endpoint : ObjectId}
    (changed : after.channels = update before.channels c (.occupied pair))
    (nothing : before.NothingToReceive endpoint)
    (empty : ∀ index, pair.queueForReceiver endpoint = .ok index → (pair.queues index).toList = []) :
    after.NothingToReceive endpoint := by
  intro d other index held queue
  rw [changed] at held
  by_cases same : d = c
  · subst same
    rw [update_self] at held
    cases held
    exact empty index queue
  · rw [update_of_ne same] at held
    exact nothing d other index held queue

theorem admitted (waits : Waits before) : before.waiters.occupied ≤ maxWaitWakeups := by
  have none : before.waiters.queued = 0 := by
    exact Finset.sum_eq_zero fun i _ => by rw [waits.quiet i]; rfl
  rw [occupied_eq, none]
  exact before.waiters.registered_le

section
variable {i : Fin maxUserProcesses} {c : Fin channelCapacity} {process process' : Process handleCapacity}
  {pair pair' : ChannelPair} {endpoint : Handle} {capability : Capability} {index : Fin 2}

section
variable {message : OutgoingMessage} {tokens : List TransferToken} {woken : List Nat}

theorem notified_iff (waits : Waits before) (peer : ObjectId) (key : Nat × Nat) :
    WaitRegistry.Notified before.waiters peer .readable key ↔
      ∃ j registration, before.waiters.registrations j = some registration ∧ registration.object = peer ∧
        registration.key = key := by
  refine exists_congr fun j => exists_congr fun registration => and_congr_right fun held => ?_
  have readable := waits.interests j registration held
  have meets : Signals.readable.intersects Signals.readable = true := by decide
  simp only [isNotifiedBy, readable, meets, Bool.and_true, beq_iff_eq]

section
variable (sent : Sent before after i c process process' pair pair' endpoint message capability index tokens woken)
include sent

theorem Sent.registrations (waits : Waits before) (j : Fin maxWaitItems) (registration : WaitRegistration) :
    after.waiters.registrations j = some registration ↔
      before.waiters.registrations j = some registration ∧
        registration.object ≠ pair.peerOf capability.object := by
  obtain ⟨waiters, queued, taken⟩ := sent.sent
  obtain ⟨_, kept, _⟩ := notifyRun_spec (pair.peerOf capability.object) .readable (admitted waits)
  have same : after.waiters.registrations = waiters.registrations := by
    rw [show after.waiters = waiters.takeWokenWaiters.2 by rw [taken]]
    rfl
  have notified : waiters = (before.waiters.notifyRun (pair.peerOf capability.object) .readable).2.registry :=
    queued.notified
  rw [same, notified, kept j registration]
  refine and_congr_right fun held => not_congr ?_
  rw [notified_iff waits]
  constructor
  · rintro ⟨l, other, there, object, key⟩
    have position := waits.single l j other registration there held (congrArg Prod.fst key)
    subst position
    have identical := there.symm.trans held
    cases identical
    exact object
  · intro object
    exact ⟨j, registration, held, object, rfl⟩

theorem Sent.woken_iff (waits : Waits before) : woken.Nodup ∧ ∀ id, id ∈ woken ↔
      ∃ j registration, before.waiters.registrations j = some registration ∧
        registration.object = pair.peerOf capability.object ∧ registration.waiterId = id := by
  obtain ⟨waiters, queued, taken⟩ := sent.sent
  obtain ⟨_, _, recorded⟩ := notifyRun_spec (pair.peerOf capability.object) .readable (admitted waits)
  have notified : waiters = (before.waiters.notifyRun (pair.peerOf capability.object) .readable).2.registry :=
    queued.notified
  obtain ⟨distinct, members⟩ := waiters.takeWokenWaiters_spec
  rw [taken] at distinct members
  refine ⟨distinct, fun id => (members id).trans ?_⟩
  rw [notified]
  simp only [recorded]
  have idle : ∀ key, ¬before.waiters.isQueued key = true := by
    intro key found
    obtain ⟨slot, wake, held, _⟩ := isQueued_iff.mp found
    rw [waits.quiet slot] at held
    cases held
  simp only [idle, Bool.false_eq_true, false_or, notified_iff waits]
  constructor
  · rintro ⟨epoch, j, registration, held, object, key⟩
    exact ⟨j, registration, held, object, congrArg Prod.fst key⟩
  · rintro ⟨j, registration, held, object, rfl⟩
    exact ⟨registration.epoch, j, registration, held, object, rfl⟩

theorem Sent.waits (waits : Waits before) : Waits after := by
  have registrations := sent.registrations waits
  obtain ⟨waiters, queued, taken⟩ := sent.sent
  refine waits.mono ?_ (fun j registration held => ((registrations j registration).mp held).1) ?_
  · intro j
    rw [show after.waiters = waiters.takeWokenWaiters.2 by rw [taken]]
    rfl
  intro j registration held nothing
  refine nothingToReceive_of_update sent.channels_eq nothing fun other queue => ?_
  have foreign := ((registrations j registration).mp held).2
  have empty := nothing c pair other sent.channel
  rw [queued.pair_eq] at queue
  by_cases same : other = index
  · subst same
    exact absurd (ChannelPair.receiver_is_peer queued.queue queue) foreign
  · rw [queued.pair_eq, ChannelPair.withQueue_of_ne pair _ same]
    exact empty queue

end

end

theorem Received.waits {message : ReceivedMessage} {entry : QueuedMessage}
    (received : Received before after i c process process' pair pair' endpoint message capability index entry)
    (waits : Waits before) : Waits after := by
  have waiters : after.waiters = before.waiters := by rw [received.after_eq]; rfl
  refine waits.of_queues waiters fun other nothing => ?_
  refine nothingToReceive_of_update received.channels_eq nothing fun place queue => ?_
  rw [received.received.pair_eq] at queue
  have empty := nothing c pair place received.channel queue
  by_cases same : place = index
  · subst same
    rw [received.received.dequeued] at empty
    cases empty
  · rw [received.received.pair_eq, ChannelPair.withQueue_of_ne pair _ same]
    exact empty

end

theorem Blocked.waits {waiterId c pair object index free}
    (blocked : Blocked before after waiterId c pair object index free) (ledger : Ledger before)
    (waits : Waits before) : Waits after := by
  have waiters : after.waiters = (before.waiters.cancelWaiter waiterId).withRegistration free
      ⟨waiterId, 1, object, .readable, 0⟩ := by rw [blocked.after_eq]
  have channels := blocked.unchanged.2.2
  have withdrawn := cancelWaiter_withdrawn before waiterId
  -- A registration after the wait is the new one or an old one of another waiter.
  have origin : ∀ i registration, after.waiters.registrations i = some registration →
      i = free ∧ registration = ⟨waiterId, 1, object, .readable, 0⟩ ∨
        before.waiters.registrations i = some registration ∧ registration.waiterId ≠ waiterId := by
    intro i registration held
    rw [waiters] at held
    rcases withRegistration_eq_some.mp held with new | ⟨_, old⟩
    · exact .inl new
    · refine .inr ⟨withdrawn.registrations i registration old, ?_⟩
      simpa using (removeWhere_eq_some.mp old).2
  have nothing : after.NothingToReceive object := by
    intro d other place held queue
    rw [channels] at held
    have same : d = c := ledger.endpoint_unique
      (by rw [ChannelSlot.endpoints_of_pair held]; exact ChannelPair.receiver_mem queue)
      (by rw [ChannelSlot.endpoints_of_pair blocked.channel]; exact ChannelPair.receiver_mem blocked.queue)
    subst same
    have pairs := held.symm.trans blocked.channel
    cases pairs
    have places := queue.symm.trans blocked.queue
    cases places
    exact blocked.empty
  refine ⟨fun i => ?_, fun i j first second left right same => ?_, fun i registration held => ?_,
    fun i registration held => ?_⟩
  · rw [waiters]
    exact withdrawn.wakeups i (waits.quiet i)
  · rcases origin i first left with ⟨rfl, rfl⟩ | ⟨left', foreign⟩ <;>
      rcases origin j second right with ⟨rfl, rfl⟩ | ⟨right', foreign'⟩
    · rfl
    · exact absurd same.symm foreign'
    · exact absurd same foreign
    · exact waits.single i j first second left' right' same
  · rcases origin i registration held with ⟨_, rfl⟩ | ⟨old, _⟩
    · rfl
    · exact waits.interests i registration old
  · rcases origin i registration held with ⟨_, rfl⟩ | ⟨old, _⟩
    · exact nothing
    · exact nothingToReceive_congr channels _ (waits.drained i registration old)

theorem Transition.waits (transition : Transition before after) (ledger : Ledger before) (waits : Waits before) :
    Waits after := by
  cases transition with
  | booted kept | dropped kept | spawned kept =>
    exact waits.of_queues (by rw [kept.after_eq]; rfl) (nothingToReceive_congr kept.channels_eq)
  | churned churned => exact waits.of_queues churned.waiters (nothingToReceive_congr churned.channels)
  | withdrawn withdrawn =>
    exact waits.mono (fun i => withdrawn.wakeups i (waits.quiet i)) withdrawn.registrations
      fun i registration _ => nothingToReceive_congr withdrawn.unchanged.2.2 registration.object
  | blocked blocked => exact blocked.waits ledger waits
  | created created =>
    refine waits.of_queues (by rw [created.after_eq]; rfl) fun endpoint nothing => ?_
    exact nothingToReceive_of_update created.channels_eq nothing fun index _ => created.empty index
  | sent sent => exact sent.waits waits
  | received received => exact received.waits waits
  | exited exited =>
    exact waits.of_queues (by rw [exited.after_eq]) (nothingToReceive_congr exited.channels_eq)
  | collected collected =>
    refine waits.of_queues collected.waiters fun endpoint nothing c pair index held queue => ?_
    rw [collected.channels c] at held
    split at held
    · exact nothing c pair index held queue
    · cases held

end Nagi.Kernel.UserIpcState
