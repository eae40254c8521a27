import Nagi.Kernel.UserIpc.Atomicity
import Nagi.Kernel.UserIpc.Reclamation

/-! Blocked readers: whom a send wakes, and which registrations a collection
leaves without a channel. -/

namespace Nagi.Kernel.UserIpcState

open Lib HandleTable WaitRegistry

variable {before after : UserIpcState}

theorem Boots.waiters_eq (boots : Boots before after) : after.waiters = before.waiters := by
  rcases boots with rfl | ⟨_, booted⟩
  · rfl
  · rw [booted.after_eq]
    rfl

def WaitsOn (state : UserIpcState) (endpoint : ObjectId) (waiterId : Nat) : Prop :=
  ∃ j registration, state.waiters.registrations j = some registration ∧ registration.object = endpoint ∧
    registration.waiterId = waiterId

/-- What a successful send on the endpoint does to the readers of its peer. -/
structure Wakes (before after : UserIpcState) (peer : ObjectId) (woken : List Nat) : Prop where
  removed : ∀ j registration, after.waiters.registrations j = some registration ↔
    before.waiters.registrations j = some registration ∧ registration.object ≠ peer
  once : woken.Nodup
  exactly : ∀ waiterId, waiterId ∈ woken ↔ before.WaitsOn peer waiterId

variable {state : UserIpcState}

theorem send_wakes (invariant : Invariant state) (processId : Nat) (handle : BitVec 64) (request : ChannelSendRequest) :
    (∃ error, (state.send processId handle request).1 = .error error ∧
        (state.send processId handle request).2.waiters = state.waiters) ∨
      ∃ woken c endpoint pair, (state.send processId handle request).1 = .ok woken ∧
        state.locateEndpoint processId ⟨handle⟩ = .ok (c, endpoint) ∧ (state.channels c).pair = some pair ∧
        Wakes state (state.send processId handle request).2 (pair.peerOf endpoint) woken := by
  obtain ⟨ready, boots, alternatives⟩ := send_spec invariant.ledger processId handle request
  rcases alternatives with ⟨error, _, failed, _⟩ |
    ⟨woken, after, _, c, _, _, pair, _, _, capability, _, _, accepted, found, _, sent⟩
  · exact .inl ⟨error, by rw [failed], by rw [failed]; exact boots.waiters_eq⟩
  · obtain ⟨_, queued, _⟩ := sent.sent
    obtain rfl := boots.eq_of_entry invariant.roster sent.registered queued.found
    obtain ⟨once, exactly⟩ := sent.woken_iff invariant.waits
    rw [accepted]
    exact .inr ⟨woken, c, capability.object, pair, rfl, sent.located invariant.ledger found, sent.channel,
      sent.registrations invariant.waits, once, exactly⟩

/-- A registered reader has nothing to receive. A successful send takes the
readers of its peer out of the registry and returns each of them once. The
wakeup table never runs full. -/
theorem wakeups_exact (operations : List Operation) :
    let state := run operations
    (∀ j registration, state.waiters.registrations j = some registration →
      registration.interests = .readable ∧ state.NothingToReceive registration.object) ∧
    (∀ processId handle request woken after, state.send processId handle request = (.ok woken, after) →
      ∃ c endpoint pair, state.locateEndpoint processId ⟨handle⟩ = .ok (c, endpoint) ∧
        (state.channels c).pair = some pair ∧ Wakes state after (pair.peerOf endpoint) woken) ∧
    ∀ object signals, .noFreeWakeup ∉ (state.waiters.notifyRun object signals).1 := by
  intro state
  have invariant : Invariant state := run_invariant operations
  refine ⟨?_, ?_, ?_⟩
  · intro j registration held
    exact ⟨invariant.waits.interests j registration held, invariant.waits.drained j registration held⟩
  · intro processId handle request woken after succeeded
    have alternatives := send_wakes invariant processId handle request
    rw [succeeded] at alternatives
    rcases alternatives with ⟨_, failed, _⟩ | ⟨_, c, endpoint, pair, accepted, located, channel, wakes⟩
    · cases failed
    · cases accepted
      exact ⟨c, endpoint, pair, located, channel, wakes⟩
  · intro object signals
    exact (notifyRun_spec object signals (admitted invariant.waits)).1

theorem waitsOn_congr (waiters : after.waiters = before.waiters) (endpoint : ObjectId) (waiterId : Nat) :
    after.WaitsOn endpoint waiterId ↔ before.WaitsOn endpoint waiterId := by
  unfold WaitsOn
  rw [waiters]

theorem waitsOn_of_removed {P : ObjectId → Nat → Prop} (removed : ∀ j registration,
      after.waiters.registrations j = some registration ↔
        before.waiters.registrations j = some registration ∧ P registration.object registration.waiterId)
    (endpoint : ObjectId) (waiterId : Nat) :
    after.WaitsOn endpoint waiterId ↔ before.WaitsOn endpoint waiterId ∧ P endpoint waiterId := by
  constructor
  · rintro ⟨j, registration, held, rfl, rfl⟩
    obtain ⟨earlier, kept⟩ := (removed j registration).mp held
    exact ⟨⟨j, registration, earlier, rfl, rfl⟩, kept⟩
  · rintro ⟨⟨j, registration, held, rfl, rfl⟩, kept⟩
    exact ⟨j, registration, (removed j registration).mpr ⟨held, kept⟩, rfl, rfl⟩

theorem Wakes.waitsOn {peer : ObjectId} {woken : List Nat} (wakes : Wakes before after peer woken) :
    ∀ endpoint waiterId, after.WaitsOn endpoint waiterId ↔ before.WaitsOn endpoint waiterId ∧ endpoint ≠ peer :=
  waitsOn_of_removed wakes.removed

theorem cancelWaiter_waitsOn (state : UserIpcState) (waiterId : Nat) : ∀ endpoint other,
    (state.cancelWaiter waiterId).WaitsOn endpoint other ↔ state.WaitsOn endpoint other ∧ other ≠ waiterId := by
  refine waitsOn_of_removed fun j registration => removeWhere_eq_some.trans (and_congr_right fun _ => ?_)
  simp

theorem Withdrawn.waitsOn {waiterId : Nat} (withdrawn : Withdrawn before after waiterId)
    (idle : ∀ endpoint, ¬before.WaitsOn endpoint waiterId) (endpoint : ObjectId) (other : Nat) :
    after.WaitsOn endpoint other ↔ before.WaitsOn endpoint other := by
  constructor
  · rintro ⟨j, registration, held, named⟩
    exact ⟨j, registration, withdrawn.registrations j registration held, named⟩
  · rintro ⟨j, registration, held, rfl, rfl⟩
    refine ⟨j, registration, withdrawn.others j registration held ?_, rfl, rfl⟩
    intro same
    exact idle registration.object ⟨j, registration, held, rfl, same⟩

theorem Blocked.waitsOn {waiterId c pair object index free}
    (blocked : Blocked before after waiterId c pair object index free)
    (idle : ∀ endpoint, ¬before.WaitsOn endpoint waiterId) (endpoint : ObjectId) (other : Nat) :
    after.WaitsOn endpoint other ↔ before.WaitsOn endpoint other ∨ endpoint = object ∧ other = waiterId := by
  have earlier : (before.cancelWaiter waiterId).WaitsOn endpoint other ↔ before.WaitsOn endpoint other := by
    rw [cancelWaiter_waitsOn]
    refine ⟨And.left, fun waits => ⟨waits, ?_⟩⟩
    rintro rfl
    exact idle endpoint waits
  rw [← earlier]
  rw [blocked.after_eq]
  constructor
  · rintro ⟨j, registration, held, rfl, rfl⟩
    rcases withRegistration_eq_some.mp held with ⟨_, rfl⟩ | ⟨_, old⟩
    · exact .inr ⟨rfl, rfl⟩
    · exact .inl ⟨j, registration, old, rfl, rfl⟩
  · rintro (⟨j, registration, held, rfl, rfl⟩ | ⟨rfl, rfl⟩)
    · refine ⟨j, registration, withRegistration_eq_some.mpr (.inr ⟨?_, held⟩), rfl, rfl⟩
      rintro rfl
      rw [show (before.cancelWaiter waiterId).waiters = before.waiters.cancelWaiter waiterId from rfl,
        blocked.vacant] at held
      cases held
    · exact ⟨free, _, withRegistration_eq_some.mpr (.inl ⟨rfl, rfl⟩), rfl, rfl⟩

def Operation.movesWaiters : Operation → Bool
  | .send .. | .waitReadable .. | .cancelWaiter .. => true
  | _ => false

variable {operation : Operation}

theorem step_waiters (invariant : Invariant state) (still : operation.movesWaiters = false) :
    (state.step operation).2.waiters = state.waiters := by
  obtain ⟨ready, boots, outcome, _⟩ := step_outcome invariant operation
  rw [← boots.waiters_eq]
  generalize (state.step operation).1 = result, (state.step operation).2 = after at outcome ⊢
  cases outcome with
  | refused | peerClosed | nothing => rfl
  | uncreated _ churned | unspawned churned => exact churned.waiters
  | created _ created => rw [created.after_eq]; rfl
  | received _ received => rw [received.after_eq]; rfl
  | closed _ _ _ _ dropped collected => rw [collected.waiters, dropped.after_eq]; rfl
  | spawned spawned => rw [spawned.after_eq]; rfl
  | exited _ _ exited collected => rw [collected.waiters, exited.after_eq]
  | sent | waited | blocked | cancelled => cases still

/-- A reader that is not registered: its wait ends at once, or it is registered
and its thread blocked, or it is not allowed to block. -/
theorem waitReadable_waitsOn {σ : Type} (invariant : Invariant state) (processId : Nat) (handle : BitVec 64)
    (waiterId : Nat) (onBlocked : σ → Bool × σ) (caller : σ) (idle : ∀ endpoint, ¬state.WaitsOn endpoint waiterId) :
    let result := state.waitReadable processId handle waiterId onBlocked caller
    Invariant result.2.1 ∧
      ((result.1 ≠ .ok .blocked ∧ (result.2.2 = caller ∨ (false, result.2.2) = onBlocked caller) ∧
          ∀ endpoint other, result.2.1.WaitsOn endpoint other ↔ state.WaitsOn endpoint other) ∨
        ∃ object, result.1 = .ok .blocked ∧ (true, result.2.2) = onBlocked caller ∧
          ∀ endpoint other, result.2.1.WaitsOn endpoint other ↔
            state.WaitsOn endpoint other ∨ endpoint = object ∧ other = waiterId) := by
  intro result
  obtain ⟨ready, boots, alternatives⟩ :=
    waitReadable_spec invariant.ledger processId handle waiterId onBlocked caller
  have invariant' := invariant.boots boots
  have same := waitsOn_congr boots.waiters_eq
  have idle' : ∀ endpoint, ¬ready.WaitsOn endpoint waiterId := fun endpoint waits =>
    idle endpoint ((same endpoint waiterId).mp waits)
  unfold result
  rcases alternatives with ⟨outcome, after, caller', answer, ended, _, left, withdrawn⟩ |
    ⟨after, caller', c, pair, object, index, free, agreed, answer, blocked⟩
  · rw [answer]
    refine ⟨Transition.invariant (.withdrawn withdrawn) invariant', .inl ⟨ended, left, fun endpoint other => ?_⟩⟩
    exact (withdrawn.waitsOn idle' endpoint other).trans (same endpoint other)
  · rw [answer]
    refine ⟨Transition.invariant (.blocked blocked) invariant',
      .inr ⟨object, rfl, agreed.symm, fun endpoint other => ?_⟩⟩
    rw [blocked.waitsOn idle', same]

/-- Every registration names an endpoint of an occupied channel slot. -/
def RegistrationsOpen (state : UserIpcState) : Prop :=
  ∀ j registration, state.waiters.registrations j = some registration →
    ∃ c, registration.object ∈ (state.channels c).endpoints

instance (state : UserIpcState) : Decidable (RegistrationsOpen state) :=
  inferInstanceAs (Decidable (∀ j, ∀ registration ∈ state.waiters.registrations j,
    ∃ c, registration.object ∈ (state.channels c).endpoints))

/-- The channels of all registered endpoints are reachable without the given handles. -/
def WaitedReachable (state : UserIpcState) (gone : Fin maxUserProcesses → Fin handleCapacity → Prop) : Prop :=
  ∀ j registration c, state.waiters.registrations j = some registration →
    registration.object ∈ (state.channels c).endpoints → state.ReachableWithout gone c

/-- A call that closes a handle or ends a process leaves the channels that are
waited on reachable. -/
def KeepsWaited (state : UserIpcState) : Operation → Prop
  | .close processId rawHandle => (state.locateEndpoint processId ⟨rawHandle⟩).isOk = true →
      state.WaitedReachable (state.GivesUp (.close processId rawHandle))
  | .exitProcess processId => processId ≠ bootstrapProcessId → (state.processRef processId).isOk = true →
      state.WaitedReachable (state.GivesUp (.exitProcess processId))
  | _ => True

theorem RegistrationsOpen.mono (isOpen : RegistrationsOpen before)
    (registrations : ∀ j registration, after.waiters.registrations j = some registration →
      before.waiters.registrations j = some registration)
    (endpoints : ∀ c object, object ∈ (before.channels c).endpoints → object ∈ (after.channels c).endpoints) :
    RegistrationsOpen after := by
  intro j registration held
  obtain ⟨c, member⟩ := isOpen j registration (registrations j registration held)
  exact ⟨c, endpoints c registration.object member⟩

theorem RegistrationsOpen.congr (isOpen : RegistrationsOpen before) (waiters : after.waiters = before.waiters)
    (channels : after.channels = before.channels) : RegistrationsOpen after := by
  unfold RegistrationsOpen
  rw [waiters, channels]
  exact isOpen

theorem Withdrawn.registrationsOpen {waiterId : Nat} (withdrawn : Withdrawn before after waiterId)
    (isOpen : RegistrationsOpen before) : RegistrationsOpen after := by
  apply isOpen.mono withdrawn.registrations
  intro c object member
  rw [withdrawn.unchanged.2.2]
  exact member

theorem Blocked.registrationsOpen {waiterId c pair object index free}
    (blocked : Blocked before after waiterId c pair object index free) (isOpen : RegistrationsOpen before) :
    RegistrationsOpen after := by
  have channels := blocked.unchanged.2.2
  intro j registration held
  rw [channels]
  rw [blocked.after_eq] at held
  rcases withRegistration_eq_some.mp held with ⟨_, rfl⟩ | ⟨_, earlier⟩
  · refine ⟨c, ?_⟩
    rw [ChannelSlot.endpoints_of_pair blocked.channel]
    exact ChannelPair.receiver_mem blocked.queue
  · exact isOpen j registration (removeWhere_eq_some.mp earlier).1

section
variable {i : Fin maxUserProcesses} {c : Fin channelCapacity} {process process' : Process handleCapacity}
  {pair pair' : ChannelPair} {handle : Handle} {capability : Capability} {index : Fin 2}

theorem Created.registrationsOpen {middle handles : HandleTable handleCapacity} {k l : Fin handleCapacity}
    (created : Created before after i c process pair middle handles k l) (isOpen : RegistrationsOpen before) :
    RegistrationsOpen after := by
  apply isOpen.mono
  · intro j registration held
    rw [created.after_eq] at held
    exact held
  intro d object member
  rw [created.channels_eq]
  by_cases here : d = c
  · subst here
    rw [ChannelSlot.eq_new_of_pair created.vacant] at member
    cases member
  · rw [Function.update_of_ne here]
    exact member

theorem Sent.registrationsOpen {message : OutgoingMessage} {tokens : List TransferToken} {woken : List Nat}
    (sent : Sent before after i c process process' pair pair' handle message capability index tokens woken)
    (waits : Waits before) (isOpen : RegistrationsOpen before) : RegistrationsOpen after := by
  apply isOpen.mono
  · intro j registration held
    exact ((sent.registrations waits j registration).mp held).1
  · intro d object member
    rw [sent.endpoints_eq]
    exact member

theorem Received.registrationsOpen {message : ReceivedMessage} {entry : QueuedMessage}
    (received : Received before after i c process process' pair pair' handle message capability index entry)
    (isOpen : RegistrationsOpen before) : RegistrationsOpen after := by
  apply isOpen.mono
  · intro j registration held
    rw [received.after_eq] at held
    exact held
  · intro d object member
    rw [received.endpoints_eq]
    exact member

end

theorem Collected.registrationsOpen_iff {start : UserIpcState}
    {gone : Fin maxUserProcesses → Fin handleCapacity → Prop} (collected : Collected before after)
    (ledger : Ledger before) (isOpen : RegistrationsOpen start) (channels : before.channels = start.channels)
    (waiters : before.waiters = start.waiters)
    (holds : ∀ i k capability, before.Holds i k capability ↔ start.Holds i k capability ∧ ¬gone i k) :
    RegistrationsOpen after ↔ start.WaitedReachable gone := by
  have reach : ∀ c, before.reachableChannels c = true ↔ start.ReachableWithout gone c := by
    intro c
    rw [reachableChannels_iff ledger, Reachable, ReachableWithout]
    have roots : before.Held = start.HeldWithout gone := by
      funext d
      simp only [held_iff, HeldWithout, holds, channels, and_assoc]
    rw [roots, escrows_congr channels]
  constructor
  · intro stillOpen j registration c held member
    -- the endpoint is in one slot only, so that slot was kept
    obtain ⟨d, kept⟩ := stillOpen j registration (by rw [collected.waiters, waiters]; exact held)
    rw [collected.channels d] at kept
    split at kept
    · next marked =>
      rw [← channels] at member
      rw [ledger.endpoint_unique member kept]
      exact (reach d).mp marked
    · cases kept
  · intro reachable j registration held
    rw [collected.waiters, waiters] at held
    obtain ⟨c, member⟩ := isOpen j registration held
    refine ⟨c, ?_⟩
    rw [collected.channels c, if_pos ((reach c).mpr (reachable j registration c held member)), channels]
    exact member

theorem keepsWaited_of_refused {after : UserIpcState} (invariant : Invariant state) {error : UserIpcError}
    (refused : state.step operation = (.error error, after)) : state.KeepsWaited operation := by
  cases operation with
  | close processId rawHandle =>
    intro located
    cases found : state.locateEndpoint processId ⟨rawHandle⟩ with
    | error _ => simp [found, Except.isOk, Except.toBool] at located
    | ok place =>
      obtain ⟨_, _, _, registered, _⟩ := locateEndpoint_spec found
      have succeeded := close_of_located invariant.ledger (processMut_of_ref invariant.roster registered) found
      have failed := congrArg Prod.fst refused
      simp only [step, Prod.map_fst, succeeded] at failed
      cases failed
  | exitProcess processId =>
    intro isolated registered
    have succeeded := exitProcess_registered invariant.ledger isolated registered
    have failed := congrArg Prod.fst refused
    simp only [step, Prod.map_fst, succeeded] at failed
    cases failed
  | _ => trivial

theorem step_registrationsOpen_iff (operation : Operation) (invariant : Invariant state)
    (isOpen : RegistrationsOpen state) :
    RegistrationsOpen (state.step operation).2 ↔ state.KeepsWaited operation := by
  obtain ⟨ready, boots, outcome, _⟩ := step_outcome invariant operation
  have ledger := boots.ledger invariant.ledger
  have waits := (invariant.boots boots).waits
  have start := isOpen.congr boots.waiters_eq boots.channels_eq
  generalize answer : state.step operation = result at outcome ⊢
  obtain ⟨reply, after⟩ := result
  cases outcome with
  | refused => exact iff_of_true start (keepsWaited_of_refused invariant answer)
  | peerClosed | nothing => exact iff_of_true start trivial
  | uncreated _ churned | unspawned churned =>
    exact iff_of_true (start.congr churned.waiters churned.channels) trivial
  | sent _ _ sent => exact iff_of_true (sent.registrationsOpen waits start) trivial
  | created _ done | received _ done | waited _ done | cancelled done | blocked done =>
    exact iff_of_true (done.registrationsOpen start) trivial
  | spawned spawned =>
    have waiters := (congrArg UserIpcState.waiters spawned.after_eq).trans rfl
    exact iff_of_true (start.congr waiters spawned.channels_eq) trivial
  | closed found located entry named dropped collected =>
    obtain rfl := boots.eq_of_entry invariant.roster dropped.registered entry
    have waiters := (congrArg UserIpcState.waiters dropped.after_eq).trans rfl
    refine (collected.registrationsOpen_iff (dropped.ledger ledger) start dropped.channels_eq waiters ?_).trans
      ⟨fun reachable _ => reachable, fun keeps => keeps located⟩
    intro j l capability
    rw [dropped.holds_iff]
    refine and_congr_right fun _ => not_congr ?_
    simp only [GivesUp, found, Except.ok.injEq, Prod.mk.injEq]
    constructor
    · rintro ⟨rfl, rfl⟩
      exact ⟨_, ⟨rfl, rfl⟩, named⟩
    · rintro ⟨_, ⟨rfl, rfl⟩, named'⟩
      rw [named] at named'
      cases named'
      exact ⟨rfl, rfl⟩
  | exited isolated found exited collected =>
    obtain rfl := boots.eq_of_isolated invariant.roster exited.registered exited.isolated
    have waiters := (congrArg UserIpcState.waiters exited.after_eq).trans rfl
    refine (collected.registrationsOpen_iff (exited.ledger ledger) start exited.channels_eq waiters ?_).trans
      ⟨fun reachable _ _ => reachable, fun keeps => keeps isolated (by rw [found]; rfl)⟩
    intro j l capability
    rw [exited.holds_iff]
    refine and_congr_right fun _ => not_congr ?_
    simp only [GivesUp, found, Except.ok.injEq, Prod.mk.injEq]
    constructor
    · rintro rfl
      exact ⟨_, rfl, rfl⟩
    · rintro ⟨_, rfl, _⟩
      rfl

/-- Every registration has its channel exactly as long as no call takes away the
last path to a channel that is waited on. -/
theorem registrations_open_iff (operations : List Operation) :
    Runs.Always step RegistrationsOpen new operations ↔ Runs.EachStep step KeepsWaited new operations :=
  Runs.always_iff (I := Invariant) step_invariant
    (fun _ operation invariant isOpen => step_registrationsOpen_iff operation invariant isOpen) invariant_new nofun
    operations

/-- Block on the second endpoint of a new channel, then close both. The slots of
the two handles are at the given generation. -/
def abandonReader (round : Nat) : List Operation :=
  let first := (Handle.new 0 (round + 1)).raw
  let second := (Handle.new 1 (round + 1)).raw
  [.createPair bootstrapProcessId, .waitReadable bootstrapProcessId second round true,
    .close bootstrapProcessId first, .close bootstrapProcessId second]

def abandonReaders : List Operation := (List.range maxWaitItems).flatMap abandonReader

/-- One abandoned reader leaves a registration without a channel; eight of them
leave no slot for anybody else, although no channel exists any more. -/
theorem abandoned_readers_stay :
    ¬RegistrationsOpen (run (abandonReader 0)) ∧ (∀ c, ((run abandonReaders).channels c).pair.isNone = true) ∧
      ((run (abandonReaders ++ [.createPair bootstrapProcessId])).waitReadable bootstrapProcessId
        (Handle.new 0 9).raw 9 (fun caller => (true, caller)) ()).1 = .error (.wait .tooMany) := by
  decide +kernel

def patientReader : List Operation :=
  [.createPair bootstrapProcessId, .waitReadable bootstrapProcessId (Handle.new 1 1).raw 0 true,
    .close bootstrapProcessId (Handle.new 0 1).raw]

theorem patient_reader_keeps_channel : Runs.EachStep step KeepsWaited new patientReader := by
  refine (registrations_open_iff patientReader).mp (Runs.always_of_prefixes ?_)
  decide +kernel

end Nagi.Kernel.UserIpcState
