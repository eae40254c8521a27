import Nagi.Kernel.Ipc.Wait

/-! What `notify`, `take_woken_waiters` and `wait` do to the wait registry.

Admission bounds registrations and wakeups together by the number of wakeup
slots. Each notification trades at least one registration for at most one
wakeup, so `notify` always finds a free wakeup slot. -/

namespace Nagi.Kernel.WaitRegistry

open Lib Function List

variable (registry : WaitRegistry)

def registered : Nat :=
  ∑ i, if (registry.registrations i).isSome = true then 1 else 0

def queued : Nat :=
  ∑ i, if (registry.wakeups i).isSome = true then 1 else 0

theorem occupied_eq : registry.occupied = registry.registered + registry.queued := by
  rw [occupied, Table.countP_finRange, Table.countP_finRange]
  rfl

theorem registered_le : registry.registered ≤ maxWaitItems := by
  have bound : registry.registered ≤ ∑ _i : Fin maxWaitItems, 1 :=
    Finset.sum_le_sum fun i _ => by split <;> omega
  simpa using bound

variable {registry}

theorem isQueued_iff {key : Nat × Nat} :
    registry.isQueued key = true ↔ ∃ i wake, registry.wakeups i = some wake ∧ wake.key = key := by
  simp only [isQueued, any_eq_true, mem_finRange, true_and, Option.any_eq_true, beq_iff_eq]

variable {p : WaitRegistration → Bool} {i : Fin maxWaitItems} {registration : WaitRegistration}

theorem removeWhere_eq_some : (registry.removeWhere p).registrations i = some registration ↔
      registry.registrations i = some registration ∧ p registration = false := by
  simp [removeWhere, Option.filter_eq_some_iff]

theorem registered_removeWhere_lt (held : registry.registrations i = some registration)
    (removed : p registration = true) : (registry.removeWhere p).registered < registry.registered := by
  refine Finset.sum_lt_sum (fun j _ => ?_) ⟨i, Finset.mem_univ i, ?_⟩
  · cases other : registry.registrations j with
    | none => simp [removeWhere, other]
    | some registration => simp only [Option.isSome_some, if_true]; split <;> omega
  · simp [removeWhere, held, removed]

section
variable (start : WaitRegistry) (object : ObjectId) (signals : Signals)

def Notified (key : Nat × Nat) : Prop :=
  ∃ i registration, start.registrations i = some registration ∧
    isNotifiedBy object signals registration = true ∧ registration.key = key

/-- The loop has notified the waits `keys` and passed no other registration it
should notify. -/
structure Progress (keys : List (Nat × Nat)) (loop : NotifyLoop) : Prop where
  admitted : loop.registry.occupied ≤ maxWaitWakeups
  registrations : ∀ i registration, loop.registry.registrations i = some registration ↔
    start.registrations i = some registration ∧ registration.key ∉ keys
  notified : ∀ key ∈ keys, Notified start object signals key
  queued : ∀ key, loop.registry.isQueued key = true ↔ start.isQueued key = true ∨ key ∈ keys
  scanned : ∀ i : Fin maxWaitItems, i.val < loop.index → ∀ registration,
    loop.registry.registrations i = some registration → isNotifiedBy object signals registration = false

/-- Nine for each registration left, and the entries still ahead of the scan. -/
def remaining (loop : NotifyLoop) : Nat :=
  9 * loop.registry.registered + (maxWaitItems - loop.index)

variable {start object signals}

variable {loop : NotifyLoop}

theorem remaining_restart (flag : Bool) (fewer : registry.registered < loop.registry.registered) :
    remaining ⟨registry, 0, flag⟩ < remaining loop := by
  simp only [remaining, maxWaitItems] at *
  omega

variable {keys : List (Nat × Nat)}

theorem Progress.advance (progress : Progress start object signals keys loop) (here : i.val = loop.index)
    (skipped : ∀ registration, loop.registry.registrations i = some registration →
      isNotifiedBy object signals registration = false) :
    Progress start object signals keys { loop with index := loop.index + 1 } where
  admitted := progress.admitted
  registrations := progress.registrations
  notified := progress.notified
  queued := progress.queued
  scanned j before registration held := by
    by_cases same : j = i
    · subst same; exact skipped registration held
    · have before : j.val < loop.index + 1 := before
      exact progress.scanned j (by omega) registration held

theorem Progress.restart {registration : WaitRegistration} (progress : Progress start object signals keys loop)
    (held : loop.registry.registrations i = some registration)
    (matched : isNotifiedBy object signals registration = true) (registry : WaitRegistry)
    (same : registry.registrations = loop.registry.registrations)
    (queued : ∀ key, registry.isQueued key = true ↔ loop.registry.isQueued key = true ∨ key = registration.key)
    (count : registry.queued ≤ loop.registry.queued + 1) (flag : Bool) :
    Progress start object signals (registration.key :: keys)
        ⟨registry.removeWhere (·.key == registration.key), 0, flag⟩ ∧
      (registry.removeWhere (·.key == registration.key)).registered < loop.registry.registered := by
  have held' : registry.registrations i = some registration := same ▸ held
  have sameCount : registry.registered = loop.registry.registered := by simp only [registered, same]
  have fewer := registered_removeWhere_lt (p := fun r => r.key == registration.key) held' (by simp)
  have sameQueued : (registry.removeWhere (·.key == registration.key)).queued = registry.queued := rfl
  refine ⟨⟨?_, ?_, ?_, ?_, ?_⟩, sameCount ▸ fewer⟩
  · have admitted := progress.admitted
    rw [occupied_eq] at admitted
    rw [occupied_eq, sameQueued]
    dsimp only
    omega
  · intro j other
    rw [removeWhere_eq_some, same, progress.registrations j other, beq_eq_false_iff_ne, mem_cons, not_or,
      and_assoc]
    exact and_congr_right fun _ => and_comm
  · intro key member
    rcases mem_cons.mp member with rfl | earlier
    · exact ⟨i, registration, ((progress.registrations i registration).mp held).1, matched, rfl⟩
    · exact progress.notified key earlier
  · intro key
    have unchanged : (registry.removeWhere (·.key == registration.key)).isQueued key = registry.isQueued key := rfl
    rw [unchanged, queued, progress.queued key, mem_cons, or_assoc]
    exact or_congr_right or_comm
  · intro j before
    exact absurd before (Nat.not_lt_zero _)

variable {free : Fin maxWaitWakeups}

theorem isQueued_update {wake : WaitWake} (vacant : registry.wakeups free = none) (key : Nat × Nat) :
    isQueued { registry with wakeups := update registry.wakeups free (some wake) } key = true ↔
      registry.isQueued key = true ∨ key = wake.key := by
  rw [isQueued_iff, isQueued_iff,
    exists_update_iff registry.wakeups fun _ cell => ∃ wake, cell = some wake ∧ wake.key = key]
  constructor
  · rintro (⟨_, ⟨⟩, same⟩ | ⟨i, _, found⟩)
    · exact .inr same.symm
    · exact .inl ⟨i, found⟩
  · rintro (⟨i, other, found, same⟩ | rfl)
    · refine .inr ⟨i, ?_, other, found, same⟩
      rintro rfl
      simp [vacant] at found
    · exact .inl ⟨wake, rfl, rfl⟩

theorem queued_update {wake : WaitWake} (vacant : registry.wakeups free = none) :
    queued { registry with wakeups := update registry.wakeups free (some wake) } = registry.queued + 1 := by
  have change := Table.sum_update registry.wakeups (fun cell => if cell.isSome = true then 1 else 0)
    free (some wake)
  simp only [vacant, Option.isSome_none, Bool.false_eq_true, if_false, Nat.add_zero, Option.isSome_some,
    if_true] at change
  exact change

/-- One iteration: it never lacks a wakeup slot, and it comes closer to the end. -/
theorem Progress.step (progress : Progress start object signals keys loop) (inside : loop.index < maxWaitItems) :
    let step := notifyBody object signals loop ⟨loop.index, inside⟩
    step.1 ≠ .noFreeWakeup ∧ remaining step.2 < remaining loop ∧
      ∃ keys, Progress start object signals keys step.2 := by
  have shorter : remaining { loop with index := loop.index + 1 } < remaining loop := by
    simp only [remaining, maxWaitItems] at *; omega
  unfold notifyBody
  split
  · next vacant =>
    exact ⟨nofun, shorter, keys, progress.advance (i := ⟨loop.index, inside⟩) rfl (by simp [vacant])⟩
  next registration held =>
  cases matched : isNotifiedBy object signals registration with
  | false =>
    refine ⟨nofun, shorter, keys, progress.advance (i := ⟨loop.index, inside⟩) rfl ?_⟩
    rintro other found
    rw [held] at found
    cases found
    exact matched
  | true =>
    simp only [Bool.not_true, Bool.false_eq_true, if_false]
    split
    · next already =>
      obtain ⟨next, fewer⟩ := progress.restart held matched loop.registry rfl
        (fun key => ⟨.inl, Or.rec id fun same => same ▸ already⟩) (Nat.le_succ _) loop.notified
      exact ⟨nofun, remaining_restart _ fewer, _, next⟩
    · have admitted := progress.admitted
      have counted := Table.le_sum (fun i => if (loop.registry.registrations i).isSome = true then 1 else 0)
        ⟨loop.index, inside⟩
      simp only [held, Option.isSome_some, if_true] at counted
      rw [occupied_eq] at admitted
      have positive : 1 ≤ loop.registry.registered := counted
      have room : loop.registry.queued < maxWaitWakeups := by omega
      obtain ⟨free, found, vacant⟩ := Table.exists_free room
      simp only [freeWakeup, found]
      let wake : WaitWake := ⟨registration.waiterId, registration.epoch, ⟨registration.index, signals⟩⟩
      obtain ⟨next, fewer⟩ := progress.restart held matched
        { loop.registry with wakeups := update loop.registry.wakeups free (some wake) } rfl
        (isQueued_update vacant) (queued_update vacant).le true
      exact ⟨nofun, remaining_restart _ fewer, _, next⟩

theorem Progress.run (fuel : Nat) (progress : Progress start object signals keys loop)
    (enough : remaining loop ≤ fuel) : let run := notifyLoop object signals fuel loop
    .noFreeWakeup ∉ run.1 ∧ maxWaitItems ≤ run.2.index ∧
      ∃ keys, Progress start object signals keys run.2 := by
  induction fuel generalizing keys loop with
  | zero =>
    refine ⟨not_mem_nil, ?_, keys, progress⟩
    simp only [remaining] at enough
    simp only [notifyLoop]
    omega
  | succ fuel ih =>
    unfold notifyLoop
    split
    · next inside =>
      obtain ⟨branch, less, _, next⟩ := progress.step inside
      obtain ⟨branches, done, result⟩ := ih next (by omega)
      refine ⟨?_, done, result⟩
      rw [mem_cons, not_or]
      exact ⟨branch.symm, branches⟩
    · next outside => exact ⟨not_mem_nil, Nat.le_of_not_lt outside, keys, progress⟩

variable (object signals) in
theorem notifyRun_spec (admitted : start.occupied ≤ maxWaitWakeups) :
    let run := start.notifyRun object signals
    .noFreeWakeup ∉ run.1 ∧
      (∀ i registration, run.2.registry.registrations i = some registration ↔
        start.registrations i = some registration ∧ ¬Notified start object signals registration.key) ∧
      ∀ key, run.2.registry.isQueued key = true ↔
        start.isQueued key = true ∨ Notified start object signals key := by
  have initial : Progress start object signals [] ⟨start, 0, false⟩ :=
    ⟨admitted, by simp, by simp, by simp, fun i before => absurd before (Nat.not_lt_zero _)⟩
  have enough : remaining ⟨start, 0, false⟩ ≤ notifyFuel := by
    have := start.registered_le
    simp only [remaining, notifyFuel, maxWaitItems] at *
    omega
  obtain ⟨branches, done, keys, final⟩ := initial.run notifyFuel enough
  have complete : ∀ key, key ∈ keys ↔ Notified start object signals key := by
    intro key
    refine ⟨final.notified key, ?_⟩
    rintro ⟨i, registration, held, matched, rfl⟩
    by_contra missing
    have kept := (final.registrations i registration).mpr ⟨held, missing⟩
    have unmatched := final.scanned i (Nat.lt_of_lt_of_le i.isLt done) registration kept
    rw [matched] at unmatched
    cases unmatched
  refine ⟨branches, fun i registration => ?_, fun key => ?_⟩
  · rw [← complete]; exact final.registrations i registration
  · rw [← complete]; exact final.queued key

end

theorem foldl_woken (wakeups : Fin maxWaitWakeups → Option WaitWake) (indices : List (Fin maxWaitWakeups))
    (woken : List Nat) (distinct : woken.Nodup) :
    let result := indices.foldl (fun woken i =>
      match wakeups i with
      | none => woken
      | some wake => if woken.contains wake.waiterId then woken else woken ++ [wake.waiterId]) woken
    result.Nodup ∧ ∀ id, id ∈ result ↔ id ∈ woken ∨
      ∃ i ∈ indices, ∃ wake, wakeups i = some wake ∧ wake.waiterId = id := by
  induction indices generalizing woken with
  | nil => simpa using distinct
  | cons first rest ih =>
    rw [foldl_cons]
    cases held : wakeups first with
    | none =>
      obtain ⟨nodup, members⟩ := ih woken distinct
      exact ⟨nodup, fun id => by rw [members id]; simp [held]⟩
    | some wake =>
      cases known : woken.contains wake.waiterId with
      | true =>
        obtain ⟨nodup, members⟩ := ih woken distinct
        simp only [known, if_true]
        have present : wake.waiterId ∈ woken := by simpa using known
        refine ⟨nodup, fun id => ?_⟩
        rw [members id]
        simp only [mem_cons, exists_eq_or_imp, held, Option.some.injEq, exists_eq_left']
        constructor
        · exact Or.imp_right .inr
        · rintro (here | rfl | later)
          · exact .inl here
          · exact .inl present
          · exact .inr later
      | false =>
        simp only [known, Bool.false_eq_true, if_false]
        have absent : wake.waiterId ∉ woken := by simpa using known
        obtain ⟨nodup, members⟩ := ih (woken ++ [wake.waiterId])
          (nodup_append.mpr ⟨distinct, nodup_singleton _, by
            rintro a here b there rfl
            exact absent (mem_singleton.mp there ▸ here)⟩)
        refine ⟨nodup, fun id => ?_⟩
        rw [members id]
        simp only [mem_append, mem_cons, not_mem_nil, or_false, exists_eq_or_imp, held,
          Option.some.injEq, exists_eq_left', @eq_comm _ id, or_assoc]

theorem takeWokenWaiters_spec (registry : WaitRegistry) :
    registry.takeWokenWaiters.1.Nodup ∧
      ∀ id, id ∈ registry.takeWokenWaiters.1 ↔ ∃ epoch, registry.isQueued (id, epoch) = true := by
  obtain ⟨nodup, members⟩ := foldl_woken registry.wakeups (finRange maxWaitWakeups) [] nodup_nil
  refine ⟨nodup, fun id => (members id).trans ?_⟩
  simp only [not_mem_nil, false_or, mem_finRange, true_and, isQueued_iff]
  constructor
  · rintro ⟨i, wake, held, rfl⟩
    exact ⟨wake.epoch, i, wake, held, rfl⟩
  · rintro ⟨_, i, wake, held, same⟩
    exact ⟨i, wake, held, congrArg Prod.fst same⟩

theorem firstReady_singleton (item : WaitItem) :
    firstReady [item] = if item.observed.intersects item.interests = true then some ⟨0, item.observed⟩ else none := by
  cases ready : item.observed.intersects item.interests <;> simp [firstReady, ready]

def withRegistration (registry : WaitRegistry) (free : Fin maxWaitItems) (registration : WaitRegistration) :
    WaitRegistry :=
  { registry with registrations := update registry.registrations free (some registration) }

theorem withRegistration_eq_some {free : Fin maxWaitItems} {added : WaitRegistration} :
    (registry.withRegistration free added).registrations i = some registration ↔
      i = free ∧ registration = added ∨ i ≠ free ∧ registry.registrations i = some registration := by
  unfold withRegistration
  by_cases here : i = free
  · subst here
    simp [eq_comm]
  · simp [here]

theorem wait_cases (registry : WaitRegistry) (waiter : Waiter) (item : WaitItem) :
    let ready := (WaitItem.observe item.source).intersects item.interests
    let cancelled := registry.cancelWaiter waiter.id
    let result := wait registry waiter item
    (ready = true ∧ result.1 = .ok ⟨0, WaitItem.observe item.source⟩ ∧
        result.2.1 = registry.removeWhere (·.key == (waiter.id, waiter.epoch))) ∨
      (ready = false ∧ maxWaitWakeups < cancelled.occupied + 1 ∧ result.1 = .error .tooMany ∧
        result.2.1 = cancelled) ∨
      (ready = false ∧ cancelled.occupied + 1 ≤ maxWaitWakeups ∧ result.1 = .error .blocked ∧
        ∃ free, cancelled.registrations free = none ∧
          result.2.1 = cancelled.withRegistration free
            ⟨waiter.id, (waiter.epoch + 1) % 2 ^ 64, item.object, item.interests, 0⟩) := by
  intro ready cancelled result
  have refreshed : firstReady [item.refresh] =
      if ready = true then some ⟨0, WaitItem.observe item.source⟩ else none := firstReady_singleton item.refresh
  have again : item.refresh.refresh = item.refresh := rfl
  cases available : ready with
  | true =>
    rw [available, if_pos rfl] at refreshed
    left
    simp only [result, wait, waitMany, isEmpty_cons, Bool.false_eq_true, if_false, length_singleton,
      map_cons, map_nil, refreshed, cancel]
    exact ⟨trivial, rfl, rfl⟩
  | false =>
    rw [available] at refreshed
    simp only [Bool.false_eq_true, if_false] at refreshed
    right
    have one : ¬(1 > maxWaitItems) := by decide
    simp only [result, wait, waitMany, isEmpty_cons, Bool.false_eq_true, if_false, length_singleton,
      if_neg one, map_cons, map_nil, refreshed, register, registerItems]
    by_cases full : cancelled.occupied + 1 > maxWaitWakeups
    · rw [if_pos full]
      exact .inl ⟨trivial, full, rfl, rfl⟩
    · have room : cancelled.registered < maxWaitItems := by
        have := occupied_eq cancelled
        simp only [maxWaitItems, maxWaitWakeups] at *
        omega
      obtain ⟨free, found, vacant⟩ := Table.exists_free room
      rw [if_neg full]
      simp only [cancelled] at found
      simp only [freeRegistration, found, again, refreshed]
      exact .inr ⟨trivial, Nat.le_of_not_lt full, trivial, free, vacant, rfl⟩

end Nagi.Kernel.WaitRegistry
