import Mathlib.Data.BitVec
import Nagi.Lib.Table

/-! The cooperative user threads of `kernel/src/scheduler.rs`.

`n` counts the reusable thread slots; slot 0 is the initial thread of init, so
`BOOTSTRAP_USER_THREAD_COUNT` is `n + 1`. A thread number is at most 63 in any
build, so the joiner `NO_THREAD` is `none`. Times are readings of the timer. -/

namespace Nagi.Kernel

open Lib Function List

abbrev initProcessId : Nat := 1

inductive UserThreadState (n : Nat) where
  | empty
  | runnable
  | running
  | sleeping (wakeAt : BitVec 64)
  | channelBlocked
  | joinBlocked (target : Fin (n + 1))
  | zombie (exitCode : BitVec 64)
  deriving DecidableEq

structure ThreadSlot (n : Nat) where
  state : UserThreadState n
  joiner : Option (Fin (n + 1))
  detached : Bool
  owner : Nat
  deriving DecidableEq

def ThreadSlot.empty {n : Nat} : ThreadSlot n := ⟨.empty, none, false, initProcessId⟩

inductive JoinOutcome where
  | completed (exitCode : BitVec 64)
  | blocked
  | invalid
  deriving DecidableEq

structure ExitOutcome (n : Nat) where
  nextThread : Option (Fin (n + 1))
  wokenJoiner : Option (Fin (n + 1) × BitVec 64)

structure BootstrapUserThreads (n : Nat) where
  slots : Fin (n + 1) → ThreadSlot n
  current : Fin (n + 1)
  cursor : Fin (n + 1)

namespace BootstrapUserThreads
variable {n : Nat}

def new : BootstrapUserThreads n :=
  ⟨update (fun _ => .empty) 0 { ThreadSlot.empty with state := .running }, 0, 0⟩

variable (threads : BootstrapUserThreads n)

def withSlot (thread : Fin (n + 1)) (slot : ThreadSlot n) : BootstrapUserThreads n :=
  { threads with slots := update threads.slots thread slot }

def setState (thread : Fin (n + 1)) (state : UserThreadState n) : BootstrapUserThreads n :=
  threads.withSlot thread { threads.slots thread with state }

def currentOwner : Nat := (threads.slots threads.current).owner

/-- Allocate the first runnable thread of a newly spawned process. Slot 0 always
remains the bootstrap thread. -/
def allocateForProcess (owner : Nat) : Option (Fin (n + 1)) × BootstrapUserThreads n :=
  match Fin.find? fun id => decide (id ≠ 0) && decide ((threads.slots id).state = .empty) with
  | none => (none, threads)
  | some id => (some id, threads.withSlot id { ThreadSlot.empty with state := .runnable, owner })

def allocate : Option (Fin (n + 1)) × BootstrapUserThreads n :=
  threads.allocateForProcess threads.currentOwner

def wakeExpired (now : Nat) : BootstrapUserThreads n :=
  { threads with
    slots := fun thread =>
      match (threads.slots thread).state with
      | .sleeping wakeAt =>
        if wakeAt.toNat ≤ now then { threads.slots thread with state := .runnable } else threads.slots thread
      | _ => threads.slots thread }

/-- The three assignments of `select_runnable_prefer` for the thread it selects. -/
def dispatch (thread : Fin (n + 1)) : BootstrapUserThreads n :=
  { threads.setState thread .running with current := thread, cursor := thread }

/-- The slots in the order of the offsets `1..=BOOTSTRAP_USER_THREAD_COUNT` from the cursor. -/
def turns (cursor : Fin (n + 1)) : List (Fin (n + 1)) :=
  (range (n + 1)).map fun k => ⟨(cursor.val + (k + 1)) % (n + 1), Nat.mod_lt _ (Nat.succ_pos n)⟩

def isRunnable (thread : Fin (n + 1)) : Bool :=
  decide ((threads.slots thread).state = .runnable)

def selectRunnablePrefer (now : Nat) (preferred : Option (Fin (n + 1))) :
    Option (Fin (n + 1)) × BootstrapUserThreads n :=
  let awake := threads.wakeExpired now
  match preferred.filter awake.isRunnable with
  | some thread => (some thread, awake.dispatch thread)
  | none =>
    match (turns awake.cursor).find? awake.isRunnable with
    | some thread => (some thread, awake.dispatch thread)
    | none => (none, awake)

def selectRunnable (now : Nat) : Option (Fin (n + 1)) × BootstrapUserThreads n :=
  threads.selectRunnablePrefer now none

def withoutProcess (owner : Nat) : BootstrapUserThreads n :=
  { threads with
    slots := fun thread =>
      if (threads.slots thread).state ≠ .empty ∧ (threads.slots thread).owner = owner then .empty
      else threads.slots thread }

/-- Remove every thread of an exiting process other than init. The outer `none`
says that there was none to remove. -/
def exitProcess (owner now : Nat) : Option (Option (Fin (n + 1))) × BootstrapUserThreads n :=
  if owner = initProcessId then (none, threads)
  else if ∀ thread, (threads.slots thread).state = .empty ∨ (threads.slots thread).owner ≠ owner then (none, threads)
  else
    let remaining := threads.withoutProcess owner
    if (remaining.slots remaining.current).state = .empty then
      let selected := remaining.selectRunnable now
      (some selected.1, selected.2)
    else (some (some remaining.current), remaining)

def discardUnstarted (thread : Fin (n + 1)) : Bool × BootstrapUserThreads n :=
  if (threads.slots thread).state ≠ .runnable ∨ (threads.slots thread).joiner ≠ none then (false, threads)
  else (true, threads.withSlot thread .empty)

def yieldCurrent (now : Nat) : Option (Fin (n + 1)) × BootstrapUserThreads n :=
  if (threads.slots threads.current).state ≠ .running then (none, threads)
  else (threads.setState threads.current .runnable).selectRunnable now

def sleepCurrent (wakeAt : BitVec 64) (now : Nat) : Option (Fin (n + 1)) × BootstrapUserThreads n :=
  if (threads.slots threads.current).state ≠ .running then (none, threads)
  else (threads.setState threads.current (.sleeping wakeAt)).selectRunnable now

def blockCurrentOnChannel : Bool × BootstrapUserThreads n :=
  if (threads.slots threads.current).state ≠ .running then (false, threads)
  else (true, threads.setState threads.current .channelBlocked)

def wakeChannelWaiter (thread : Nat) : Bool × BootstrapUserThreads n :=
  if bound : thread < n + 1 then
    let thread : Fin (n + 1) := ⟨thread, bound⟩
    if (threads.slots thread).state ≠ .channelBlocked then (false, threads)
    else (true, threads.setState thread .runnable)
  else (false, threads)

def abortCurrentChannelWait : Bool × BootstrapUserThreads n :=
  if (threads.slots threads.current).state ≠ .channelBlocked then (false, threads)
  else (true, threads.setState threads.current .running)

def joinCurrent (target now : Nat) : JoinOutcome × BootstrapUserThreads n :=
  let caller := threads.current
  if bound : target < n + 1 then
    let target : Fin (n + 1) := ⟨target, bound⟩
    if target = 0 ∨ target = caller then (.invalid, threads)
    else if (threads.slots target).owner ≠ (threads.slots caller).owner then (.invalid, threads)
    else
      let taken := (threads.slots target).detached || (threads.slots target).joiner.isSome
      match (threads.slots target).state with
      | .empty => (.invalid, threads)
      | .zombie exitCode =>
        if taken then (.invalid, threads) else (.completed exitCode, threads.withSlot target .empty)
      | _ =>
        if taken then (.invalid, threads)
        else if (threads.slots caller).state ≠ .running then (.invalid, threads)
        else
          let claimed := threads.withSlot target { threads.slots target with joiner := some caller }
          (.blocked, ((claimed.setState caller (.joinBlocked target)).selectRunnable now).2)
  else (.invalid, threads)

def abortBlockedJoin : Option (Fin (n + 1)) × BootstrapUserThreads n :=
  match (threads.slots threads.current).state with
  | .joinBlocked target =>
    let released := if (threads.slots target).joiner = some threads.current then
      threads.withSlot target { threads.slots target with joiner := none } else threads
    (some threads.current, released.setState threads.current .running)
  | _ => (none, threads)

def detach (target : Nat) : Bool × BootstrapUserThreads n :=
  if bound : target < n + 1 then
    let target : Fin (n + 1) := ⟨target, bound⟩
    let slot := threads.slots target
    if target = 0 then (false, threads)
    else if slot.state = .empty ∨ slot.joiner ≠ none ∨ slot.owner ≠ threads.currentOwner then (false, threads)
    else
      match slot.state with
      | .zombie _ => (true, threads.withSlot target .empty)
      | _ => (true, threads.withSlot target { slot with detached := true })
  else (false, threads)

def exitCurrent (exitCode : BitVec 64) (now : Nat) : Option (ExitOutcome n) × BootstrapUserThreads n :=
  let current := threads.current
  let slot := threads.slots current
  if current = 0 ∨ slot.state ≠ .running then (none, threads)
  else
    let left : BootstrapUserThreads n :=
      match slot.joiner with
      | some joiner =>
        let emptied := threads.withSlot current .empty
        if (emptied.slots joiner).state = UserThreadState.joinBlocked current then emptied.setState joiner .runnable
        else emptied
      | none => if slot.detached then threads.withSlot current .empty else threads.setState current (.zombie exitCode)
    -- a blocked joiner gets the first opportunity to reap the thread
    let selected := left.selectRunnablePrefer now slot.joiner
    (some ⟨selected.1, slot.joiner.map fun joiner => (joiner, exitCode)⟩, selected.2)

def ticksUntilWake (now : Nat) : Option Nat :=
  ((finRange (n + 1)).filterMap fun thread =>
    match (threads.slots thread).state with
    | .sleeping wakeAt => some (wakeAt.toNat - now)
    | _ => none).min?

@[simp] theorem slots_withSlot_self (thread : Fin (n + 1)) (slot : ThreadSlot n) :
    (threads.withSlot thread slot).slots thread = slot :=
  update_self ..

variable {thread : Fin (n + 1)}

theorem slots_withSlot_of_ne {other : Fin (n + 1)} (slot : ThreadSlot n)
    (different : other ≠ thread) : (threads.withSlot thread slot).slots other = threads.slots other :=
  update_of_ne different ..

/-- A slot that the scheduler has left alone, or whose thread has become ready or running. -/
inductive SlotSettles : ThreadSlot n → ThreadSlot n → Prop where
  | same (slot : ThreadSlot n) : SlotSettles slot slot
  | ready {slot : ThreadSlot n} {state : UserThreadState n}
      (idle : slot.state = .runnable ∨ ∃ wakeAt, slot.state = .sleeping wakeAt)
      (awake : state = .runnable ∨ state = .running) : SlotSettles slot { slot with state }

def Settles (before after : BootstrapUserThreads n) : Prop :=
  ∀ thread, SlotSettles (before.slots thread) (after.slots thread)

theorem SlotSettles.trans {first second third : ThreadSlot n} (left : SlotSettles first second)
    (right : SlotSettles second third) : SlotSettles first third := by
  cases left with
  | same => exact right
  | ready idle awake =>
    cases right with
    | same => exact .ready idle awake
    | ready _ awake' => exact .ready idle awake'

variable {first second third : BootstrapUserThreads n}

theorem Settles.trans (left : Settles first second) (right : Settles second third) : Settles first third :=
  fun thread => (left thread).trans (right thread)

theorem Settles.refl : Settles threads threads := fun _ => .same _

theorem wakeExpired_settles (now : Nat) : Settles threads (threads.wakeExpired now) := by
  intro thread
  simp only [wakeExpired]
  split
  · next wakeAt asleep =>
    split
    · exact .ready (.inr ⟨wakeAt, asleep⟩) (.inl rfl)
    · exact .same _
  · exact .same _

variable {threads}

theorem dispatch_settles (runnable : threads.isRunnable thread = true) :
    Settles threads (threads.dispatch thread) := by
  intro other
  by_cases here : other = thread
  · subst here
    simp only [dispatch, setState, slots_withSlot_self]
    exact .ready (.inl (of_decide_eq_true runnable)) (.inr rfl)
  · simp only [dispatch, setState, slots_withSlot_of_ne _ _ here]
    exact .same _

structure Selected (before : BootstrapUserThreads n) (result : Option (Fin (n + 1)) × BootstrapUserThreads n) :
    Prop where
  settles : Settles before result.2
  found : ∀ thread, result.1 = some thread → result.2.current = thread ∧ (result.2.slots thread).state = .running
  missed : result.1 = none → result.2.current = before.current

theorem dispatch_selected {awake : BootstrapUserThreads n} (settles : Settles threads awake)
    (runnable : awake.isRunnable thread = true) : Selected threads (some thread, awake.dispatch thread) where
  settles := settles.trans (dispatch_settles runnable)
  found := by
    rintro _ ⟨⟩
    exact ⟨rfl, by simp [dispatch, setState]⟩
  missed := nofun

theorem selectRunnablePrefer_selected (threads : BootstrapUserThreads n) (now : Nat)
    (preferred : Option (Fin (n + 1))) : Selected threads (threads.selectRunnablePrefer now preferred) := by
  have settles := wakeExpired_settles threads now
  fun_cases threads.selectRunnablePrefer now preferred with
  | case1 _ thread chosen => exact dispatch_selected settles (Option.filter_eq_some_iff.mp chosen).2
  | case2 _ _ thread chosen => exact dispatch_selected settles (find?_some chosen)
  | case3 => exact ⟨settles, nofun, fun _ => rfl⟩

theorem selectRunnable_selected (threads : BootstrapUserThreads n) (now : Nat) :
    Selected threads (threads.selectRunnable now) :=
  selectRunnablePrefer_selected threads now none

/-- Every slot has its turn once in each round. -/
theorem turns_eq_rotate (cursor : Fin (n + 1)) : turns cursor = (finRange (n + 1)).rotate (cursor.val + 1) := by
  apply ext_getElem
  · simp [turns]
  intro k _ _
  apply Fin.ext
  simp only [turns, getElem_map, getElem_range, getElem_rotate, length_finRange,
    getElem_finRange, Fin.val_cast]
  congr 1
  omega

theorem mem_turns (cursor thread : Fin (n + 1)) : thread ∈ turns cursor := by
  rw [turns_eq_rotate, mem_rotate]
  exact mem_finRange thread

theorem selectRunnable_none {now : Nat} (missed : (threads.selectRunnable now).1 = none) (thread : Fin (n + 1)) :
    (threads.selectRunnable now).2 = threads.wakeExpired now ∧
      ((threads.wakeExpired now).slots thread).state ≠ .runnable := by
  simp only [selectRunnable, selectRunnablePrefer, Option.filter_none] at missed ⊢
  split at missed
  · cases missed
  next absent =>
  rw [eq_self, true_and]
  intro runnable
  have refused := find?_eq_none.mp absent thread (mem_turns _ thread)
  simp [isRunnable, runnable] at refused

/-! What leaves the blocked threads and the owners of all threads as they are. -/

/-- A slot that is blocked just when it was, and whose thread, if any, has been there before. -/
structure SlotKeeps (before after : ThreadSlot n) : Prop where
  blocked : after.state = .channelBlocked ↔ before.state = .channelBlocked
  present : after.state ≠ .empty → before.state ≠ .empty ∧ after.owner = before.owner

def Keeps (before after : BootstrapUserThreads n) : Prop :=
  ∀ thread, SlotKeeps (before.slots thread) (after.slots thread)

theorem SlotKeeps.refl (slot : ThreadSlot n) : SlotKeeps slot slot := ⟨Iff.rfl, fun there => ⟨there, rfl⟩⟩

variable {slot : ThreadSlot n}

theorem SlotKeeps.removed (unblocked : slot.state ≠ .channelBlocked) : SlotKeeps slot .empty :=
  ⟨⟨nofun, fun blocked => absurd blocked unblocked⟩, fun there => absurd rfl there⟩

variable {old : UserThreadState n}

theorem SlotKeeps.move {new : UserThreadState n} (was : slot.state = old) (there : old ≠ .empty)
    (unblocked : old ≠ .channelBlocked) (unblocked' : new ≠ .channelBlocked) :
    SlotKeeps slot { slot with state := new } := by
  subst was
  exact ⟨⟨fun blocked => absurd blocked unblocked', fun blocked => absurd blocked unblocked⟩, fun _ => ⟨there, rfl⟩⟩

theorem Keeps.refl (threads : BootstrapUserThreads n) : Keeps threads threads := fun _ => .refl _

theorem Keeps.trans (left : Keeps first second) (right : Keeps second third) : Keeps first third := by
  intro thread
  refine ⟨(right thread).blocked.trans (left thread).blocked, fun there => ?_⟩
  have later := (right thread).present there
  have earlier := (left thread).present later.1
  exact ⟨earlier.1, later.2.trans earlier.2⟩

theorem SlotSettles.keeps {before after : ThreadSlot n} (settles : SlotSettles before after) :
    SlotKeeps before after := by
  cases settles with
  | same => exact .refl _
  | ready idle awake =>
    have unblocked : ∀ {state : UserThreadState n}, state = .runnable ∨ state = .running → state ≠ .channelBlocked := by
      rintro _ (rfl | rfl) <;> exact nofun
    rcases idle with was | ⟨_, was⟩
    · exact .move was nofun nofun (unblocked awake)
    · exact .move was nofun nofun (unblocked awake)

variable {before after : BootstrapUserThreads n}

theorem Settles.keeps (settles : Settles before after) : Keeps before after :=
  fun thread => (settles thread).keeps

theorem Keeps.withSlot (keeps : Keeps before after) (fits : SlotKeeps (before.slots thread) slot) :
    Keeps before (after.withSlot thread slot) := by
  intro other
  by_cases here : other = thread
  · subst here
    rw [slots_withSlot_self]
    exact fits
  · rw [slots_withSlot_of_ne _ _ here]
    exact keeps other

theorem relabelled (thread : Fin (n + 1)) (joiner : Option (Fin (n + 1))) (detached : Bool) :
    let after := threads.withSlot thread { threads.slots thread with joiner, detached }
    Keeps threads after ∧ ∀ other, (after.slots other).state = (threads.slots other).state := by
  refine ⟨(Keeps.refl threads).withSlot ⟨Iff.rfl, fun there => ⟨there, rfl⟩⟩, fun other => ?_⟩
  by_cases here : other = thread
  · subst here
    rw [slots_withSlot_self]
  · rw [slots_withSlot_of_ne _ _ here]

theorem Keeps.setState {new : UserThreadState n} (was : (threads.slots thread).state = old) (there : old ≠ .empty)
    (unblocked : old ≠ .channelBlocked) (unblocked' : new ≠ .channelBlocked) :
    Keeps threads (threads.setState thread new) :=
  (Keeps.refl threads).withSlot (.move was there unblocked unblocked')

theorem Settles.ready (settles : Settles before after)
    (ready : (before.slots thread).state = .runnable ∨ (before.slots thread).state = .running) :
    (after.slots thread).state = .runnable ∨ (after.slots thread).state = .running := by
  generalize after.slots thread = slot, before.slots thread = slot', settles thread = settled at ready ⊢
  cases settled with
  | same => exact ready
  | ready _ awake => exact awake

theorem Settles.untouched (settles : Settles before after) (thread : Fin (n + 1))
    (busy : (before.slots thread).state ≠ .runnable)
    (awake : ∀ wakeAt, (before.slots thread).state ≠ .sleeping wakeAt) : after.slots thread = before.slots thread := by
  generalize after.slots thread = slot, before.slots thread = slot', settles thread = settled at busy awake ⊢
  cases settled with
  | same => rfl
  | ready idle _ =>
    rcases idle with same | ⟨wakeAt, same⟩
    · exact absurd same busy
    · exact absurd same (awake wakeAt)

theorem joinCurrent_cases (threads : BootstrapUserThreads n) (target now : Nat) :
    threads.joinCurrent target now = (.invalid, threads) ∨
      ∃ thread : Fin (n + 1), target = thread.val ∧ thread ≠ 0 ∧ thread ≠ threads.current ∧
        (threads.slots thread).owner = (threads.slots threads.current).owner ∧
        (threads.slots thread).detached = false ∧ (threads.slots thread).joiner = none ∧
        ((∃ exitCode, (threads.slots thread).state = .zombie exitCode ∧
            threads.joinCurrent target now = (.completed exitCode, threads.withSlot thread .empty)) ∨
          (threads.slots thread).state ≠ .empty ∧ (threads.slots threads.current).state = .running ∧
            threads.joinCurrent target now = (.blocked,
              (((threads.withSlot thread { threads.slots thread with joiner := some threads.current }).setState
                threads.current (.joinBlocked thread)).selectRunnable now).2)) := by
  fun_cases threads.joinCurrent target now with
  | case5 caller bound thread other owner taken exitCode ended free =>
    simp only [taken, Bool.or_eq_true, not_or, Bool.not_eq_true, Option.isSome_eq_false_iff,
      Option.isNone_iff_eq_none] at other free
    exact .inr ⟨thread, rfl, other.1, other.2, not_not.mp owner, free.1, free.2, .inl ⟨exitCode, ended, rfl⟩⟩
  | case8 caller bound thread other owner taken free running claimed present =>
    simp only [taken, Bool.or_eq_true, not_or, Bool.not_eq_true, Option.isSome_eq_false_iff,
      Option.isNone_iff_eq_none] at other free
    exact .inr ⟨thread, rfl, other.1, other.2, not_not.mp owner, free.1, free.2,
      .inr ⟨present, not_not.mp running, rfl⟩⟩
  | _ => exact .inl rfl

theorem detach_cases (threads : BootstrapUserThreads n) (target : Nat) :
    threads.detach target = (false, threads) ∨
      ∃ thread : Fin (n + 1), target = thread.val ∧ thread ≠ 0 ∧ (threads.slots thread).joiner = none ∧
        ((∃ exitCode, (threads.slots thread).state = .zombie exitCode ∧
            threads.detach target = (true, threads.withSlot thread .empty)) ∨
          threads.detach target = (true, threads.withSlot thread { threads.slots thread with detached := true })) := by
  fun_cases threads.detach target with
  | case3 bound thread slot reusable accepted exitCode ended =>
    simp only [not_or, not_not] at accepted
    exact .inr ⟨thread, rfl, reusable, accepted.2.1, .inl ⟨exitCode, ended, rfl⟩⟩
  | case4 bound thread slot reusable accepted =>
    simp only [not_or, not_not] at accepted
    exact .inr ⟨thread, rfl, reusable, accepted.2.1, .inr rfl⟩
  | _ => exact .inl rfl

/-- A transition after which another thread may have been selected. -/
structure Switched (before : BootstrapUserThreads n) (result : Option (Fin (n + 1)) × BootstrapUserThreads n) :
    Prop where
  keeps : Keeps before result.2
  found : ∀ thread, result.1 = some thread → result.2.current = thread ∧ (result.2.slots thread).state = .running
  missed : result.1 = none → result.2.current = before.current

theorem Selected.switched {middle : BootstrapUserThreads n} {result : Option (Fin (n + 1)) × BootstrapUserThreads n}
    (selected : Selected middle result) (keeps : Keeps before middle) (same : middle.current = before.current) :
    Switched before result :=
  ⟨keeps.trans selected.settles.keeps, selected.found, fun missed => (selected.missed missed).trans same⟩

section
variable (running : (threads.slots threads.current).state = .running)
include running

theorem yieldCurrent_switched (now : Nat) :
    Switched threads (threads.yieldCurrent now) ∧ (threads.yieldCurrent now).1 ≠ none := by
  simp only [yieldCurrent, running, ne_eq, not_true_eq_false, if_false]
  have selected := selectRunnable_selected (threads.setState threads.current .runnable) now
  refine ⟨selected.switched (.setState running nofun nofun nofun) rfl, fun missed => ?_⟩
  have idle := (selectRunnable_none missed threads.current).2
  apply idle
  simp [wakeExpired, setState]

theorem sleepCurrent_switched (wakeAt : BitVec 64) (now : Nat) :
    Switched threads (threads.sleepCurrent wakeAt now) := by
  simp only [sleepCurrent, running, ne_eq, not_true_eq_false, if_false]
  exact (selectRunnable_selected _ now).switched (.setState running nofun nofun nofun) rfl

theorem blockCurrentOnChannel_eq :
    threads.blockCurrentOnChannel = (true, threads.setState threads.current .channelBlocked) := by
  simp only [blockCurrentOnChannel, running, ne_eq, not_true_eq_false, if_false]

/-- A thread that blocks in a join stays current only if no thread is ready. -/
theorem select_after_join (target : Fin (n + 1)) (now : Nat) :
    let next := ((threads.setState threads.current (.joinBlocked target)).selectRunnable now).2
    Keeps threads next ∧ (next.current ≠ threads.current → (next.slots next.current).state = .running) ∧
      (next.current = threads.current → (next.slots next.current).state = .joinBlocked target) := by
  have selected := selectRunnable_selected (threads.setState threads.current (.joinBlocked target)) now
  have blocked : Keeps threads (threads.setState threads.current (.joinBlocked target)) :=
    .setState running nofun nofun nofun
  refine ⟨blocked.trans selected.settles.keeps, fun moved => ?_, fun stayed => ?_⟩
  · cases result : ((threads.setState threads.current (.joinBlocked target)).selectRunnable now).1 with
    | none => exact absurd (selected.missed result) moved
    | some thread =>
      obtain ⟨here, runs⟩ := selected.found thread result
      rw [here]
      exact runs
  · have kept := selected.settles.untouched threads.current (by simp [setState]) (by simp [setState])
    rw [stayed, kept]
    simp [setState]

theorem joinCurrent_spec (target now : Nat) :
    threads.joinCurrent target now = (.invalid, threads) ∨
      (∃ exitCode next, threads.joinCurrent target now = (.completed exitCode, next) ∧ Keeps threads next ∧
        (next.slots next.current).state = .running) ∨
      ∃ next, threads.joinCurrent target now = (.blocked, next) ∧ Keeps threads next ∧
        (next.current ≠ threads.current → (next.slots next.current).state = .running) ∧
        (next.current = threads.current → ∃ target, (next.slots next.current).state = .joinBlocked target) := by
  rcases joinCurrent_cases threads target now with
    refused | ⟨thread, _, _, apart, _, _, _, ⟨code, ended, reaped⟩ | ⟨_, _, blocked⟩⟩
  · exact .inl refused
  · refine .inr (.inl ⟨code, _, reaped, (Keeps.refl threads).withSlot (.removed ?_), ?_⟩)
    · rw [ended]
      exact nofun
    · exact (congrArg ThreadSlot.state (slots_withSlot_of_ne _ _ apart.symm)).trans running
  · rw [blocked]
    -- the claim on the target leaves all states as they are
    obtain ⟨keeps, states⟩ := relabelled thread (some threads.current) (threads.slots thread).detached
    obtain ⟨later, moved, stayed⟩ := select_after_join ((states threads.current).trans running) thread now
    exact .inr (.inr ⟨_, rfl, keeps.trans later, moved, fun here => ⟨thread, stayed here⟩⟩)

theorem detach_spec (target : Nat) :
    Keeps threads (threads.detach target).2 ∧ (threads.detach target).2.current = threads.current ∧
      ((threads.detach target).2.slots threads.current).state = .running := by
  rcases detach_cases threads target with refused | ⟨thread, _, _, _, ⟨_, ended, reaped⟩ | marked⟩
  · rw [refused]
    exact ⟨.refl _, rfl, running⟩
  · have apart : threads.current ≠ thread := by
      rintro rfl
      rw [running] at ended
      cases ended
    rw [reaped]
    refine ⟨(Keeps.refl threads).withSlot (.removed ?_), rfl, ?_⟩
    · rw [ended]
      exact nofun
    · rw [slots_withSlot_of_ne _ _ apart]
      exact running
  · rw [marked]
    obtain ⟨keeps, states⟩ := relabelled thread (threads.slots thread).joiner true
    exact ⟨keeps, rfl, (states _).trans running⟩

theorem exitCurrent_spec (exitCode : BitVec 64) (now : Nat) :
    threads.exitCurrent exitCode now = (none, threads) ∨
      ∃ outcome next, threads.exitCurrent exitCode now = (some outcome, next) ∧
        Switched threads (outcome.nextThread, next) := by
  have unblocked : (threads.slots threads.current).state ≠ .channelBlocked := by
    rw [running]
    exact nofun
  unfold exitCurrent
  dsimp only
  split
  · exact .inl rfl
  refine .inr ⟨_, _, rfl, ?_⟩
  apply (selectRunnablePrefer_selected _ now _).switched
  · split
    · have emptied := (Keeps.refl threads).withSlot (SlotKeeps.removed unblocked)
      split
      · next joiner waits =>
        exact emptied.trans (.setState waits nofun nofun nofun)
      · exact emptied
    · split
      · exact (Keeps.refl threads).withSlot (.removed unblocked)
      · exact .setState running nofun nofun nofun
  · split
    · split <;> rfl
    · split <;> rfl

end

theorem abortBlockedJoin_spec {target : Fin (n + 1)}
    (joins : (threads.slots threads.current).state = .joinBlocked target) :
    ∃ next, threads.abortBlockedJoin = (some threads.current, next) ∧ Keeps threads next ∧
      (next.slots next.current).state = .running := by
  unfold abortBlockedJoin
  rw [joins]
  dsimp only
  -- giving up the claim on the target leaves all states as they are
  generalize released : (if (threads.slots target).joiner = some threads.current then
    threads.withSlot target { threads.slots target with joiner := none } else threads) = free
  have kept : Keeps threads free ∧ free.current = threads.current ∧
      (free.slots threads.current).state = .joinBlocked target := by
    rw [← released]
    split
    · obtain ⟨keeps, states⟩ := relabelled target none (threads.slots target).detached
      exact ⟨keeps, rfl, (states _).trans joins⟩
    · exact ⟨.refl _, rfl, joins⟩
  obtain ⟨keeps, same, still⟩ := kept
  refine ⟨_, rfl, keeps.trans (.setState still nofun nofun nofun), ?_⟩
  rw [show (free.setState threads.current .running).current = threads.current from same]
  simp [setState]

theorem allocateForProcess_spec (threads : BootstrapUserThreads n) (owner : Nat) :
    threads.allocateForProcess owner = (none, threads) ∨
      ∃ id, id ≠ 0 ∧ (threads.slots id).state = .empty ∧ threads.allocateForProcess owner =
        (some id, threads.withSlot id { ThreadSlot.empty with state := .runnable, owner }) := by
  unfold allocateForProcess
  split
  · exact .inl rfl
  · next id found =>
    have accepted := Fin.eq_true_of_find?_eq_some found
    simp only [Bool.and_eq_true, decide_eq_true_eq] at accepted
    exact .inr ⟨id, accepted.1, accepted.2, rfl⟩

theorem discardUnstarted_spec (running : (threads.slots threads.current).state = .running) (thread : Fin (n + 1)) :
    let after := (threads.discardUnstarted thread).2
    Keeps threads after ∧ after.current = threads.current ∧ (after.slots threads.current).state = .running := by
  intro after
  unfold after discardUnstarted
  split
  · exact ⟨.refl _, rfl, running⟩
  next unstarted =>
  have ready : (threads.slots thread).state = .runnable := by
    by_contra other
    exact unstarted (.inl other)
  refine ⟨(Keeps.refl threads).withSlot (.removed (by rw [ready]; nofun)), rfl, ?_⟩
  rw [slots_withSlot_of_ne]
  · exact running
  · intro same
    rw [same, ready] at running
    cases running

theorem exitProcess_spec {owner : Nat} (isolated : owner ≠ initProcessId)
    (running : (threads.slots threads.current).state = .running)
    (unblocked : ∀ thread, (threads.slots thread).owner = owner → (threads.slots thread).state ≠ .channelBlocked)
    (now : Nat) : let result := threads.exitProcess owner now
    Switched threads (result.1.join, result.2) ∧ ∀ thread, (threads.slots thread).owner ≠ owner →
      (threads.slots thread).state = .runnable →
      (result.2.slots thread).state = .runnable ∨ (result.2.slots thread).state = .running := by
  intro result
  unfold result exitProcess
  rw [if_neg isolated]
  split
  · exact ⟨⟨.refl _, nofun, fun _ => rfl⟩, fun _ _ ready => .inl ready⟩
  dsimp only
  have slots : ∀ thread, (threads.withoutProcess owner).slots thread =
      if (threads.slots thread).state ≠ .empty ∧ (threads.slots thread).owner = owner then .empty
      else threads.slots thread := fun _ => rfl
  have same : (threads.withoutProcess owner).current = threads.current := rfl
  generalize threads.withoutProcess owner = remaining at slots same ⊢
  have keeps : Keeps threads remaining := by
    intro thread
    rw [slots thread]
    split
    · next owned => exact .removed (unblocked thread owned.2)
    · exact .refl _
  have survives : ∀ thread, (threads.slots thread).owner ≠ owner → remaining.slots thread = threads.slots thread := by
    intro thread foreign
    rw [slots thread, if_neg fun owned => foreign owned.2]
  split
  · have selected := selectRunnable_selected remaining now
    refine ⟨selected.switched keeps same, fun thread foreign ready => ?_⟩
    apply selected.settles.ready
    rw [survives thread foreign]
    exact .inl ready
  · next there =>
    refine ⟨⟨keeps, ?_, nofun⟩, fun thread foreign ready => ?_⟩
    · rintro _ ⟨⟩
      refine ⟨rfl, ?_⟩
      rw [slots, same] at there ⊢
      split at there
      · exact absurd rfl there
      · next kept =>
        rw [if_neg kept]
        exact running
    · rw [survives thread foreign]
      exact .inl ready

theorem wakeChannelWaiters_slots (waiters : List Nat) (threads : BootstrapUserThreads n) :
    let after := waiters.foldl (fun threads waiter => (threads.wakeChannelWaiter waiter).2) threads
    after.current = threads.current ∧ ∀ thread, after.slots thread =
      if thread.val ∈ waiters ∧ (threads.slots thread).state = .channelBlocked then
        { threads.slots thread with state := .runnable }
      else threads.slots thread := by
  induction waiters generalizing threads with
  | nil => simp
  | cons first rest ih =>
    obtain ⟨current, slots⟩ := ih (threads.wakeChannelWaiter first).2
    rw [foldl_cons]
    have one : (threads.wakeChannelWaiter first).2.current = threads.current ∧
        ∀ thread, (threads.wakeChannelWaiter first).2.slots thread =
          if thread.val = first ∧ (threads.slots thread).state = .channelBlocked then
            { threads.slots thread with state := .runnable }
          else threads.slots thread := by
      fun_cases threads.wakeChannelWaiter first with
      | case1 bound woken unblocked =>
        refine ⟨rfl, fun thread => (if_neg ?_).symm⟩
        rintro ⟨rfl, blocked⟩
        exact unblocked blocked
      | case2 bound woken blocked =>
        refine ⟨rfl, fun thread => ?_⟩
        by_cases here : thread = woken
        · simp [setState, here, woken, not_not.mp blocked]
        · have apart : thread.val ≠ first := fun same => here (Fin.ext same)
          simp [setState, slots_withSlot_of_ne _ _ here, apart]
      | case3 outside =>
        refine ⟨rfl, fun thread => (if_neg ?_).symm⟩
        exact fun both => outside (both.1 ▸ thread.isLt)
    refine ⟨current.trans one.1, fun thread => ?_⟩
    rw [slots thread, one.2 thread]
    by_cases here : thread.val = first <;> by_cases blocked : (threads.slots thread).state = .channelBlocked <;>
      simp [here, blocked]

end BootstrapUserThreads
end Nagi.Kernel
