import Mathlib.Data.Int.CardIntervalMod
import Mathlib.Tactic.FinCases
import Nagi.Kernel.Scheduler

/-! Threads that only yield take turns in the cyclic order of their slots. -/

namespace Nagi.Kernel.BootstrapUserThreads

open List

variable {n : Nat} {threads : BootstrapUserThreads n}

def isReady (threads : BootstrapUserThreads n) (thread : Fin (n + 1)) : Bool :=
  decide ((threads.slots thread).state = .running ∨ (threads.slots thread).state = .runnable)

def order (threads : BootstrapUserThreads n) : List (Fin (n + 1)) := (turns threads.cursor).filter threads.isReady

def dispatches (threads : BootstrapUserThreads n) : List Nat → List (Option (Fin (n + 1)))
  | [] => []
  | now :: rest => (threads.yieldCurrent now).1 :: dispatches (threads.yieldCurrent now).2 rest

/-- One thread runs, and no sleeper wakes up at the given times. -/
structure Undisturbed (threads : BootstrapUserThreads n) (times : List Nat) : Prop where
  running : (threads.slots threads.current).state = .running
  single : ∀ thread, (threads.slots thread).state = .running → thread = threads.current
  asleep : ∀ thread wakeAt, (threads.slots thread).state = .sleeping wakeAt → ∀ now ∈ times, now < wakeAt.toNat

variable {thread : Fin (n + 1)}

theorem turns_of_split {cursor : Fin (n + 1)} {front back : List (Fin (n + 1))}
    (split : turns cursor = front ++ thread :: back) : turns thread = back ++ (front ++ [thread]) := by
  have bound : front.length < (turns cursor).length := by simp [split]
  have place : thread.val = (cursor.val + (front.length + 1)) % (n + 1) := by
    have here : (turns cursor)[front.length] = thread := by simp [split]
    rw [← here]
    simp [turns]
  have further : turns thread = (turns cursor).rotate (front.length + 1) := by
    rw [turns_eq_rotate, turns_eq_rotate, rotate_rotate, ← rotate_mod _ (thread.val + 1),
      ← rotate_mod _ (cursor.val + 1 + (front.length + 1)), place]
    simp only [length_finRange, Nat.mod_add_mod]
    congr 2
    omega
  rw [further, split, append_cons]
  have ends : front.length + 1 = (front ++ [thread]).length := by simp
  rw [ends]
  exact rotate_append_length_eq _ _

theorem mem_order : thread ∈ threads.order ↔ threads.isReady thread = true := by
  rw [order, mem_filter]
  exact and_iff_right (mem_turns _ thread)

theorem order_nodup (threads : BootstrapUserThreads n) : threads.order.Nodup := by
  rw [order, turns_eq_rotate]
  exact (nodup_rotate.mpr (nodup_finRange _)).filter _

variable {times : List Nat}

theorem Undisturbed.current_ready (undisturbed : Undisturbed threads times) :
    threads.isReady threads.current = true := by
  simp [isReady, undisturbed.running]

theorem wakeExpired_eq_self {now : Nat}
    (asleep : ∀ thread wakeAt, (threads.slots thread).state = .sleeping wakeAt → now < wakeAt.toNat) :
    threads.wakeExpired now = threads := by
  have slots : (threads.wakeExpired now).slots = threads.slots := by
    funext thread
    simp only [wakeExpired]
    split
    · next wakeAt state => exact if_neg (Nat.not_le.mpr (asleep thread wakeAt state))
    · rfl
  exact congrArg (fun slots => { threads with slots }) slots

section
variable {now : Nat} (undisturbed : Undisturbed threads (now :: times))
include undisturbed

theorem Undisturbed.isRunnable_eq : (threads.setState threads.current .runnable).isRunnable = threads.isReady := by
  funext thread
  by_cases here : thread = threads.current
  · subst here
    simp [isRunnable, isReady, setState, undisturbed.running]
  · have single : (threads.slots thread).state ≠ .running := fun runs => here (undisturbed.single thread runs)
    simp [isRunnable, isReady, setState, slots_withSlot_of_ne _ _ here, single]

theorem Undisturbed.yieldCurrent_eq :
    ∃ thread front back, turns threads.cursor = front ++ thread :: back ∧ threads.isReady thread = true ∧
      (∀ other ∈ front, threads.isReady other = false) ∧
      threads.yieldCurrent now = (some thread, (threads.setState threads.current .runnable).dispatch thread) := by
  have awake : (threads.setState threads.current .runnable).wakeExpired now =
      threads.setState threads.current .runnable := by
    apply wakeExpired_eq_self
    intro thread wakeAt state
    by_cases here : thread = threads.current
    · subst here
      simp [setState] at state
    · rw [setState, slots_withSlot_of_ne _ _ here] at state
      exact undisturbed.asleep thread wakeAt state now mem_cons_self
  have ready := undisturbed.current_ready
  have same : (threads.setState threads.current .runnable).cursor = threads.cursor := rfl
  simp only [yieldCurrent, undisturbed.running, ne_eq, not_true_eq_false, if_false, selectRunnable,
    selectRunnablePrefer, Option.filter_none, awake, undisturbed.isRunnable_eq, same]
  cases chosen : (turns threads.cursor).find? threads.isReady with
  | none => exact absurd ready (find?_eq_none.mp chosen _ (mem_turns _ _))
  | some thread =>
    obtain ⟨found, front, back, split, skipped⟩ := find?_eq_some_iff_append.mp chosen
    exact ⟨thread, front, back, split, found, fun other inside => by simpa using skipped other inside, rfl⟩

theorem Undisturbed.yields :
    (threads.yieldCurrent now).1 = threads.order[0]? ∧ (threads.yieldCurrent now).2.order = threads.order.rotate 1 ∧
      Undisturbed (threads.yieldCurrent now).2 times := by
  obtain ⟨thread, front, back, split, ready, skipped, yielded⟩ := undisturbed.yieldCurrent_eq
  rw [yielded]
  generalize after_eq : (threads.setState threads.current .runnable).dispatch thread = after
  have states : ∀ other, (after.slots other).state = if other = thread then .running else
      if other = threads.current then .runnable else (threads.slots other).state := by
    subst after_eq
    simp only [dispatch, setState, withSlot, Function.update_apply]
    grind
  have same : after.isReady = threads.isReady := by
    funext other
    have running := undisturbed.running
    simp only [isReady, states] at ready ⊢
    grind
  have none_ready : front.filter threads.isReady = [] := by simpa using skipped
  have order_eq : threads.order = thread :: back.filter threads.isReady := by
    rw [order, split, filter_append, none_ready, filter_cons_of_pos ready, nil_append]
  have next : after.cursor = thread := by subst after_eq; rfl
  have current : after.current = thread := by subst after_eq; rfl
  refine ⟨by rw [order_eq]; rfl, ?_, ?_, ?_, ?_⟩
  · rw [order, next, same, turns_of_split split, order_eq, rotate_cons_succ, rotate_zero]
    simp only [filter_append, none_ready, nil_append, filter_cons_of_pos ready, filter_nil]
  · simp [current, states]
  · intro other runs
    have single := undisturbed.single other
    grind
  · intro other wakeAt state later inside
    exact undisturbed.asleep other wakeAt (by grind) later (mem_cons_of_mem _ inside)

end

theorem dispatches_eq (undisturbed : Undisturbed threads times) :
    dispatches threads times = (range times.length).map fun k => threads.order[k % threads.order.length]? := by
  induction times generalizing threads with
  | nil => rfl
  | cons now times ih =>
    obtain ⟨first, rotated, later⟩ := undisturbed.yields
    have inhabited : 0 < threads.order.length := length_pos_of_mem (mem_order.mpr undisturbed.current_ready)
    rw [dispatches, ih later, first, rotated, length_cons, range_succ_eq_map, map_cons, map_map,
      length_rotate, Nat.zero_mod]
    congr 1
    apply map_congr_left
    intro k _
    rw [getElem?_rotate (Nat.mod_lt _ inhabited), Nat.mod_add_mod]
    rfl

/-- How often a thread is dispatched: each full round once, and once more if its turn has come in the last one. -/
theorem count_dispatches (undisturbed : Undisturbed threads times) (member : thread ∈ threads.order) :
    (dispatches threads times).count (some thread) = times.length / threads.order.length ∨
      (dispatches threads times).count (some thread) = times.length / threads.order.length + 1 := by
  obtain ⟨place, bound, here⟩ := getElem_of_mem member
  have position : ∀ k, threads.order[k % threads.order.length]? = some thread ↔
      k ≡ place [MOD threads.order.length] := by
    intro k
    rw [Nat.ModEq, Nat.mod_eq_of_lt bound, ← here, ← getElem?_eq_getElem bound]
    constructor
    · intro equal
      exact (getElem?_inj (Nat.mod_lt _ (Nat.zero_lt_of_lt bound)) (order_nodup threads)).mp equal
    · intro equal
      rw [equal]
  have counted : (dispatches threads times).count (some thread) =
      Nat.count (· ≡ place [MOD threads.order.length]) times.length := by
    rw [dispatches_eq undisturbed, count, countP_map, Nat.count]
    apply countP_congr
    simp [position]
  rw [counted, Nat.count_modEq_card _ (Nat.zero_lt_of_lt bound)]
  split
  · exact .inr rfl
  · exact .inl rfl

/-- Threads that only yield take turns: every round dispatches each of them once,
in the cyclic order of their slots, so no thread gets ahead of another by more
than one turn. -/
theorem yields_take_turns (threads : BootstrapUserThreads n) (times : List Nat)
    (undisturbed : Undisturbed threads times) :
    (∀ thread, thread ∈ threads.order ↔
      (threads.slots thread).state = .running ∨ (threads.slots thread).state = .runnable) ∧
      threads.order.Nodup ∧ threads.order.Sublist ((finRange (n + 1)).rotate (threads.cursor.val + 1)) ∧
      (∀ start, start + threads.order.length ≤ times.length →
        ((dispatches threads times).drop start).take threads.order.length = (threads.order.rotate start).map some) ∧
      ∀ first ∈ threads.order, ∀ second ∈ threads.order,
        (dispatches threads times).count (some first) ≤ (dispatches threads times).count (some second) + 1 := by
  refine ⟨?_, order_nodup threads, ?_, ?_, ?_⟩
  · intro thread
    rw [mem_order, isReady, decide_eq_true_eq]
  · rw [order, turns_eq_rotate]
    exact filter_sublist
  · intro start fits
    rw [dispatches_eq undisturbed]
    apply ext_getElem?
    intro k
    by_cases inside : k < threads.order.length
    · have valid := Nat.mod_lt (k + start) (Nat.zero_lt_of_lt inside)
      rw [getElem?_take_of_lt inside, getElem?_drop, getElem?_map, getElem?_map,
        getElem?_rotate inside, getElem?_range (by omega), Nat.add_comm start, getElem?_eq_getElem valid]
      simp [getElem?_eq_getElem valid]
    · rw [getElem?_eq_none (by simp; omega), getElem?_eq_none (by simp; omega)]
  · intro first member second member'
    have counts := count_dispatches undisturbed member
    have counts' := count_dispatches undisturbed member'
    omega

theorem yields_take_turns_pair :
    let threads : BootstrapUserThreads 3 :=
      ⟨![⟨.running, none, false, 1⟩, ⟨.sleeping 9, none, false, 1⟩, ⟨.runnable, none, false, 1⟩, .empty], 0, 0⟩
    threads.order = [2, 0] ∧ ((dispatches threads [0, 1, 2, 3, 4]).drop 3).take 2 = [some 0, some 2] := by
  intro threads
  have undisturbed : Undisturbed threads [0, 1, 2, 3, 4] := by
    refine ⟨rfl, by decide, ?_⟩
    intro thread wakeAt state
    fin_cases thread <;> cases state
    decide
  obtain ⟨_, _, _, rounds, _⟩ := yields_take_turns threads [0, 1, 2, 3, 4] undisturbed
  have order_eq : threads.order = [2, 0] := by decide
  rw [order_eq] at rounds
  exact ⟨order_eq, rounds 3 (by decide)⟩

end Nagi.Kernel.BootstrapUserThreads
