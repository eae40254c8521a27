import Nagi.Lib.Runs
import Nagi.Lib.Words

/-! The allocator of an early user process, `BumpAllocator`.

Threads share a counter of the bytes taken. A call loads it, places its request behind these bytes, and takes them
with a compare-exchange; a call that loses the exchange gives up. -/

namespace Nagi.Pal

open Lib Words Function

inductive AllocError where
  | exhausted
  | invalidLayout

structure Layout where
  size : Nat
  align : Nat
  narrow : align < 2 ^ 64

/-- The bytes of an allocator, which end below the last address. -/
structure Buffer where
  base : Nat
  size : Nat
  inside : base + size < 2 ^ 64

/-- What a call holds between its load and its exchange. -/
structure Call where
  layout : Layout
  current : Nat
  aligned : Nat
  last : Nat

structure BumpAllocator where
  next : Nat
  calls : Nat → Option Call

inductive Action where
  | load (thread : Nat) (layout : Layout)
  | compareExchange (thread : Nat)

variable (buffer : Buffer)

def place (current : Nat) (layout : Layout) : Option (Nat × Nat) := do
  let address ← checkedAdd 64 buffer.base current
  let address ← checkedAdd 64 address (layout.align - 1)
  let aligned := (BitVec.ofNat 64 address &&& ~~~BitVec.ofNat 64 (layout.align - 1)).toNat
  if aligned < buffer.base then none
  else
    let last ← checkedAdd 64 (aligned - buffer.base) layout.size
    if last > buffer.size then none else some (aligned, last)

/-- `allocate`, cut at its two accesses to the counter; a call that returns names its request. -/
def step (state : BumpAllocator) : Action → Option (Layout × Except AllocError Nat) × BumpAllocator
  | .load thread layout =>
    if (state.calls thread).isSome then (none, state)
    else if layout.size = 0 ∨ ¬isPowerOfTwo layout.align then (some (layout, .error .invalidLayout), state)
    else match place buffer state.next layout with
      | none => (some (layout, .error .exhausted), state)
      | some (aligned, last) =>
        (none, { state with calls := update state.calls thread (some ⟨layout, state.next, aligned, last⟩) })
  | .compareExchange thread =>
    match state.calls thread with
    | none => (none, state)
    | some call =>
      let calls := update state.calls thread none
      if state.next = call.current then (some (call.layout, .ok call.aligned), ⟨call.last, calls⟩)
      else (some (call.layout, .error .exhausted), ⟨state.next, calls⟩)

def BumpAllocator.new : BumpAllocator := ⟨0, fun _ => none⟩

def used (state : BumpAllocator) : Nat := min state.next buffer.size

def history (actions : List Action) : List (Event BumpAllocator Action (Option (Layout × Except AllocError Nat))) :=
  Runs.trace (step buffer) .new actions

/-- Some block for the request lies in the buffer, behind the bytes taken. -/
def Fits (taken : Nat) (layout : Layout) : Prop :=
  ∃ address, layout.align ∣ address ∧ buffer.base + taken ≤ address ∧
    address + layout.size ≤ buffer.base + buffer.size

/-- A block for the request, behind the bytes its call saw. -/
structure Placed (call : Call) : Prop where
  aligned : call.layout.align ∣ call.aligned
  behind : buffer.base + call.current ≤ call.aligned
  ends : call.aligned + call.layout.size = buffer.base + call.last
  inside : call.last ≤ buffer.size

variable {buffer} {layout : Layout}

section
variable {current aligned last : Nat} (power : 2 ^ layout.align.log2 = layout.align)
include power

theorem align_dvd : layout.align ∣ 2 ^ 64 := by
  have narrow := layout.narrow
  rw [← power] at narrow ⊢
  exact Nat.pow_dvd_pow 2 (Nat.le_of_lt ((Nat.pow_lt_pow_iff_right (by decide)).mp narrow))

theorem masked_eq {address : Nat} (small : address < 2 ^ 64) :
    (BitVec.ofNat 64 address &&& ~~~BitVec.ofNat 64 (layout.align - 1)).toNat = address - address % layout.align := by
  have narrow := layout.narrow
  have whole := toNat_and_not_add (.ofNat 64 address) (.ofNat 64 (layout.align - 1))
  rw [BitVec.toNat_and (BitVec.ofNat 64 address) (.ofNat 64 (layout.align - 1)), BitVec.toNat_ofNat, BitVec.toNat_ofNat,
    Nat.mod_eq_of_lt small, Nat.mod_eq_of_lt (by omega), ← power, Nat.and_two_pow_sub_one_eq_mod, power] at whole
  exact Nat.eq_sub_of_add_eq whole

theorem place_some (placed : place buffer current layout = some (aligned, last)) :
    Placed buffer ⟨layout, current, aligned, last⟩ := by
  have positive := Nat.pos_of_dvd_of_pos (align_dvd power) (by decide)
  simp only [place, Option.bind_eq_bind, Option.bind_eq_some_iff, checkedAdd_eq_some_iff,
    Option.ite_none_left_eq_some] at placed
  obtain ⟨_, ⟨_, rfl⟩, _, ⟨small, rfl⟩, above, _, ⟨_, rfl⟩, inside, same⟩ := placed
  rw [masked_eq power small] at above inside same
  cases same
  have beyond := Nat.mod_lt (buffer.base + current + (layout.align - 1)) positive
  exact ⟨Nat.dvd_sub_mod _, by dsimp only; omega, by dsimp only; omega, Nat.not_lt.mp inside⟩

theorem place_none (none : place buffer current layout = none) : ¬Fits buffer current layout := by
  rintro ⟨address, aligned, behind, ends⟩
  have divides := align_dvd power
  have positive := Nat.pos_of_dvd_of_pos divides (by decide)
  have inside := buffer.inside
  -- the multiple of the alignment behind the block is at most the last address
  have room : address + layout.align ≤ 2 ^ 64 :=
    Nat.le_of_lt_add_of_dvd (by omega) (Nat.dvd_add aligned (Nat.dvd_refl _)) divides
  have small : buffer.base + current + (layout.align - 1) < 2 ^ 64 := by omega
  have first := Nat.le_of_lt_add_of_dvd (b := address) (by omega)
    (Nat.dvd_sub_mod (buffer.base + current + (layout.align - 1))) aligned
  have beyond := Nat.mod_lt (buffer.base + current + (layout.align - 1)) positive
  have low : buffer.base + current < 2 ^ 64 := by omega
  simp only [place, checkedAdd, if_pos low, if_pos small, Option.bind_eq_bind, Option.bind_some,
    masked_eq power small] at none
  rw [if_neg (by omega), if_pos (by omega), Option.bind_some, if_neg (by omega)] at none
  cases none

end

/-- What a step does: nothing, refuse a request, hold its place, or take it if nobody else took bytes since the load. -/
inductive Effect (buffer : Buffer) (before : BumpAllocator) :
    Action → Option (Layout × Except AllocError Nat) → BumpAllocator → Prop where
  | idle {action : Action} : Effect buffer before action none before
  | invalid {thread : Nat} {layout : Layout} :
      Effect buffer before (.load thread layout) (some (layout, .error .invalidLayout)) before
  | refused {thread : Nat} {layout : Layout} (full : ¬Fits buffer before.next layout) :
      Effect buffer before (.load thread layout) (some (layout, .error .exhausted)) before
  | held {thread : Nat} {call : Call} (placed : Placed buffer call) :
      Effect buffer before (.load thread call.layout) none ⟨before.next, update before.calls thread (some call)⟩
  | taken {thread : Nat} {call : Call} (held : before.calls thread = some call) (won : call.current = before.next) :
      Effect buffer before (.compareExchange thread) (some (call.layout, .ok call.aligned))
        ⟨call.last, update before.calls thread none⟩
  | lost {thread : Nat} {call : Call} (held : before.calls thread = some call) (lost : call.current ≠ before.next) :
      Effect buffer before (.compareExchange thread) (some (call.layout, .error .exhausted))
        ⟨before.next, update before.calls thread none⟩

variable {before after : BumpAllocator} {action : Action} {result : Option (Layout × Except AllocError Nat)}

theorem step_effect (returned : (step buffer before action).1 = result) :
    Effect buffer before action result (step buffer before action).2 := by
  subst returned
  cases action with
  | load thread layout =>
    dsimp only [step]
    split
    · exact .idle
    split
    · exact .invalid
    next valid =>
    have power : 2 ^ layout.align.log2 = layout.align := by simpa [isPowerOfTwo] using (not_or.mp valid).2
    split
    · next none => exact .refused (place_none power none)
    · next aligned last found => exact .held (place_some power found)
  | compareExchange thread =>
    cases held : before.calls thread with
    | none =>
      simp only [step, held]
      exact .idle
    | some call =>
      simp only [step, held]
      split
      · next won => exact .taken held won.symm
      · next lost => exact .lost held (Ne.symm lost)

/-- The counter stays in the buffer, and every call has found its place. -/
structure Sound (buffer : Buffer) (state : BumpAllocator) : Prop where
  bounded : state.next ≤ buffer.size
  placed : ∀ thread call, state.calls thread = some call → Placed buffer call

theorem Sound.update (sound : Sound buffer before) {next : Nat} (bounded : next ≤ buffer.size) (thread : Nat)
    {entry : Option Call} (placed : ∀ call, entry = some call → Placed buffer call) :
    Sound buffer ⟨next, Function.update before.calls thread entry⟩ := by
  refine ⟨bounded, fun other call held => ?_⟩
  by_cases here : other = thread
  · rw [here] at held
    exact placed call ((update_self thread entry before.calls).symm.trans held)
  · exact sound.placed other call ((update_of_ne here entry before.calls).symm.trans held)

theorem Effect.sound (effect : Effect buffer before action result after) (sound : Sound buffer before) :
    Sound buffer after ∧ before.next ≤ after.next := by
  cases effect with
  | idle | invalid | refused => exact ⟨sound, Nat.le_refl _⟩
  | held placed => exact ⟨sound.update sound.bounded _ fun _ same => Option.some.inj same ▸ placed, Nat.le_refl _⟩
  | lost => exact ⟨sound.update sound.bounded _ nofun, Nat.le_refl _⟩
  | @taken thread call held won =>
    have placed := sound.placed thread call held
    refine ⟨sound.update placed.inside _ nofun, ?_⟩
    have behind := placed.behind
    have ends := placed.ends
    dsimp only
    omega

theorem Effect.block {address : Nat} (effect : Effect buffer before action (some (layout, .ok address)) after)
    (sound : Sound buffer before) : layout.align ∣ address ∧ buffer.base + before.next ≤ address ∧
      address + layout.size = buffer.base + after.next := by
  cases effect with
  | @taken thread call held won =>
    have placed := sound.placed thread call held
    exact ⟨placed.aligned, won ▸ placed.behind, placed.ends⟩

theorem Effect.exhausted (effect : Effect buffer before action (some (layout, .error .exhausted)) after)
    (sound : Sound buffer before) :
    (∃ thread, action = .load thread layout ∧ ¬Fits buffer (used buffer before) layout) ∨
      ∃ thread call, action = .compareExchange thread ∧ before.calls thread = some call ∧ call.layout = layout ∧
        call.current ≠ before.next := by
  cases effect with
  | @refused thread _ full =>
    rw [used, Nat.min_eq_left sound.bounded]
    exact .inl ⟨thread, rfl, full⟩
  | lost held lost => exact .inr ⟨_, _, rfl, held, rfl, lost⟩

/-- In every interleaving the blocks returned lie in the buffer, aligned, each behind the earlier ones; and a call
returns `Exhausted` only if its request does not fit behind the bytes taken at its load, or if other bytes were taken
between its load and its exchange. -/
theorem blocks_apart (buffer : Buffer) (actions : List Action) :
    (∀ event ∈ history buffer actions, ∀ layout address, event.result = some (layout, .ok address) →
      layout.align ∣ address ∧ buffer.base ≤ address ∧ address + layout.size ≤ buffer.base + buffer.size) ∧
    (history buffer actions).Pairwise (fun first second => ∀ layout address other behind,
      first.result = some (layout, .ok address) → second.result = some (other, .ok behind) →
        address + layout.size ≤ behind) ∧
    ∀ event ∈ history buffer actions, ∀ layout, event.result = some (layout, .error .exhausted) →
      (∃ thread, event.action = .load thread layout ∧ ¬Fits buffer (used buffer event.before) layout) ∨
      ∃ thread call, event.action = .compareExchange thread ∧ event.before.calls thread = some call ∧
        call.layout = layout ∧ call.current ≠ event.before.next := by
  have keeps (state : BumpAllocator) (action : Action) (sound : Sound buffer state) :
      Sound buffer (step buffer state action).2 := ((step_effect rfl).sound sound).1
  have start : Sound buffer .new := ⟨Nat.zero_le _, nofun⟩
  refine ⟨?_, ?_, ?_⟩
  · refine Runs.forall_event keeps (fun state action sound layout address returned => ?_) start actions
    obtain ⟨aligned, behind, ends⟩ := (step_effect returned).block sound
    have bounded := (keeps state action sound).bounded
    exact ⟨aligned, by omega, by omega⟩
  · refine Runs.trace_pairwise keeps (Q := fun event state => ∀ layout address,
      event.result = some (layout, .ok address) → address + layout.size ≤ buffer.base + state.next)
      ?_ ?_ ?_ start actions
    · exact fun state action sound layout address returned => Nat.le_of_eq ((step_effect returned).block sound).2.2
    · intro earlier state action sound below layout address returned
      exact Nat.le_trans (below layout address returned) (Nat.add_le_add_left ((step_effect rfl).sound sound).2 _)
    · intro earlier state action sound below layout address other behind first second
      exact Nat.le_trans (below layout address first) ((step_effect second).block sound).2.1
  · exact Runs.forall_event keeps (fun _ _ sound _ returned => (step_effect returned).exhausted sound) start actions

def small : Buffer := ⟨24, 32, by decide⟩

def word : Layout := ⟨8, 8, by decide⟩

def race : List Action := [.load 0 word, .load 1 word, .compareExchange 0, .compareExchange 1]

/-- The call that lost returns `Exhausted`, though its request fitted all the time. -/
theorem lost_exchange_exhausted :
    (∃ event, (history small race).getLast? = some event ∧ event.action = .compareExchange 1 ∧
      event.result = some (word, .error .exhausted)) ∧
    ∀ event ∈ history small race,
      Fits small (used small event.before) word ∧ Fits small (used small event.after) word := by
  have fits {taken : Nat} (few : taken ≤ 8) : Fits small taken word :=
    ⟨32, by decide, Nat.add_le_add_left few 24, by decide⟩
  have taken : ∀ event ∈ history small race, used small event.before ≤ 8 ∧ used small event.after ≤ 8 := by decide
  exact ⟨⟨_, rfl, rfl, rfl⟩, fun event member => (taken event member).imp fits fits⟩

end Nagi.Pal
