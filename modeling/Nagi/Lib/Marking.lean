import Mathlib.Data.Fintype.EquivFin

/-! Marking the nodes of a finite graph that can be reached from a set of roots.

The marker sweeps the nodes in a fixed order and repeats the sweep until it marks
nothing new. What it ends with is the least set that contains the roots and is
closed under the edges. -/

namespace Nagi.Lib

/-- The least set that contains the roots and is closed under the edges. -/
inductive Reach {ι : Type} (root : ι → Prop) (edge : ι → ι → Prop) : ι → Prop where
  | root {node : ι} : root node → Reach root edge node
  | step {source target : ι} : Reach root edge source → edge source target → Reach root edge target

theorem Reach.mono {ι : Type} {root root' : ι → Prop} {edge edge' : ι → ι → Prop} {node : ι}
    (reached : Reach root edge node) (roots : ∀ i, root i → Reach root' edge' i)
    (edges : ∀ i j, Reach root' edge' i → edge i j → Reach root' edge' j) : Reach root' edge' node := by
  induction reached with
  | root member => exact roots _ member
  | step _ related ih => exact edges _ _ ih related

namespace Marking

variable {ι : Type} [DecidableEq ι]

/-- The marks so far, and whether this sweep has set one. -/
abbrev Marks (ι : Type) := (ι → Bool) × Bool

variable (state : Marks ι)

def markTarget (target : ι) : Marks ι :=
  if state.1 target then state else (Function.update state.1 target true, true)

def markSource (targets : ι → List ι) (state : Marks ι) (source : ι) : Marks ι :=
  if state.1 source then (targets source).foldl markTarget state else state

def markPass (targets : ι → List ι) (nodes : List ι) (marked : ι → Bool) : Marks ι :=
  nodes.foldl (markSource targets) (marked, false)

def markLoop (targets : ι → List ι) (nodes : List ι) : Nat → (ι → Bool) → ι → Bool
  | 0, marked => marked
  | fuel + 1, marked =>
    let swept := markPass targets nodes marked
    if swept.2 then markLoop targets nodes fuel swept.1 else swept.1

/-- One state extends another: no mark is lost, and new marks raise the flag. -/
structure Extends (before after : Marks ι) : Prop where
  grows : ∀ i, before.1 i = true → after.1 i = true
  flag : before.2 = true → after.2 = true
  fresh : before.2 = false → after.2 = true → ∃ i, before.1 i = false ∧ after.1 i = true
  still : after.2 = false → after.1 = before.1

omit [DecidableEq ι] in
theorem Extends.refl : Extends state state :=
  ⟨fun _ h => h, fun h => h, fun off on => by simp [off] at on, fun _ => rfl⟩

omit [DecidableEq ι] in
theorem Extends.trans {first second third : Marks ι} (left : Extends first second)
    (right : Extends second third) : Extends first third where
  grows i marked := right.grows i (left.grows i marked)
  flag raised := right.flag (left.flag raised)
  fresh off on := by
    cases middle : second.2 with
    | true =>
      obtain ⟨i, new, marked⟩ := left.fresh off middle
      exact ⟨i, new, right.grows i marked⟩
    | false =>
      obtain ⟨i, new, marked⟩ := right.fresh middle on
      exact ⟨i, by rwa [← left.still middle], marked⟩
  still off := by
    have middle : second.2 = false := by
      cases raised : second.2 with
      | false => rfl
      | true => simp [right.flag raised] at off
    rw [right.still off, left.still middle]

theorem markTarget_extends (target : ι) : Extends state (markTarget state target) := by
  unfold markTarget
  split
  · exact .refl state
  next unmarked =>
  refine ⟨fun i marked => ?_, fun _ => rfl, fun _ _ => ⟨target, by simpa using unmarked, by simp⟩,
    fun off => by cases off⟩
  by_cases same : i = target
  · simp [same]
  · simpa [same] using marked

omit [DecidableEq ι] in
theorem foldl_extends {β : Type} (step : Marks ι → β → Marks ι)
    (extending : ∀ state item, Extends state (step state item)) (items : List β) (state : Marks ι) :
    Extends state (items.foldl step state) := by
  induction items generalizing state with
  | nil => exact .refl state
  | cons item rest ih => exact (extending state item).trans (ih (step state item))

variable (targets : ι → List ι)

theorem markSource_extends (state : Marks ι) (source : ι) :
    Extends state (markSource targets state source) := by
  unfold markSource
  split
  · exact foldl_extends markTarget markTarget_extends _ _
  · exact .refl state

theorem markTarget_marks (target : ι) : (markTarget state target).1 target = true := by
  unfold markTarget
  split
  · assumption
  · simp

theorem foldl_markTarget_marks (items : List ι) (state : Marks ι) {target : ι} (member : target ∈ items) :
    (items.foldl markTarget state).1 target = true := by
  induction items generalizing state with
  | nil => cases member
  | cons item rest ih =>
    rcases List.mem_cons.mp member with same | member
    · subst same
      exact (foldl_extends markTarget markTarget_extends rest _).grows _ (markTarget_marks state target)
    · exact ih _ member

/-- A sweep that sets no mark has seen every edge out of a marked node. -/
theorem pass_closed (nodes : List ι) (state : Marks ι)
    (off : (nodes.foldl (markSource targets) state).2 = false) {source target : ι} (member : source ∈ nodes)
    (marked : state.1 source = true) (edge : target ∈ targets source) : state.1 target = true := by
  induction nodes generalizing state with
  | nil => cases member
  | cons node rest ih =>
    have later := foldl_extends _ (markSource_extends targets) rest (markSource targets state node)
    have quiet : (markSource targets state node).2 = false := by
      cases raised : (markSource targets state node).2 with
      | false => rfl
      | true => simp [later.flag raised] at off
    have same := (markSource_extends targets state node).still quiet
    rcases List.mem_cons.mp member with found | member
    · subst found
      rw [← same, markSource, if_pos marked]
      exact foldl_markTarget_marks _ _ edge
    · rw [← same]
      exact ih _ off member (by rwa [same])

section
variable {root : ι → Prop} {state : Marks ι}

theorem markTarget_sound {target : ι} {P : ι → Prop} (sound : ∀ i, state.1 i = true → P i) (reached : P target) :
    ∀ i, (markTarget state target).1 i = true → P i := by
  intro i marked
  unfold markTarget at marked
  split at marked
  · exact sound i marked
  · by_cases same : i = target
    · exact same ▸ reached
    · exact sound i (by simpa [same] using marked)

theorem markSource_sound (source : ι) (sound : ∀ i, state.1 i = true → Reach root (fun i j => j ∈ targets i) i) :
    ∀ i, (markSource targets state source).1 i = true → Reach root (fun i j => j ∈ targets i) i := by
  unfold markSource
  split
  · next marked =>
    have reached := sound source marked
    have every : ∀ target ∈ targets source, Reach root (fun i j => j ∈ targets i) target :=
      fun target edge => .step reached edge
    revert every
    generalize targets source = items
    clear reached marked
    induction items generalizing state with
    | nil => exact fun _ => sound
    | cons item rest ih =>
      intro every
      exact ih (markTarget_sound sound (every item (by simp))) fun target edge => every target (by simp [edge])
  · exact sound

theorem pass_sound (nodes : List ι) (sound : ∀ i, state.1 i = true → Reach root (fun i j => j ∈ targets i) i) :
    ∀ i, (nodes.foldl (markSource targets) state).1 i = true → Reach root (fun i j => j ∈ targets i) i := by
  induction nodes generalizing state with
  | nil => exact sound
  | cons node rest ih => exact ih (markSource_sound targets node sound)

end

section
variable [Fintype ι]

def unmarked (marked : ι → Bool) : Nat := (Finset.univ.filter fun i => marked i = false).card

omit [DecidableEq ι] in
theorem unmarked_lt {before after : ι → Bool} (grows : ∀ i, before i = true → after i = true)
    {new : ι} (missing : before new = false) (present : after new = true) :
    unmarked after < unmarked before := by
  apply Finset.card_lt_card
  refine ⟨fun i => ?_, fun subset => ?_⟩
  · simp only [Finset.mem_filter, Finset.mem_univ, true_and]
    intro off
    cases on : before i with
    | false => rfl
    | true => simp [grows i on] at off
  · have found := subset (Finset.mem_filter.mpr ⟨Finset.mem_univ new, missing⟩)
    simp [present] at found

/-- With more fuel than unmarked nodes the loop ends on a sweep that set no mark. -/
theorem loop_spec (nodes : List ι) (fuel : Nat) (marked : ι → Bool) (enough : unmarked marked < fuel) :
    (∀ i, marked i = true → markLoop targets nodes fuel marked i = true) ∧
    (∀ source ∈ nodes, markLoop targets nodes fuel marked source = true →
      ∀ target ∈ targets source, markLoop targets nodes fuel marked target = true) := by
  induction fuel generalizing marked with
  | zero => omega
  | succ fuel ih =>
    have extended := foldl_extends _ (markSource_extends targets) nodes (marked, false)
    unfold markLoop markPass
    cases raised : (nodes.foldl (markSource targets) (marked, false)).2 with
    | false =>
      simp only [raised]
      refine ⟨extended.grows, fun source member reached target edge => ?_⟩
      have same := extended.still raised
      rw [same] at reached ⊢
      exact pass_closed targets nodes (marked, false) raised member reached edge
    | true =>
      simp only [raised, if_true]
      obtain ⟨new, missing, present⟩ := extended.fresh rfl raised
      have fewer : unmarked _ < unmarked marked := unmarked_lt extended.grows missing present
      obtain ⟨grows, closed⟩ := ih _ (lt_of_lt_of_le fewer (by omega))
      exact ⟨fun i on => grows i (extended.grows i on), closed⟩

omit [Fintype ι] in
theorem loop_sound {root : ι → Prop} (nodes : List ι) (fuel : Nat) (marked : ι → Bool)
    (sound : ∀ i, marked i = true → Reach root (fun i j => j ∈ targets i) i) :
    ∀ i, markLoop targets nodes fuel marked i = true → Reach root (fun i j => j ∈ targets i) i := by
  induction fuel generalizing marked with
  | zero => exact sound
  | succ fuel ih =>
    have swept : ∀ i, (nodes.foldl (markSource targets) (marked, false)).1 i = true → _ :=
      pass_sound targets nodes sound
    unfold markLoop markPass
    cases raised : (nodes.foldl (markSource targets) (marked, false)).2 with
    | true => simpa only [raised, if_true] using ih _ swept
    | false => simpa only [raised, Bool.false_eq_true, if_false] using swept

theorem loop_eq_reach (nodes : List ι) (complete : ∀ i, i ∈ nodes) (marked : ι → Bool) (fuel : Nat)
    (enough : Fintype.card ι < fuel) (i : ι) :
    markLoop targets nodes fuel marked i = true ↔
      Reach (fun i => marked i = true) (fun i j => j ∈ targets i) i := by
  constructor
  · exact loop_sound targets nodes fuel marked (fun i on => .root on) i
  · intro reached
    have bound : unmarked marked < fuel := lt_of_le_of_lt (Finset.card_le_univ _) enough
    obtain ⟨grows, closed⟩ := loop_spec targets nodes fuel marked bound
    induction reached with
    | root on => exact grows _ on
    | step _ edge ih => exact closed _ (complete _) ih _ edge

end

end Marking
end Nagi.Lib
