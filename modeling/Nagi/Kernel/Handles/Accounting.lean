import Nagi.Kernel.Handles.Table

/-! What the handle-table operations do, one statement for each.

A table changes in two ways only: a free slot is filled, or a live slot is
emptied under the next generation. -/

namespace Nagi.Kernel.HandleTable

open Lib ObjectRegistry Function List

variable {n m : Nat}

structure Filled (before after : HandleTable n) (i : Fin n) (capability : Capability) : Prop where
  free : (before.slots i).capability = none
  room : (before.slots i).generation ≠ u32Max
  held : (after.slots i).capability = some capability
  generation : (after.slots i).generation = (before.slots i).generation
  others : ∀ j, j ≠ i → after.slots j = before.slots j

structure Emptied (before after : HandleTable n) (i : Fin n) (capability : Capability) : Prop where
  held : (before.slots i).capability = some capability
  free : (after.slots i).capability = none
  generation : (after.slots i).generation = (before.slots i).generation + 1
  others : ∀ j, j ≠ i → after.slots j = before.slots j

variable {table : HandleTable n} {handle : Handle} {i : Fin n}

theorem slot_eq_ok :
    table.slot handle = .ok i ↔ handle.slot = i.val ∧ (table.slots i).generation = handle.generation := by
  constructor
  · fun_cases table.slot handle with
    | case2 _ _ current =>
      intro found
      exact Except.ok.inj found ▸ ⟨rfl, not_not.mp (not_or.mp current).2⟩
    | _ => simp
  · rintro ⟨named, generation⟩
    have positive := (table.slots i).generation_pos
    have bound : handle.slot < n := named ▸ i.isLt
    have same : (⟨handle.slot, bound⟩ : Fin n) = i := Fin.ext named
    rw [slot, dif_pos bound]
    simp only [same, generation, ne_eq, not_true_eq_false, or_false, if_neg (show handle.generation ≠ 0 by omega)]

theorem slot_inj {first second : Handle} (left : table.slot first = .ok i) (right : table.slot second = .ok i) :
    first = second := by
  obtain ⟨leftSlot, leftGeneration⟩ := slot_eq_ok.mp left
  obtain ⟨rightSlot, rightGeneration⟩ := slot_eq_ok.mp right
  exact Handle.ext_of_parts (leftSlot.trans rightSlot.symm) (leftGeneration.symm.trans rightGeneration)

theorem slot_new_handle (small : n ≤ 2 ^ 32) (table : HandleTable n) (i : Fin n) :
    table.slot (.new i.val (table.slots i).generation) = .ok i := by
  have generation := (table.slots i).generation_le
  have bound : i.val < 2 ^ 32 := Nat.lt_of_lt_of_le i.isLt small
  have current : (table.slots i).generation < 2 ^ 32 := by
    unfold u32Max at generation
    omega
  exact slot_eq_ok.mpr ⟨Handle.slot_new bound current, (Handle.generation_new bound current).symm⟩

variable {before after : HandleTable n}

theorem slot_congr (same : after.slots i = before.slots i) :
    after.slot handle = .ok i ↔ before.slot handle = .ok i := by
  rw [slot_eq_ok, slot_eq_ok, same]

variable {registry : ObjectRegistry m} {capability : Capability}

theorem entry_eq_ok : table.entry registry handle = .ok capability ↔
      ∃ i, table.slot handle = .ok i ∧ (table.slots i).capability = some capability ∧
        0 < registry.refs capability.object := by
  constructor
  · fun_cases table.entry registry handle with
    | case4 i named capability present _ valid =>
      rintro ⟨⟩
      exact ⟨i, named, present, validate_iff.mp valid⟩
    | _ => simp
  · rintro ⟨i, named, present, live⟩
    simp only [entry, named, present, validate_iff.mpr live]

variable {object : ObjectId}

theorem resolve_eq_ok : table.resolve registry handle = .ok object ↔
      ∃ capability, table.entry registry handle = .ok capability ∧ capability.object = object := by
  unfold resolve
  cases table.entry registry handle <;> simp [Except.map]

theorem require_eq_ok {expected : ObjectKind} {required : Rights} :
    table.require registry handle expected required = .ok object ↔
      ∃ capability, table.entry registry handle = .ok capability ∧ capability.object = object ∧
        object.kind = expected ∧ capability.rights.contains required = true := by
  unfold require
  cases found : table.entry registry handle with
  | error error => simp
  | ok capability =>
    by_cases kind : capability.object.kind = expected
    · by_cases allowed : capability.rights.contains required = true
      · simp only [kind, allowed, ne_eq, not_true_eq_false, if_false, Bool.not_true, Bool.false_eq_true,
          Except.ok.injEq]
        constructor
        · rintro rfl; exact ⟨capability, rfl, rfl, kind, allowed⟩
        · rintro ⟨_, rfl, same, _⟩; exact same
      · simp only [kind, allowed, ne_eq, not_true_eq_false, if_false, Bool.not_false, if_true,
          reduceCtorEq, false_iff]
        simp [allowed]
    · simp only [kind, ne_eq, not_false_eq_true, if_true, reduceCtorEq, false_iff]
      rintro ⟨_, same, object, expected, _⟩
      cases same
      exact kind (object ▸ expected)

theorem emptied_update (table : HandleTable n) (i : Fin n) (capability : Capability)
    (held : (table.slots i).capability = some capability) :
    Emptied table ⟨update table.slots i (table.slots i).vacate⟩ i capability where
  held := held
  free := by simp [HandleSlot.vacate]
  generation := by
    have room := (table.slots i).live (by simp [held])
    simp [HandleSlot.vacate, Nat.ne_of_lt room]
  others j other := by simp [other]

variable {next : HandleTable n}

theorem installCapability_spec {rights : Rights}
    (installed : table.installCapability object rights = .ok (handle, next)) :
    ∃ i, Filled table next i ⟨object, rights⟩ ∧ handle = .new i.val (table.slots i).generation := by
  unfold installCapability at installed
  split at installed
  · split at installed <;> cases installed
  · next i found =>
    cases installed
    obtain ⟨free, room⟩ := Bool.and_eq_true_iff.mp (Fin.eq_true_of_find?_eq_some found)
    refine ⟨i, ⟨Option.isNone_iff_eq_none.mp free, by simpa using room, ?_, ?_, fun j other => ?_⟩, rfl⟩
    all_goals simp [HandleSlot.fill, *]

variable {requested : Rights}

theorem room_of_held (held : (table.slots i).capability = some capability) : (table.slots i).generation ≠ u32Max :=
  Nat.ne_of_lt ((table.slots i).live (by simp [held]))

theorem checkMove_eq_ok : table.checkMove registry handle requested = .ok () ↔
      ∃ capability, table.entry registry handle = .ok capability ∧
        capability.rights.contains .transfer = true ∧ capability.rights.contains requested = true := by
  unfold checkMove
  cases found : table.entry registry handle with
  | error error => simp
  | ok capability =>
    obtain ⟨i, named, held, _⟩ := entry_eq_ok.mp found
    simp only [named, if_neg (room_of_held held), Rights.isSubsetOf]
    cases transfer : capability.rights.contains .transfer <;>
      cases subset : capability.rights.contains requested <;> simp [transfer, subset]

theorem beginMove_of_check (checked : table.checkMove registry handle requested = .ok ()) :
    ∃ i capability next, table.beginMove registry handle requested = .ok (⟨⟨capability.object, requested⟩⟩, next) ∧
      table.entry registry handle = .ok capability ∧ table.slot handle = .ok i ∧
      Emptied table next i capability := by
  obtain ⟨capability, found, _⟩ := checkMove_eq_ok.mp checked
  obtain ⟨i, named, held, _⟩ := entry_eq_ok.mp found
  refine ⟨i, capability, _, ?_, found, named, emptied_update table i capability held⟩
  simp only [beginMove, checked, named, held, if_neg (room_of_held held)]

variable {token : TransferToken}

theorem check_of_beginMove (moved : table.beginMove registry handle requested = .ok (token, next)) :
    table.checkMove registry handle requested = .ok () := by
  unfold beginMove at moved
  split at moved
  · cases moved
  · next checked => exact checked

theorem close_spec {after : ObjectRegistry m} (closed : table.close registry handle = .ok (next, after)) :
    ∃ i capability, table.slot handle = .ok i ∧ Emptied table next i capability ∧
      registry.release capability.object = .ok after := by
  revert closed
  fun_cases table.close registry handle with
  | case5 i named capability held _ after released =>
    rintro ⟨⟩
    exact ⟨i, capability, named, emptied_update table i capability held, released⟩
  | _ => simp

theorem close_ok (found : table.entry registry handle = .ok capability) :
    ∃ result, table.close registry handle = .ok result := by
  obtain ⟨i, named, held, live⟩ := entry_eq_ok.mp found
  obtain ⟨after, released, _⟩ := release_spec live
  refine ⟨(⟨update table.slots i (table.slots i).vacate⟩, after), ?_⟩
  simp only [close, named, held, if_neg (room_of_held held), released]

theorem rollbackInstall_spec (reclaimed : table.rollbackInstall handle = some (token, next)) :
    ∃ i, table.slot handle = .ok i ∧ Emptied table next i token.capability := by
  revert reclaimed
  fun_cases table.rollbackInstall handle with
  | case4 i named capability held _ =>
    rintro ⟨⟩
    exact ⟨i, named, emptied_update table i capability held⟩
  | _ => simp

theorem installToken_spec {token : Option TransferToken}
    (installed : table.installToken registry token = .ok (handle, next)) :
    ∃ carried, token = some carried ∧
      table.installCapability carried.capability.object carried.capability.rights = .ok (handle, next) := by
  unfold installToken at installed
  split at installed
  · cases installed
  · next carried =>
    split at installed
    · cases installed
    · exact ⟨carried, rfl, installed⟩

def weight (object : ObjectId) (slot : HandleSlot) : Nat :=
  if slot.capability.map (·.object) = some object then 1 else 0

theorem count_objects (table : HandleTable n) (object : ObjectId) :
    table.objects.count object = ∑ i, weight object (table.slots i) :=
  Table.count_filterMap_finRange _ object

theorem mem_objects : object ∈ table.objects ↔ ∃ i capability, (table.slots i).capability = some capability ∧
      capability.object = object := by
  simp only [objects, mem_filterMap, mem_finRange, true_and, Option.map_eq_some_iff]

theorem count_of_others (others : ∀ j, j ≠ i → after.slots j = before.slots j) (object : ObjectId) :
    after.objects.count object + weight object (before.slots i) =
      before.objects.count object + weight object (after.slots i) := by
  have same : after.slots = update before.slots i (after.slots i) := by
    funext j
    by_cases here : j = i
    · subst here; simp
    · simp [here, others j here]
  rw [count_objects, count_objects, same, update_self]
  exact Table.sum_update before.slots (weight object) i (after.slots i)

theorem Filled.count (filled : Filled before after i capability) (object : ObjectId) : after.objects.count object =
      before.objects.count object + if object = capability.object then 1 else 0 := by
  have change := count_of_others filled.others object
  simp only [weight, filled.free, filled.held, Option.map_none, Option.map_some, reduceCtorEq, if_false,
    Option.some.injEq, @eq_comm _ capability.object] at change
  omega

theorem Emptied.count (emptied : Emptied before after i capability) (object : ObjectId) :
    after.objects.count object + (if object = capability.object then 1 else 0) =
      before.objects.count object := by
  have change := count_of_others emptied.others object
  simp only [weight, emptied.free, emptied.held, Option.map_none, Option.map_some, reduceCtorEq, if_false,
    Option.some.injEq, @eq_comm _ capability.object] at change
  omega

def isFree (slot : HandleSlot) : Bool := slot.capability.isNone && decide (slot.generation ≠ u32Max)

theorem hasCapacity_iff {additional : Nat} : table.hasCapacity additional = true ↔
      additional ≤ ∑ i, if isFree (table.slots i) = true then 1 else 0 := by
  unfold hasCapacity
  rw [Table.countP_finRange, decide_eq_true_iff]
  rfl

theorem installCapability_ok {additional : Nat} (capacity : table.hasCapacity (additional + 1) = true)
    (object : ObjectId) (rights : Rights) :
    ∃ handle next, table.installCapability object rights = .ok (handle, next) ∧
      next.hasCapacity additional = true := by
  rw [hasCapacity_iff] at capacity
  obtain ⟨j, _, free⟩ := Finset.sum_pos_iff.mp (Nat.lt_of_lt_of_le (Nat.succ_pos additional) capacity)
  have free : isFree (table.slots j) = true := by
    by_contra taken
    simp [taken] at free
  cases installed : table.installCapability object rights with
  | ok result =>
    obtain ⟨handle, next⟩ := result
    refine ⟨handle, next, rfl, ?_⟩
    obtain ⟨i, filled, _⟩ := installCapability_spec installed
    have same : next.slots = update table.slots i (next.slots i) := by
      funext k
      by_cases here : k = i
      · subst here; simp
      · simp [here, filled.others k here]
    have change := Table.sum_update table.slots (fun slot => if isFree slot = true then 1 else 0) i (next.slots i)
    have before : isFree (table.slots i) = true := by simp [isFree, filled.free, filled.room]
    have after : isFree (next.slots i) = false := by simp [isFree, filled.held]
    rw [← same, before, after] at change
    rw [hasCapacity_iff]
    simp only [if_true, Bool.false_eq_true, if_false] at change
    omega
  | error error =>
    unfold installCapability at installed
    split at installed
    · next missing =>
      have taken := Fin.eq_false_of_find?_eq_none missing j
      simp [isFree] at free
      simp [free] at taken
    · cases installed

theorem insert_spec (table : HandleTable n) (registry : ObjectRegistry m)
    (object : ObjectId) (rights : Rights) :
    (∃ error after, table.insert registry object rights = (.error error, table, after) ∧
        (∀ other, after.refs other = registry.refs other) ∧ registry.Evolves after) ∨
      ∃ handle next after i, table.insert registry object rights = (.ok handle, next, after) ∧
        Filled table next i ⟨object, rights⟩ ∧ handle = .new i.val (table.slots i).generation ∧
        (∀ other, after.refs other = registry.refs other + if other = object then 1 else 0) ∧
        registry.Evolves after := by
  unfold insert
  cases retained : registry.retain object with
  | error error => exact .inl ⟨error, registry, rfl, fun _ => rfl, .refl registry⟩
  | ok middle =>
    obtain ⟨live, counts, evolves⟩ := retain_spec retained
    cases installed : table.installCapability object rights with
    | ok result =>
      obtain ⟨handle, next⟩ := result
      obtain ⟨i, filled, same⟩ := installCapability_spec installed
      exact .inr ⟨handle, next, middle, i, rfl, filled, same, counts, evolves⟩
    | error error =>
      have live' : 0 < middle.refs object := by
        rw [counts, if_pos rfl]
        omega
      refine .inl ⟨error, _, rfl, fun other => ?_, evolves.trans (middle.discard_evolves object)⟩
      have back := discard_spec live' other
      have forth := counts other
      omega

theorem foldl_closeSlot (indices : List (Fin n)) (distinct : indices.Nodup) (table : HandleTable n)
    (registry : ObjectRegistry m) :
    (indices.foldl closeSlot (table, registry)).2 =
        (indices.filterMap fun i => (table.slots i).capability.map (·.object)).foldl discard registry ∧
      ∀ i, (indices.foldl closeSlot (table, registry)).1.slots i =
        if i ∈ indices ∧ (table.slots i).capability.isSome = true then (table.slots i).vacate
        else table.slots i := by
  induction indices generalizing table registry with
  | nil => simp
  | cons first rest ih =>
    obtain ⟨fresh, distinct⟩ := nodup_cons.mp distinct
    rw [foldl_cons]
    cases held : (table.slots first).capability with
    | none =>
      have turn : closeSlot (table, registry) first = (table, registry) := by simp only [closeSlot, held]
      rw [turn]
      obtain ⟨registries, slots⟩ := ih distinct table registry
      refine ⟨by simpa [held] using registries, fun i => ?_⟩
      rw [slots i]
      by_cases here : i = first
      · subst here; simp [held]
      · simp [here]
    | some capability =>
      have turn : closeSlot (table, registry) first =
          (⟨update table.slots first (table.slots first).vacate⟩, registry.discard capability.object) := by
        simp only [closeSlot, held]
      rw [turn]
      have elsewhere : ∀ i ∈ rest, update table.slots first (table.slots first).vacate i = table.slots i := by
        intro i member
        have other : i ≠ first := by rintro rfl; exact fresh member
        simp [other]
      obtain ⟨registries, slots⟩ := ih distinct
        ⟨update table.slots first (table.slots first).vacate⟩ (registry.discard capability.object)
      have scanned : (rest.filterMap fun i =>
          (update table.slots first (table.slots first).vacate i).capability.map (·.object)) =
          rest.filterMap fun i => (table.slots i).capability.map (·.object) :=
        filterMap_congr fun i member => by rw [elsewhere i member]
      refine ⟨by simpa [held, scanned] using registries, fun i => ?_⟩
      rw [slots i]
      by_cases here : i = first
      · subst here; simp [held, fresh]
      · simp [here]

theorem closeAll_registry (table : HandleTable n) (registry : ObjectRegistry m) :
    (table.closeAll registry).2 = table.objects.foldl discard registry :=
  (foldl_closeSlot (finRange n) (nodup_finRange n) table registry).1

theorem closeAll_slots (table : HandleTable n) (registry : ObjectRegistry m) (i : Fin n) :
    (table.closeAll registry).1.slots i =
      if (table.slots i).capability.isSome = true then (table.slots i).vacate else table.slots i := by
  rw [closeAll, (foldl_closeSlot (finRange n) (nodup_finRange n) table registry).2 i]
  simp

end Nagi.Kernel.HandleTable
