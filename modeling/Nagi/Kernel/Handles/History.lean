import Nagi.Kernel.Handles.Accounting
import Nagi.Lib.Runs

/-! The life of a handle and of an object identity.

One table shares a registry with users that create, retain and release objects
as they please. -/

namespace Nagi.Kernel

open Lib HandleTable ObjectRegistry List Runs

structure SharedTable (n m : Nat) where
  table : HandleTable n
  registry : ObjectRegistry m

namespace SharedTable

inductive Action where
  | insert (object : ObjectId) (rights : Rights)
  | close (handle : Handle)
  | closeAll
  | beginMove (handle : Handle) (requested : Rights)
  | installToken (token : Option TransferToken)
  | rollbackInstall (handle : Handle)
  /-- The other users of the registry. -/
  | create (kind : ObjectKind)
  | retain (object : ObjectId)
  | release (object : ObjectId)

inductive Answer where
  | handle (handle : Handle)
  | token (token : TransferToken)
  | object (object : ObjectId)
  | nothing
  | done

variable {n m : Nat}

def new : SharedTable n m := ⟨.new, .new⟩

def step (state : SharedTable n m) : Action → Except HandleError Answer × SharedTable n m
  | .insert object rights =>
    match state.table.insert state.registry object rights with
    | (result, table, registry) => (result.map .handle, ⟨table, registry⟩)
  | .close handle =>
    match state.table.close state.registry handle with
    | .error error => (.error error, state)
    | .ok (table, registry) => (.ok .done, ⟨table, registry⟩)
  | .closeAll =>
    match state.table.closeAll state.registry with
    | (table, registry) => (.ok .done, ⟨table, registry⟩)
  | .beginMove handle requested =>
    match state.table.beginMove state.registry handle requested with
    | .error error => (.error error, state)
    | .ok (token, table) => (.ok (.token token), { state with table })
  | .installToken token =>
    match state.table.installToken state.registry token with
    | .error error => (.error error, state)
    | .ok (handle, table) => (.ok (.handle handle), { state with table })
  | .rollbackInstall handle =>
    match state.table.rollbackInstall handle with
    | none => (.ok .nothing, state)
    | some (token, table) => (.ok (.token token), { state with table })
  | .create kind =>
    match state.registry.create kind with
    | .error error => (.error error, state)
    | .ok (object, registry) => (.ok (.object object), { state with registry })
  | .retain object =>
    match state.registry.retain object with
    | .error error => (.error error, state)
    | .ok registry => (.ok .done, { state with registry })
  | .release object =>
    match state.registry.release object with
    | .error error => (.error error, state)
    | .ok registry => (.ok .done, { state with registry })

abbrev History (n m : Nat) := List (Lib.Event (SharedTable n m) Action (Except HandleError Answer))

def run (actions : List Action) : SharedTable n m := Runs.run step new actions

def history (actions : List Action) : History n m := trace step new actions

def issuedBy (event : Lib.Event (SharedTable n m) Action (Except HandleError Answer)) : Option (Handle × ObjectId) :=
  match event.action, event.result with
  | .insert object _, .ok (.handle handle) => some (handle, object)
  | .installToken (some token), .ok (.handle handle) => some (handle, token.capability.object)
  | _, _ => none

def takenBackBy (event : Lib.Event (SharedTable n m) Action (Except HandleError Answer)) : List Handle :=
  match event.action, event.result with
  | .close handle, .ok _ => [handle]
  | .closeAll, _ => (finRange n).filterMap fun i =>
      (event.before.table.slots i).capability.map fun _ => .new i.val (event.before.table.slots i).generation
  | .beginMove handle _, .ok _ => [handle]
  | .rollbackInstall handle, .ok (.token _) => [handle]
  | _, _ => []

def createdBy (event : Lib.Event (SharedTable n m) Action (Except HandleError Answer)) : Option ObjectId :=
  match event.action, event.result with
  | .create _, .ok (.object object) => some object
  | _, _ => none

def issued (past : History n m) : List (Handle × ObjectId) := past.filterMap issuedBy

def takenBack (past : History n m) : List Handle := past.flatMap takenBackBy

def created (past : History n m) : List ObjectId := past.filterMap createdBy

section
variable (past : History n m) (event : Lib.Event (SharedTable n m) Action (Except HandleError Answer))

theorem issued_append : issued (past ++ [event]) = issued past ++ (issuedBy event).toList := by
  cases read : issuedBy event <;> simp [issued, read]

theorem takenBack_append : takenBack (past ++ [event]) = takenBack past ++ takenBackBy event := by
  simp [takenBack]

theorem created_append : created (past ++ [event]) = created past ++ (createdBy event).toList := by
  cases read : createdBy event <;> simp [created, read]

end

/-- The effect of a step, with the handle it issues and those it takes back. -/
inductive Effect (before after : HandleTable n) : Option (Handle × ObjectId) → List Handle → Prop where
  | same (unchanged : after = before) : Effect before after none []
  | filled {i : Fin n} {capability : Capability} (filled : Filled before after i capability) :
      Effect before after (some (.new i.val (before.slots i).generation, capability.object)) []
  | emptied {i : Fin n} {capability : Capability} {handle : Handle} (named : before.slot handle = .ok i)
      (emptied : Emptied before after i capability) : Effect before after none [handle]
  | cleared (slots : ∀ i, after.slots i =
        if (before.slots i).capability.isSome = true then (before.slots i).vacate else before.slots i) :
      Effect before after none ((finRange n).filterMap fun i =>
        (before.slots i).capability.map fun _ => .new i.val (before.slots i).generation)

theorem step_effect (state : SharedTable n m) (action : Action) :
    Effect state.table (state.step action).2.table (issuedBy (event step state action))
      (takenBackBy (event step state action)) := by
  unfold event
  fun_cases state.step action with
  | case1 object rights result table registry inserted =>
    obtain ⟨_, _, same, _⟩ | ⟨_, _, _, _, same, filled, rfl, _⟩ :=
      state.table.insert_spec state.registry object rights
    · cases inserted.symm.trans same
      exact .same rfl
    · cases inserted.symm.trans same
      exact .filled filled
  | case3 handle table registry closed =>
    obtain ⟨_, _, named, emptied, _⟩ := close_spec closed
    exact .emptied named emptied
  | case4 table registry closed =>
    have slots := closeAll_slots state.table state.registry
    rw [closed] at slots
    exact .cleared slots
  | case6 handle requested token table moved =>
    obtain ⟨_, _, _, moved', _, named, emptied⟩ := beginMove_of_check (check_of_beginMove moved)
    cases moved.symm.trans moved'
    exact .emptied named emptied
  | case7 token => cases token <;> exact .same rfl
  | case8 token handle table placed =>
    obtain ⟨carried, rfl, installed⟩ := installToken_spec placed
    obtain ⟨_, filled, rfl⟩ := installCapability_spec installed
    exact .filled filled
  | case10 handle token table reclaimed =>
    obtain ⟨_, named, emptied⟩ := rollbackInstall_spec reclaimed
    exact .emptied named emptied
  | _ => exact .same rfl

/-- What the table owes its users: a handle that was issued and not taken back
names the object it was issued for; one that was taken back names a generation
its slot has left behind. -/
structure Genuine (table : HandleTable n) (issued : List (Handle × ObjectId)) (gone : List Handle) : Prop where
  live : ∀ handle object, (handle, object) ∈ issued → handle ∉ gone → ∃ i capability,
    table.slot handle = .ok i ∧ (table.slots i).capability = some capability ∧ capability.object = object
  stale : ∀ handle ∈ gone, ∃ i : Fin n, handle.slot = i.val ∧ handle.generation < (table.slots i).generation
  distinct : (issued.map (·.1)).Nodup

theorem generation_new_handle (small : n ≤ 2 ^ 32) (table : HandleTable n) (i : Fin n) :
    (Handle.new i.val (table.slots i).generation).slot = i.val ∧
      (Handle.new i.val (table.slots i).generation).generation = (table.slots i).generation := by
  obtain ⟨slot, generation⟩ := slot_eq_ok.mp (slot_new_handle small table i)
  exact ⟨slot, generation.symm⟩

theorem vacate_generation_le (slot : HandleSlot) : slot.generation ≤ slot.vacate.generation := by
  unfold HandleSlot.vacate
  dsimp only
  split <;> omega

theorem vacate_generation_lt {slot : HandleSlot} (live : slot.capability.isSome = true) :
    slot.generation < slot.vacate.generation := by
  have room := slot.live live
  unfold HandleSlot.vacate
  dsimp only
  split <;> omega

section
variable {before after : HandleTable n} {fresh : Option (Handle × ObjectId)} {back : List Handle}

theorem Effect.generation_le (effect : Effect before after fresh back) (j : Fin n) :
    (before.slots j).generation ≤ (after.slots j).generation := by
  cases effect with
  | same unchanged => rw [unchanged]
  | @filled i _ filled =>
    by_cases here : j = i
    · rw [here, filled.generation]
    · rw [filled.others j here]
  | @emptied i _ _ _ emptied =>
    by_cases here : j = i
    · rw [here, emptied.generation]; exact Nat.le_succ _
    · rw [emptied.others j here]
  | cleared slots =>
    rw [slots j]
    split
    · exact vacate_generation_le _
    · exact Nat.le_refl _

theorem Effect.stale_kept (effect : Effect before after fresh back) {handle : Handle}
    (stale : ∃ i : Fin n, handle.slot = i.val ∧ handle.generation < (before.slots i).generation) :
    ∃ i : Fin n, handle.slot = i.val ∧ handle.generation < (after.slots i).generation := by
  obtain ⟨i, slot, past⟩ := stale
  exact ⟨i, slot, Nat.lt_of_lt_of_le past (effect.generation_le i)⟩

variable {issued : List (Handle × ObjectId)} {gone : List Handle}

theorem Genuine.filled (small : n ≤ 2 ^ 32) (genuine : Genuine before issued gone) {i : Fin n}
    {capability : Capability} (filled : Filled before after i capability) :
    Genuine after (issued ++ [(.new i.val (before.slots i).generation, capability.object)]) gone := by
  have named : after.slot (.new i.val (before.slots i).generation) = .ok i := by
    rw [← filled.generation]
    exact slot_new_handle small after i
  obtain ⟨slot, generation⟩ := generation_new_handle small before i
  refine ⟨fun handle object member kept => ?_,
    fun handle member => (Effect.filled filled).stale_kept (genuine.stale handle member), ?_⟩
  · rcases mem_append.mp member with earlier | new
    · obtain ⟨j, held, place, present, same⟩ := genuine.live handle object earlier kept
      have elsewhere : j ≠ i := by
        rintro rfl
        rw [filled.free] at present
        cases present
      have unchanged := filled.others j elsewhere
      exact ⟨j, held, (slot_congr unchanged).mpr place, by rw [unchanged]; exact present, same⟩
    · cases mem_singleton.mp new
      exact ⟨i, capability, named, filled.held, rfl⟩
  · rw [map_append, nodup_append]
    refine ⟨genuine.distinct, nodup_singleton _, fun first earlier second new same => ?_⟩
    rw [mem_singleton.mp new] at same
    obtain ⟨⟨handle, object⟩, member, rfl⟩ := mem_map.mp earlier
    subst same
    -- an old handle of this value would name the slot that was free, or an old generation
    by_cases kept : Handle.new i.val (before.slots i).generation ∈ gone
    · obtain ⟨j, place, past⟩ := genuine.stale _ kept
      obtain rfl : i = j := Fin.ext (slot.symm.trans place)
      omega
    · obtain ⟨j, held, place, present, _⟩ := genuine.live _ object member kept
      rw [slot_new_handle small before i] at place
      cases place
      rw [filled.free] at present
      cases present

theorem Genuine.emptied (genuine : Genuine before issued gone) {i : Fin n} {capability : Capability}
    {handle : Handle} (named : before.slot handle = .ok i) (emptied : Emptied before after i capability) :
    Genuine after issued (gone ++ [handle]) := by
  refine ⟨fun other object member kept => ?_, fun other member => ?_, genuine.distinct⟩
  · rw [mem_append, not_or] at kept
    obtain ⟨j, held, place, present, same⟩ := genuine.live other object member kept.1
    have elsewhere : j ≠ i := by
      rintro rfl
      exact kept.2 (mem_singleton.mpr (slot_inj place named))
    have unchanged := emptied.others j elsewhere
    exact ⟨j, held, (slot_congr unchanged).mpr place, by rw [unchanged]; exact present, same⟩
  · rcases mem_append.mp member with earlier | new
    · exact (Effect.emptied named emptied).stale_kept (genuine.stale other earlier)
    · cases mem_singleton.mp new
      obtain ⟨place, generation⟩ := slot_eq_ok.mp named
      exact ⟨i, place, by rw [emptied.generation, generation]; exact Nat.lt_succ_self _⟩

theorem Genuine.cleared (small : n ≤ 2 ^ 32) (genuine : Genuine before issued gone)
    (slots : ∀ i, after.slots i =
      if (before.slots i).capability.isSome = true then (before.slots i).vacate else before.slots i) :
    Genuine after issued (gone ++ (finRange n).filterMap fun i =>
      (before.slots i).capability.map fun _ => .new i.val (before.slots i).generation) := by
  refine ⟨fun handle object member kept => ?_, fun handle member => ?_, genuine.distinct⟩
  · rw [mem_append, not_or] at kept
    obtain ⟨j, held, place, present, _⟩ := genuine.live handle object member kept.1
    refine absurd (mem_filterMap.mpr ⟨j, mem_finRange j, ?_⟩) kept.2
    rw [present, slot_inj place (slot_new_handle small before j)]
    rfl
  · rcases mem_append.mp member with earlier | new
    · exact (Effect.cleared slots).stale_kept (genuine.stale handle earlier)
    · obtain ⟨j, _, read⟩ := mem_filterMap.mp new
      obtain ⟨capability, present, rfl⟩ := Option.map_eq_some_iff.mp read
      obtain ⟨place, generation⟩ := generation_new_handle small before j
      have live : (before.slots j).capability.isSome = true := by rw [present]; rfl
      refine ⟨j, place, ?_⟩
      rw [generation, slots j, if_pos live]
      exact vacate_generation_lt live

theorem Effect.genuine (small : n ≤ 2 ^ 32) (effect : Effect before after fresh back)
    (genuine : Genuine before issued gone) : Genuine after (issued ++ fresh.toList) (gone ++ back) := by
  cases effect with
  | same unchanged => simpa [unchanged] using genuine
  | filled filled => simpa using genuine.filled small filled
  | emptied named emptied => simpa using genuine.emptied named emptied
  | cleared slots => simpa using genuine.cleared small slots

end

theorem run_genuine (small : n ≤ 2 ^ 32) (actions : List Action) :
    Genuine (run actions : SharedTable n m).table (issued (history actions : History n m))
      (takenBack (history actions : History n m)) := by
  refine Runs.trace_invariant
    (P := fun (state : SharedTable n m) (past : History n m) => Genuine state.table (issued past) (takenBack past))
    (fun state past action genuine => ?_) ⟨nofun, nofun, nodup_nil⟩ actions
  rw [issued_append, takenBack_append]
  exact (step_effect state action).genuine small genuine

theorem foldl_discard_evolves (objects : List ObjectId) (registry : ObjectRegistry m) :
    registry.Evolves (objects.foldl discard registry) := by
  induction objects generalizing registry with
  | nil => exact .refl registry
  | cons first rest ih => exact (registry.discard_evolves first).trans (ih (registry.discard first))

theorem step_evolves (small : m ≤ 2 ^ 32) (state : SharedTable n m) (action : Action) :
    state.registry.Evolves (state.step action).2.registry := by
  fun_cases state.step action with
  | case1 object rights result table registry inserted =>
    obtain ⟨_, _, same, _, evolves⟩ | ⟨_, _, _, _, same, _, _, _, evolves⟩ :=
      state.table.insert_spec state.registry object rights <;>
    · cases inserted.symm.trans same
      exact evolves
  | case3 handle table registry closed =>
    obtain ⟨_, _, _, _, released⟩ := close_spec closed
    exact release_evolves released
  | case4 table registry closed =>
    have all := closeAll_registry state.table state.registry
    rw [closed] at all
    cases all
    exact foldl_discard_evolves _ _
  | case12 kind object registry made => exact (create_spec small made).2.2.2.2
  | case14 object registry retained => exact (retain_spec retained).2.2
  | case16 object registry released => exact release_evolves released
  | _ => exact .refl _

theorem run_evolves (small : m ≤ 2 ^ 32) (state : SharedTable n m) (actions : List Action) :
    state.registry.Evolves (Runs.run step state actions).registry := by
  induction actions generalizing state with
  | nil => exact .refl _
  | cons action rest ih => exact (step_evolves small state action).trans (ih (state.step action).2)

/-- The identities given out so far are all different, and the registry still
has each of them or has used it up. -/
structure Accounted (registry : ObjectRegistry m) (created : List ObjectId) : Prop where
  known : ∀ object ∈ created, 0 < registry.refs object ∨ registry.Spent object
  distinct : created.Nodup

theorem Accounted.evolves {before after : ObjectRegistry m} {created : List ObjectId}
    (accounted : Accounted before created) (evolves : before.Evolves after) : Accounted after created := by
  refine ⟨fun object member => ?_, accounted.distinct⟩
  rcases accounted.known object member with live | spent
  · exact evolves.live object live
  · exact .inr (evolves.spent object spent)

theorem createdBy_spec {state : SharedTable n m} {action : Action} {object : ObjectId}
    (made : createdBy (event step state action) = some object) :
    ∃ kind, state.registry.create kind = .ok (object, (state.step action).2.registry) := by
  cases action with
  | create kind =>
    cases result : state.registry.create kind <;> simp only [createdBy, event, step, result] at made <;> cases made
    exact ⟨kind, by simp only [step, result]⟩
  | _ => cases made

theorem step_accounted (small : m ≤ 2 ^ 32) {state : SharedTable n m} {created : List ObjectId}
    (accounted : Accounted state.registry created) (action : Action) :
    Accounted (state.step action).2.registry (created ++ (createdBy (event step state action)).toList) := by
  have evolved := accounted.evolves (step_evolves small state action)
  cases made : createdBy (event step state action) with
  | none => simpa using evolved
  | some object =>
    have fresh : state.registry.refs object = 0 ∧ ¬state.registry.Spent object ∧
        0 < (state.step action).2.registry.refs object := by
      obtain ⟨kind, result⟩ := createdBy_spec made
      obtain ⟨_, unused, unspent, refs, _⟩ := create_spec small result
      refine ⟨unused, unspent, ?_⟩
      rw [refs, if_pos rfl]
      exact Nat.succ_pos _
    refine ⟨fun other member => ?_, ?_⟩
    · rcases mem_append.mp member with earlier | new
      · exact evolved.known other earlier
      · cases mem_singleton.mp new
        exact .inl fresh.2.2
    · rw [nodup_append]
      refine ⟨evolved.distinct, nodup_singleton _, fun first earlier second new same => ?_⟩
      cases mem_singleton.mp new
      subst same
      rcases accounted.known first earlier with live | spent
      · rw [fresh.1] at live
        exact absurd live (Nat.lt_irrefl 0)
      · exact fresh.2.1 spent

theorem run_accounted (small : m ≤ 2 ^ 32) (actions : List Action) :
    Accounted (run actions : SharedTable n m).registry (created (history actions : History n m)) := by
  refine Runs.trace_invariant
    (P := fun (state : SharedTable n m) (past : History n m) => Accounted state.registry (created past))
    (fun state past action accounted => ?_) ⟨nofun, nodup_nil⟩ actions
  rw [created_append]
  exact step_accounted small accounted action

theorem spent_of_released (small : m ≤ 2 ^ 32) {earlier later : List Action} {object : ObjectId}
    (live : 0 < (run earlier : SharedTable n m).registry.refs object)
    (dead : (run (earlier ++ later) : SharedTable n m).registry.refs object = 0) :
    (run (earlier ++ later) : SharedTable n m).registry.Spent object := by
  have evolves := run_evolves small (run earlier : SharedTable n m) later
  rw [run, run_append] at dead ⊢
  refine (evolves.live object live).resolve_left fun alive => ?_
  rw [run, dead] at alive
  exact absurd alive (Nat.lt_irrefl 0)

/-- No handle value and no object identity is ever used twice. A handle resolves
to the object it was issued for until it is taken back, provided that object
still exists, and to nothing else ever. An identity without references is never
valid and never given out again. -/
theorem handles_never_reused (small : n ≤ 2 ^ 32) (smallRegistry : m ≤ 2 ^ 32) :
    (∀ actions, let state : SharedTable n m := run actions
      let past : History n m := history actions
      ((issued past).map (·.1)).Nodup ∧ (created past).Nodup ∧
      ∀ handle object, (handle, object) ∈ issued past → ∀ other,
        state.table.resolve state.registry handle = .ok other ↔
          handle ∉ takenBack past ∧ other = object ∧ state.registry.validate object object.kind = .ok ()) ∧
    ∀ earlier later object, 0 < (run earlier : SharedTable n m).registry.refs object →
      (run (earlier ++ later) : SharedTable n m).registry.refs object = 0 →
      ∀ more, let after : SharedTable n m := run (earlier ++ later ++ more)
        after.registry.validate object object.kind ≠ .ok () ∧
        ∀ kind next, after.registry.create kind ≠ .ok (object, next) := by
  constructor
  · intro actions state past
    have genuine : Genuine state.table (issued past) (takenBack past) := run_genuine small actions
    have accounted : Accounted state.registry (created past) := run_accounted smallRegistry actions
    refine ⟨genuine.distinct, accounted.distinct, fun handle object member other => ?_⟩
    rw [resolve_eq_ok, validate_iff]
    constructor
    · rintro ⟨capability, found, rfl⟩
      obtain ⟨i, named, present, live⟩ := entry_eq_ok.mp found
      have kept : handle ∉ takenBack past := by
        intro gone
        obtain ⟨j, place, old⟩ := genuine.stale handle gone
        obtain ⟨place', generation⟩ := slot_eq_ok.mp named
        obtain rfl : i = j := Fin.ext (place'.symm.trans place)
        omega
      obtain ⟨j, held, named', present', same⟩ := genuine.live handle object member kept
      rw [named] at named'
      cases named'
      rw [present] at present'
      cases present'
      subst same
      exact ⟨kept, rfl, live⟩
    · rintro ⟨kept, rfl, live⟩
      obtain ⟨i, held, named, present, same⟩ := genuine.live handle other member kept
      subst same
      exact ⟨held, entry_eq_ok.mpr ⟨i, named, present, live⟩, rfl⟩
  · intro earlier later object live dead more after
    have spent : after.registry.Spent object := by
      have evolves := run_evolves smallRegistry (run (earlier ++ later) : SharedTable n m) more
      have gone := evolves.spent object (spent_of_released smallRegistry live dead)
      rw [run, ← run_append] at gone
      exact gone
    refine ⟨fun valid => ?_, fun kind next made => ?_⟩
    · have alive := validate_iff.mp valid
      rw [spent.refs] at alive
      exact absurd alive (Nat.lt_irrefl 0)
    · exact (create_spec smallRegistry made).2.2.1 spent

/-- Close a handle and use its slot again. -/
def reuseSlot : List Action :=
  [.create .event, .insert ⟨0, 1, .event⟩ .read, .close (.new 0 1), .insert ⟨0, 1, .event⟩ .read]

theorem handles_never_reused_one :
    (∀ other, (run reuseSlot : SharedTable 1 1).table.resolve (run reuseSlot : SharedTable 1 1).registry
      (.new 0 1) ≠ .ok other) ∧
    (run reuseSlot : SharedTable 1 1).table.resolve (run reuseSlot : SharedTable 1 1).registry (.new 0 2) =
      .ok ⟨0, 1, .event⟩ := by
  have facts := (handles_never_reused (n := 1) (m := 1) (by decide) (by decide)).1 reuseSlot
  refine ⟨fun other resolved => ?_, ?_⟩
  · exact ((facts.2.2 (.new 0 1) ⟨0, 1, .event⟩ (by decide +kernel) other).mp resolved).1 (by decide +kernel)
  · exact (facts.2.2 (.new 0 2) ⟨0, 1, .event⟩ (by decide +kernel) _).mpr
      ⟨by decide +kernel, rfl, by decide +kernel⟩

end SharedTable
end Nagi.Kernel
