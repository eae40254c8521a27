import Nagi.Kernel.Vmo.AddressSpace

/-! Processes that map memory objects into their address spaces.

The processes share one registry. Their handles come and go while mappings are
made, narrowed and removed. -/

namespace Nagi.Kernel

open Lib HandleTable ObjectRegistry Function AddressSpace List

/-- `p` processes with tables of `n` handles, `s` address spaces, and a registry of `m` slots. -/
structure SharedMemory (p s n m : Nat) where
  registry : ObjectRegistry m
  processes : Fin p → Process n
  spaces : Fin s → AddressSpace
  /-- Capabilities taken out of a table and not installed yet. -/
  tokens : List TransferToken
  /-- The references that `create` has given to its callers and that they still hold. -/
  creators : List ObjectId

namespace SharedMemory

inductive Action (p s : Nat) where
  | mapVmo (process : Fin p) (space : Fin s) (handle : Handle) (vmo : Vmo) (request : MappingRequest)
  | unmapVmo (process : Fin p) (space : Fin s) (handle : Handle) (virtualStart : Nat)
  | protectVmo (process : Fin p) (space : Fin s) (handle : Handle) (virtualStart : Nat) (rights : Rights)
  | insert (process : Fin p) (object : ObjectId) (rights : Rights)
  | close (process : Fin p) (handle : Handle)
  | closeAll (process : Fin p)
  | beginMove (process : Fin p) (handle : Handle) (requested : Rights)
  | installToken (process : Fin p) (token : TransferToken)
  | rollbackInstall (process : Fin p) (handle : Handle)
  | create (kind : ObjectKind)
  /-- A creator gives its reference back. -/
  | release (object : ObjectId)

def Action.onMappings {p s : Nat} : Action p s → Bool
  | .mapVmo .. | .unmapVmo .. | .protectVmo .. => true
  | _ => false

inductive Refusal where
  | vmo (error : VmoError)
  | handle (error : HandleError)
  /-- The caller does not hold the token or the reference it names. -/
  | notHeld

variable {p s n m : Nat} (homes : Fin p → ObjectId) (objects : Fin s → ObjectId)

/-- Nothing is created yet; the identities that the processes and the address spaces are made with are arbitrary. -/
def start : SharedMemory p s n m where
  registry := .new
  processes i := .new i.val (homes i)
  spaces i := .new (objects i)
  tokens := []
  creators := []

variable (state : SharedMemory p s n m)

def setHandles (i : Fin p) (handles : HandleTable n) : SharedMemory p s n m :=
  { state with processes := update state.processes i { state.processes i with handles } }

def setSpace (i : Fin s) (space : AddressSpace) : SharedMemory p s n m :=
  { state with spaces := update state.spaces i space }

def step : Action p s → Except Refusal Unit × SharedMemory p s n m
  | .mapVmo process space handle vmo request =>
    match (state.processes process).mapVmo state.registry (state.spaces space) handle vmo request with
    | .error error => (.error (.vmo error), state)
    | .ok (next, registry) => (.ok (), { state.setSpace space next with registry })
  | .unmapVmo process space handle virtualStart =>
    match (state.processes process).unmapVmo state.registry (state.spaces space) handle virtualStart with
    | (result, next, registry) =>
      ((result.mapError .vmo).map fun _ => (), { state.setSpace space next with registry })
  | .protectVmo process space handle virtualStart rights =>
    match (state.processes process).protectVmo state.registry (state.spaces space) handle virtualStart rights with
    | .error error => (.error (.vmo error), state)
    | .ok next => (.ok (), state.setSpace space next)
  | .insert process object rights =>
    match (state.processes process).handles.insert state.registry object rights with
    | (result, table, registry) =>
      ((result.mapError .handle).map fun _ => (), { state.setHandles process table with registry })
  | .close process handle =>
    match (state.processes process).handles.close state.registry handle with
    | .error error => (.error (.handle error), state)
    | .ok (table, registry) => (.ok (), { state.setHandles process table with registry })
  | .closeAll process =>
    match (state.processes process).handles.closeAll state.registry with
    | (table, registry) => (.ok (), { state.setHandles process table with registry })
  | .beginMove process handle requested =>
    match (state.processes process).handles.beginMove state.registry handle requested with
    | .error error => (.error (.handle error), state)
    | .ok (token, table) => (.ok (), { state.setHandles process table with tokens := token :: state.tokens })
  | .installToken process token =>
    if token ∈ state.tokens then
      match (state.processes process).handles.installToken state.registry (some token) with
      | .error error => (.error (.handle error), state)
      | .ok (_, table) => (.ok (), { state.setHandles process table with tokens := state.tokens.erase token })
    else (.error .notHeld, state)
  | .rollbackInstall process handle =>
    match (state.processes process).handles.rollbackInstall handle with
    | none => (.ok (), state)
    | some (token, table) => (.ok (), { state.setHandles process table with tokens := token :: state.tokens })
  | .create kind =>
    match state.registry.create kind with
    | .error error => (.error (.handle error), state)
    | .ok (object, registry) => (.ok (), { state with registry, creators := object :: state.creators })
  | .release object =>
    if object ∈ state.creators then
      match state.registry.release object with
      | .error error => (.error (.handle error), state)
      | .ok registry => (.ok (), { state with registry, creators := state.creators.erase object })
    else (.error .notHeld, state)

abbrev History (p s n m : Nat) := List (Lib.Event (SharedMemory p s n m) (Action p s) (Except Refusal Unit))

def run (homes : Fin p → ObjectId) (objects : Fin s → ObjectId) (actions : List (Action p s)) :
    SharedMemory p s n m := Runs.run step (start homes objects) actions

def history (actions : List (Action p s)) : History p s n m := Runs.trace step (start homes objects) actions

theorem setSpace_same (i : Fin s) : state.setSpace i (state.spaces i) = state := by
  rw [setSpace, update_eq_self]

inductive Effect (before after : SharedMemory p s n m) : Action p s → Except Refusal Unit → Prop where
  | same {action : Action p s} {result : Except Refusal Unit} (unchanged : after.spaces = before.spaces) :
      Effect before after action result
  | mapped {process : Fin p} {space : Fin s} {handle : Handle} {vmo : Vmo} {request : MappingRequest}
      {capability : Capability} {i : Fin maxMappings}
      (found : (before.processes process).handles.entry before.registry handle = .ok capability)
      (named : capability.object = vmo.object)
      (mapped : (before.spaces space).Mapped before.registry after.registry vmo capability.rights request i)
      (spaces : after.spaces =
        update before.spaces space ((before.spaces space).put i (some (request.mapping vmo)))) :
      Effect before after (.mapVmo process space handle vmo request) (.ok ())
  | unmapped {action : Action p s} {result : Except Refusal Unit} {space : Fin s} {i : Fin maxMappings}
      {mapping : Mapping} (held : (before.spaces space).mappings i = some mapping)
      (spaces : after.spaces = update before.spaces space ((before.spaces space).put i none)) :
      Effect before after action result
  | narrowed {action : Action p s} {result : Except Refusal Unit} {space : Fin s} {i : Fin maxMappings}
      {mapping : Mapping} {rights : Rights} (held : (before.spaces space).mappings i = some mapping)
      (allowed : rights.isSubsetOf mapping.maxRights = true)
      (spaces : after.spaces = update before.spaces space
        ((before.spaces space).put i (some { mapping with rights, maxRights := rights }))) :
      Effect before after action result

theorem step_effect (action : Action p s) : Effect state (state.step action).2 action (state.step action).1 := by
  fun_cases state.step action with
  | case2 process space handle vmo request next registry done =>
    obtain ⟨_, _, found, named, mapped, same⟩ := Process.mapVmo_spec done
    exact .mapped found named mapped (congrArg (update state.spaces space) same)
  | case3 process space handle virtualStart result next registry done =>
    obtain ⟨_, same⟩ | ⟨_, _, _, same, held, _⟩ :=
      (state.processes process).unmapVmo_spec state.registry (state.spaces space) handle virtualStart
    · cases done.symm.trans same
      exact .same (update_eq_self space state.spaces)
    · cases done.symm.trans same
      exact .unmapped held rfl
  | case5 process space handle virtualStart rights next done =>
    obtain ⟨_, _, held, allowed, same⟩ := AddressSpace.protect_spec (Process.protectVmo_spec done)
    exact .narrowed held allowed (congrArg (update state.spaces space) same)
  | _ => exact .same rfl

def Placed : Prop := ∀ space, (state.spaces space).Sound

theorem sound_update {spaces : Fin s → AddressSpace} (sound : ∀ space, (spaces space).Sound) (here : Fin s)
    {next : AddressSpace} (kept : next.Sound) (space : Fin s) : (update spaces here next space).Sound :=
  (forall_update_iff _ fun _ space => AddressSpace.Sound space).mpr ⟨kept, fun space _ => sound space⟩ space

variable {before after : SharedMemory p s n m}

theorem Effect.placed {action : Action p s} {result : Except Refusal Unit}
    (effect : Effect before after action result) (placed : before.Placed) : after.Placed := by
  unfold Placed
  cases effect with
  | same unchanged =>
    rw [unchanged]
    exact placed
  | @mapped _ space _ _ _ _ _ _ _ mapped spaces =>
    rw [spaces]
    exact sound_update placed space (mapped.sound (placed space))
  | @unmapped _ _ space i _ _ spaces =>
    rw [spaces]
    exact sound_update placed space ((placed space).put_none i)
  | @narrowed _ _ space i mapping rights held _ spaces =>
    rw [spaces]
    -- The new mapping lies where the old one did.
    have place := (placed space).placed i mapping held
    refine sound_update placed space ((placed space).put_some ⟨place.start_pos, place.start_page,
      place.offset_page, place.length_pos, place.length_page, place.end_le⟩ fun j other different occupied => ?_)
    exact (placed space).apart i j mapping other different.symm held occupied

/-- The event has made a mapping of the same window, from a handle that allowed at least as much. -/
def Creates (event : Lib.Event (SharedMemory p s n m) (Action p s) (Except Refusal Unit)) (space : Fin s)
    (i : Fin maxMappings) (mapping : Mapping) : Prop :=
  ∃ process handle vmo request capability,
    event.action = .mapVmo process space handle vmo request ∧ event.result = .ok () ∧
      (event.before.spaces space).mappings i = none ∧
      (event.after.spaces space).mappings i = some (request.mapping vmo) ∧
      (event.before.processes process).handles.entry event.before.registry handle = .ok capability ∧
      capability.object = mapping.vmoObject ∧ vmo.object = mapping.vmoObject ∧
      mapping.virtualStart = request.virtualStart ∧ mapping.offset = request.offset ∧
      mapping.length = request.length ∧ mapping.offset + mapping.length ≤ vmo.size ∧
      request.rights.isSubsetOf capability.rights = true ∧ mapping.rights.isSubsetOf request.rights = true

/-- The mapping in a slot was made by one call, and the slot has been in use ever since. -/
def Stems (past : History p s n m) (space : Fin s) (i : Fin maxMappings) (mapping : Mapping) : Prop :=
  ∃ earlier event later, past = earlier ++ event :: later ∧ Creates event space i mapping ∧
    ∀ other ∈ later, ((other.after.spaces space).mappings i).isSome = true

/-- From one state to the next, a mapping that stays keeps its window and gains no right. -/
def Narrows (before after : SharedMemory p s n m) : Prop :=
  ∀ space i old new, (before.spaces space).mappings i = some old → (after.spaces space).mappings i = some new →
    new.vmoObject = old.vmoObject ∧ new.virtualStart = old.virtualStart ∧ new.offset = old.offset ∧
      new.length = old.length ∧ new.rights.isSubsetOf old.rights = true

def Tight : Prop :=
  ∀ space i mapping, (state.spaces space).mappings i = some mapping → mapping.maxRights = mapping.rights

structure Granted (past : History p s n m) : Prop where
  tight : state.Tight
  stems : ∀ space i mapping, (state.spaces space).mappings i = some mapping → Stems past space i mapping

theorem put_cases {here : Fin s} {i : Fin maxMappings} {slot : Option Mapping}
    (spaces : after.spaces = update before.spaces here ((before.spaces here).put i slot)) (space : Fin s)
    (j : Fin maxMappings) :
    (space = here ∧ j = i ∧ (after.spaces space).mappings j = slot) ∨
      (after.spaces space).mappings j = (before.spaces space).mappings j := by
  rw [spaces]
  by_cases same : space = here
  · subst same
    rw [update_self]
    by_cases index : j = i
    · subst index
      exact .inl ⟨rfl, rfl, put_same ..⟩
    · exact .inr (put_other _ _ index)
  · rw [update_of_ne same]
    exact .inr rfl

variable {past : History p s n m} {space : Fin s} {i : Fin maxMappings} {mapping : Mapping}

theorem Stems.later {narrower : Mapping} (stems : Stems past space i mapping)
    (same : narrower.vmoObject = mapping.vmoObject ∧ narrower.virtualStart = mapping.virtualStart ∧
      narrower.offset = mapping.offset ∧ narrower.length = mapping.length ∧
      narrower.rights.isSubsetOf mapping.rights = true)
    (event : Lib.Event (SharedMemory p s n m) (Action p s) (Except Refusal Unit))
    (used : ((event.after.spaces space).mappings i).isSome = true) : Stems (past ++ [event]) space i narrower := by
  obtain ⟨object, start, offset, length, rights⟩ := same
  obtain ⟨earlier, first, later, rfl, ⟨process, handle, vmo, request, capability, action, result, free, made, found,
    named, sized, atStart, atOffset, ofLength, inside, allowed, narrow⟩, since⟩ := stems
  refine ⟨earlier, first, later ++ [event], by simp, ⟨process, handle, vmo, request, capability, action, result, free,
    made, found, named.trans object.symm, sized.trans object.symm, start.trans atStart, offset.trans atOffset,
    length.trans ofLength, by rw [offset, length]; exact inside, allowed, Rights.contains_trans narrow rights⟩, ?_⟩
  intro other member
  rcases mem_append.mp member with before | here
  · exact since other before
  · rw [mem_singleton.mp here]
    exact used

inductive SlotChange (event : Lib.Event (SharedMemory p s n m) (Action p s) (Except Refusal Unit)) (space : Fin s)
    (i : Fin maxMappings) : Prop where
  | same (kept : (event.after.spaces space).mappings i = (event.before.spaces space).mappings i)
  | made {mapping : Mapping} (free : (event.before.spaces space).mappings i = none)
      (held : (event.after.spaces space).mappings i = some mapping) (most : mapping.maxRights = mapping.rights)
      (creates : Creates event space i mapping)
  | dropped (free : (event.after.spaces space).mappings i = none)
  | narrowed {old : Mapping} {rights : Rights} (before : (event.before.spaces space).mappings i = some old)
      (allowed : rights.isSubsetOf old.maxRights = true)
      (held : (event.after.spaces space).mappings i = some { old with rights, maxRights := rights })

theorem Effect.slotChange {action : Action p s} {result : Except Refusal Unit}
    (effect : Effect before after action result) (space : Fin s) (i : Fin maxMappings) :
    SlotChange ⟨before, action, result, after⟩ space i := by
  cases effect with
  | same unchanged => exact .same (by rw [unchanged])
  | @mapped process here handle vmo request capability index found named mapped spaces =>
    rcases put_cases spaces space i with ⟨rfl, rfl, slot⟩ | slot
    · refine .made mapped.free slot rfl ?_
      exact ⟨process, handle, vmo, request, capability, rfl, rfl, mapped.free, slot, found, named, rfl, rfl, rfl, rfl,
        mapped.inside, mapped.allowed, Rights.contains_self _⟩
    · exact .same slot
  | unmapped held spaces =>
    rcases put_cases spaces space i with ⟨rfl, rfl, slot⟩ | slot
    · exact .dropped slot
    · exact .same slot
  | narrowed held allowed spaces =>
    rcases put_cases spaces space i with ⟨rfl, rfl, slot⟩ | slot
    · exact .narrowed held allowed slot
    · exact .same slot

variable {state}

theorem tight_step (tight : state.Tight) (action : Action p s) : (state.step action).2.Tight := by
  intro space i mapping held
  cases (step_effect state action).slotChange space i with
  | same kept => exact tight space i mapping (kept ▸ held)
  | made _ made most =>
    cases Option.some.inj (made.symm.trans held)
    exact most
  | dropped free => cases free.symm.trans held
  | narrowed _ _ narrowed =>
    cases Option.some.inj (narrowed.symm.trans held)
    rfl

theorem tight_start : Tight (start homes objects : SharedMemory p s n m) := by
  intro space i mapping held
  cases held

theorem Granted.step (granted : Granted state past) (action : Action p s) :
    Granted (state.step action).2 (past ++ [Runs.event step state action]) := by
  refine ⟨tight_step granted.tight action, ?_⟩
  intro space i mapping held
  have used : (((Runs.event SharedMemory.step state action).after.spaces space).mappings i).isSome = true :=
    Option.isSome_iff_exists.mpr ⟨mapping, held⟩
  cases (step_effect state action).slotChange space i with
  | same kept =>
    have stems := granted.stems space i mapping (kept ▸ held)
    exact stems.later ⟨rfl, rfl, rfl, rfl, Rights.contains_self _⟩ _ used
  | made _ made _ creates =>
    cases Option.some.inj (made.symm.trans held)
    exact ⟨past, _, [], rfl, creates, by simp⟩
  | dropped free => cases free.symm.trans held
  | @narrowed old rights before allowed narrowed =>
    cases Option.some.inj (narrowed.symm.trans held)
    rw [granted.tight space i old before] at allowed
    refine (granted.stems space i old before).later ?_ _ used
    exact ⟨rfl, rfl, rfl, rfl, allowed⟩

theorem narrows (tight : state.Tight) (action : Action p s) : Narrows state (state.step action).2 := by
  intro space i old new before after
  cases (step_effect state action).slotChange space i with
  | same kept =>
    cases Option.some.inj (before.symm.trans (kept.symm.trans after))
    exact ⟨rfl, rfl, rfl, rfl, Rights.contains_self _⟩
  | made free => cases free.symm.trans before
  | dropped free => cases free.symm.trans after
  | narrowed held allowed narrowed =>
    cases Option.some.inj (held.symm.trans before)
    cases Option.some.inj (narrowed.symm.trans after)
    rw [tight space i old before] at allowed
    exact ⟨rfl, rfl, rfl, rfl, allowed⟩

def handleCount (state : SharedMemory p s n m) (object : ObjectId) : Nat :=
  ∑ i, (state.processes i).handles.objects.count object

def transitCount (state : SharedMemory p s n m) (object : ObjectId) : Nat :=
  state.tokens.countP fun token => object = token.capability.object

def mappingCount (state : SharedMemory p s n m) (object : ObjectId) : Nat :=
  ∑ i, (state.spaces i).mappingsOf object

def Balanced (state : SharedMemory p s n m) : Prop :=
  ∀ object, state.registry.refs object =
    state.handleCount object + state.transitCount object + state.creators.count object + state.mappingCount object

theorem objects_closeAll (table : HandleTable n) (registry : ObjectRegistry m) :
    (table.closeAll registry).1.objects = [] := by
  unfold objects
  rw [filterMap_eq_nil_iff]
  intro i _
  rw [closeAll_slots]
  split
  · rfl
  · next free => simpa using free

theorem transitCount_cons (state : SharedMemory p s n m) (token : TransferToken) (object : ObjectId) :
    (token :: state.tokens).countP (fun token => object = token.capability.object) =
      state.transitCount object + if object = token.capability.object then 1 else 0 := by
  rw [countP_cons]
  simp only [decide_eq_true_eq]
  rfl

theorem transitCount_erase {token : TransferToken} (held : token ∈ state.tokens) (object : ObjectId) :
    (state.tokens.erase token).countP (fun token => object = token.capability.object) +
      (if object = token.capability.object then 1 else 0) = state.transitCount object := by
  have split := (perm_cons_erase held).countP_eq fun token => object = token.capability.object
  rw [countP_cons] at split
  simp only [decide_eq_true_eq] at split
  exact split.symm

theorem count_erase_add {object : ObjectId} {creators : List ObjectId} (held : object ∈ creators) (other : ObjectId) :
    (creators.erase object).count other + (if other = object then 1 else 0) = creators.count other := by
  have split := (perm_cons_erase held).count_eq other
  rw [count_cons] at split
  simp only [beq_iff_eq, @eq_comm _ object] at split
  exact split.symm

theorem balanced_start : Balanced (start homes objects : SharedMemory p s n m) := by
  intro object
  have handles : (start homes objects : SharedMemory p s n m).handleCount object = 0 :=
    Finset.sum_eq_zero fun i _ => by
      rw [count_objects]
      exact Finset.sum_eq_zero fun _ _ => rfl
  have mappings : (start homes objects : SharedMemory p s n m).mappingCount object = 0 :=
    Finset.sum_eq_zero fun i _ => by
      exact countP_eq_zero.mpr fun _ _ => by simp [start, AddressSpace.new]
  rw [handles, mappings]
  exact refs_new object

/-- The table that a capability leaves counts it no more; the registry may still count it elsewhere. -/
theorem Balanced.handle_le (balanced : state.Balanced) (i : Fin p) (object : ObjectId) :
    (state.processes i).handles.objects.count object ≤ state.registry.refs object := by
  have counted := Table.le_sum (fun i => (state.processes i).handles.objects.count object) i
  have total := balanced object
  unfold handleCount at total
  omega

theorem Balanced.mapping_pos (balanced : state.Balanced) (held : (state.spaces space).mappings i = some mapping) :
    0 < state.registry.refs mapping.vmoObject := by
  have total := balanced mapping.vmoObject
  have counted := Table.le_sum (fun i => (state.spaces i).mappingsOf mapping.vmoObject) space
  have here : 0 < (state.spaces space).mappingsOf mapping.vmoObject :=
    countP_pos_iff.mpr ⟨i, mem_finRange i, by simp [held]⟩
  unfold mappingCount at total
  omega

section
variable (balanced : state.Balanced) {registry : ObjectRegistry m}
include balanced

theorem Balanced.handles {i : Fin p} {table : HandleTable n} (registry : ObjectRegistry m) (tokens : List TransferToken)
    (moved : ∀ object, registry.refs object + state.transitCount object +
        (state.processes i).handles.objects.count object =
      state.registry.refs object + tokens.countP (fun token => object = token.capability.object) +
        table.objects.count object) :
    Balanced { state.setHandles i table with registry, tokens } := by
  intro object
  have total := balanced object
  have moved := moved object
  have change : (state.setHandles i table).handleCount object + _ =
      state.handleCount object + table.objects.count object :=
    Table.sum_update state.processes (·.handles.objects.count object) i { state.processes i with handles := table }
  change registry.refs object = (state.setHandles i table).handleCount object +
    tokens.countP (fun token => object = token.capability.object) + state.creators.count object +
    state.mappingCount object
  omega

theorem Balanced.window {space : Fin s} {i : Fin maxMappings} {slot : Option Mapping}
    (moved : ∀ object, registry.refs object + weight object ((state.spaces space).mappings i) =
      state.registry.refs object + weight object slot) :
    Balanced { state.setSpace space ((state.spaces space).put i slot) with registry } := by
  intro object
  have total := balanced object
  have moved := moved object
  have change : (state.setSpace space _).mappingCount object + _ = state.mappingCount object + _ :=
    Table.sum_update state.spaces (·.mappingsOf object) space ((state.spaces space).put i slot)
  have put := (state.spaces space).mappingsOf_put i slot object
  change registry.refs object = state.handleCount object + state.transitCount object + state.creators.count object +
    (state.setSpace space ((state.spaces space).put i slot)).mappingCount object
  omega

theorem Balanced.creator {creators : List ObjectId}
    (moved : ∀ object, registry.refs object + state.creators.count object =
      state.registry.refs object + creators.count object) : Balanced { state with registry, creators } := by
  intro object
  have total := balanced object
  have moved := moved object
  change registry.refs object = state.handleCount object + state.transitCount object + creators.count object +
    state.mappingCount object
  omega

end

theorem balanced_step (small : m ≤ 2 ^ 32) (balanced : state.Balanced) (action : Action p s) :
    (state.step action).2.Balanced := by
  fun_cases state.step action with
  | case2 process space handle vmo request next registry done =>
    obtain ⟨_, i, _, _, mapped, rfl⟩ := Process.mapVmo_spec done
    refine balanced.window fun object => ?_
    rw [mapped.free, weight_none, weight_some, (retain_spec mapped.retained).2.1]
    rfl
  | case3 process space handle virtualStart result next registry done =>
    obtain ⟨_, same⟩ | ⟨i, mapping, after, same, held, released⟩ :=
      (state.processes process).unmapVmo_spec state.registry (state.spaces space) handle virtualStart
    · cases done.symm.trans same
      rw [setSpace_same]
      exact balanced
    · cases done.symm.trans same
      refine balanced.window fun object => ?_
      rw [held, weight_none, weight_some, (release_counts released).1]
      rfl
  | case5 process space handle virtualStart rights next done =>
    obtain ⟨i, mapping, held, _, rfl⟩ := AddressSpace.protect_spec (Process.protectVmo_spec done)
    refine balanced.window fun object => ?_
    rw [held, weight_some, weight_some]
  | case6 process object rights result table registry done =>
    obtain ⟨_, _, same, counts, _⟩ | ⟨_, _, _, i, same, filled, _, counts, _⟩ :=
      (state.processes process).handles.insert_spec state.registry object rights
    · cases done.symm.trans same
      exact balanced.handles _ state.tokens fun other => by rw [counts]; rfl
    · cases done.symm.trans same
      refine balanced.handles _ state.tokens fun other => ?_
      have counts := counts other
      have gained := filled.count other
      dsimp only at gained
      unfold transitCount
      omega
  | case8 process handle table registry done =>
    obtain ⟨i, capability, _, emptied, released⟩ := close_spec done
    refine balanced.handles _ state.tokens fun object => ?_
    have counts := (release_counts released).1 object
    have lost := emptied.count object
    unfold transitCount
    omega
  | case9 process table registry done =>
    -- every handle of the table is counted, so each of the releases gives one reference back
    obtain ⟨after, released, counts, _⟩ := releaseAll_spec (state.processes process).handles.objects
      state.registry (balanced.handle_le process)
    have all : ((state.processes process).handles.closeAll state.registry).2 = after := by
      rw [closeAll_registry, ← releaseAll_snd, released]
    have empty := objects_closeAll (state.processes process).handles state.registry
    rw [done] at all empty
    cases all
    refine balanced.handles _ state.tokens fun object => ?_
    have counts := counts object
    dsimp only at counts
    rw [empty, count_nil]
    unfold transitCount
    omega
  | case11 process handle requested token table done =>
    obtain ⟨i, capability, _, moved, _, _, emptied⟩ := beginMove_of_check (check_of_beginMove done)
    cases done.symm.trans moved
    refine balanced.handles state.registry _ fun object => ?_
    have lost := emptied.count object
    have sent := transitCount_cons state ⟨⟨capability.object, requested⟩⟩ object
    dsimp only at sent
    omega
  | case13 process token held _ table done =>
    obtain ⟨carried, same, installed⟩ := installToken_spec done
    cases same
    obtain ⟨i, filled, _⟩ := installCapability_spec installed
    refine balanced.handles state.registry _ fun object => ?_
    have gained := filled.count object
    have received := transitCount_erase held object
    dsimp only at gained
    omega
  | case16 process handle token table done =>
    obtain ⟨i, _, emptied⟩ := rollbackInstall_spec done
    refine balanced.handles state.registry _ fun object => ?_
    have lost := emptied.count object
    have sent := transitCount_cons state token object
    omega
  | case18 kind object registry done =>
    obtain ⟨_, _, _, counts, _⟩ := create_spec small done
    refine balanced.creator fun other => ?_
    rw [counts, count_cons]
    simp only [beq_iff_eq, @eq_comm _ object]
    omega
  | case20 object held registry done =>
    refine balanced.creator fun other => ?_
    have counts := (release_counts done).1 other
    have given := count_erase_add held other
    omega
  | _ => exact balanced

theorem failed_unchanged (state : SharedMemory p s n m) (action : Action p s) (mapping : action.onMappings = true)
    {refusal : Refusal} (failed : (state.step action).1 = .error refusal) : (state.step action).2 = state := by
  revert failed
  fun_cases state.step action with
  | case1 | case4 => exact fun _ => rfl
  | case2 | case5 => rintro ⟨⟩
  | case3 process space handle virtualStart result next registry done =>
    obtain ⟨_, same⟩ | ⟨_, _, _, same, _⟩ :=
      (state.processes process).unmapVmo_spec state.registry (state.spaces space) handle virtualStart
    · cases done.symm.trans same
      exact fun _ => setSpace_same state space
    · cases done.symm.trans same
      rintro ⟨⟩
  | _ => cases mapping

structure Accounted (state : SharedMemory p s n m) (past : History p s n m) : Prop where
  placed : state.Placed
  granted : Granted state past
  balanced : state.Balanced

theorem accounted (small : m ≤ 2 ^ 32) (homes : Fin p → ObjectId) (objects : Fin s → ObjectId)
    (actions : List (Action p s)) :
    Accounted (run homes objects actions : SharedMemory p s n m) (history homes objects actions) := by
  refine Runs.trace_invariant (P := Accounted) (fun state past action held => ?_) ?_ actions
  · exact ⟨(step_effect state action).placed held.placed, held.granted.step action,
      balanced_step small held.balanced action⟩
  · refine ⟨fun space => ⟨nofun, nofun⟩, ⟨tight_start homes objects, fun space i mapping held => ?_⟩,
      balanced_start homes objects⟩
    cases held

theorem Accounted.valid (accounted : Accounted state past) (held : (state.spaces space).mappings i = some mapping) :
    state.registry.validate mapping.vmoObject .vmo = .ok () := by
  have live := validate_iff.mpr (accounted.balanced.mapping_pos held)
  obtain ⟨_, event, _, _, ⟨_, _, vmo, _, _, _, _, _, _, _, _, named, _⟩, _⟩ :=
    accounted.granted.stems space i mapping held
  rwa [← named, vmo.isVmo, named] at live

/-- In every run of the processes, mappings are apart, aligned and in the user half, each stems from one call and
lies in the object given there with rights the handle had, no event widens one, the registry counts handles,
tokens, creators and mappings, so that what is mapped is live, and a failed call on mappings changes nothing. -/
theorem mappings_accounted (small : m ≤ 2 ^ 32) (homes : Fin p → ObjectId) (objects : Fin s → ObjectId)
    (actions : List (Action p s)) :
    let state : SharedMemory p s n m := run homes objects actions
    let past : History p s n m := history homes objects actions
    (∀ space, (state.spaces space).Sound) ∧
      (∀ space i mapping, (state.spaces space).mappings i = some mapping → Stems past space i mapping) ∧
      (∀ event ∈ past, Narrows event.before event.after) ∧
      (∀ object, state.registry.refs object = state.handleCount object + state.transitCount object +
        state.creators.count object + state.mappingCount object) ∧
      (∀ space i mapping, (state.spaces space).mappings i = some mapping →
        state.registry.validate mapping.vmoObject .vmo = .ok ()) ∧
      ∀ event ∈ past, event.action.onMappings = true → ∀ refusal, event.result = .error refusal →
        event.after = event.before := by
  have holds := accounted (n := n) small homes objects actions
  refine ⟨holds.placed, holds.granted.stems, ?_, holds.balanced, fun space i mapping => holds.valid, ?_⟩
  · exact Runs.forall_event (I := Tight) (fun _ action tight => tight_step tight action)
      (fun _ action tight => narrows tight action) (tight_start homes objects) actions
  · exact Runs.forall_event (I := fun _ => True) (fun _ _ _ => trivial)
      (fun state action _ mapping refusal failed => failed_unchanged state action mapping failed) trivial actions

def onePage : Vmo := ⟨⟨1, 1, .vmo⟩, .anonymous, pageSize, rfl, by decide, by decide, by decide⟩

def mapAndLeave : List (Action 1 1) :=
  [.create .addressSpace, .create .vmo, .insert 0 ⟨1, 1, .vmo⟩ (.map ||| .read),
    .mapVmo 0 0 (.new 0 1) onePage ⟨0x200000, 0, pageSize, .read⟩, .closeAll 0, .release ⟨1, 1, .vmo⟩]

def home : ObjectId := ⟨0, 1, .addressSpace⟩

def leftMapped : SharedMemory 1 1 1 2 := run (fun _ => home) (fun _ => home) mapAndLeave

theorem mapping_outlives_handles :
    2 ≤ 2 ^ 32 ∧ leftMapped.handleCount onePage.object = 0 ∧ leftMapped.creators.count onePage.object = 0 ∧
      leftMapped.registry.validate onePage.object .vmo = .ok () := by
  have small : 2 ≤ 2 ^ 32 := by decide
  refine ⟨small, by decide +kernel, by decide +kernel, ?_⟩
  have valid := (mappings_accounted (n := 1) small (fun _ => home) (fun _ => home) mapAndLeave).2.2.2.2.1
  exact valid 0 ⟨0, by decide⟩ (MappingRequest.mapping ⟨0x200000, 0, pageSize, .read⟩ onePage) (by decide +kernel)

end SharedMemory
end Nagi.Kernel
