import Mathlib.Data.BitVec
import Nagi.Lib.Table

/-! Rights, object identities and the generation-checked object registry of
`kernel/src/handles.rs`.

A slot keeps a generation that grows whenever its object dies; at the last
generation the slot is retired instead. -/

namespace Nagi.Kernel

open Function Nat

def u32Max : Nat := 2 ^ 32 - 1

theorem one_le_u32Max : 1 ≤ u32Max := by decide

structure Rights where
  bits : BitVec 32
  deriving DecidableEq

namespace Rights

def read : Rights := ⟨1#32 <<< 0⟩
def write : Rights := ⟨1#32 <<< 1⟩
def map : Rights := ⟨1#32 <<< 2⟩
def transfer : Rights := ⟨1#32 <<< 3⟩
def control : Rights := ⟨1#32 <<< 4⟩
def duplicate : Rights := ⟨1#32 <<< 5⟩
def wait : Rights := ⟨1#32 <<< 6⟩
def signal : Rights := ⟨1#32 <<< 7⟩
def execute : Rights := ⟨1#32 <<< 8⟩

instance : OrOp Rights := ⟨fun left right => ⟨left.bits ||| right.bits⟩⟩

def known : Rights :=
  read ||| write ||| map ||| transfer ||| control ||| duplicate ||| wait ||| signal ||| execute

def fromBits (bits : BitVec 32) : Option Rights :=
  if bits &&& ~~~known.bits = 0#32 then some ⟨bits⟩ else none

def contains (rights required : Rights) : Bool := rights.bits &&& required.bits == required.bits

def isSubsetOf (rights available : Rights) : Bool := available.contains rights

@[simp] theorem contains_self (rights : Rights) : rights.contains rights = true := by
  simp [contains]

theorem contains_trans {a b c : Rights} (outer : a.contains b = true) (inner : b.contains c = true) :
    a.contains c = true := by
  simp only [contains, beq_iff_eq] at outer inner ⊢
  rw [← inner, ← BitVec.and_assoc, outer]

end Rights

inductive ObjectKind where
  | process
  | addressSpace
  | vmo
  | channel
  | channelEndpoint
  | event
  | timer
  deriving DecidableEq

structure ObjectId where
  slot : Nat
  generation : Nat
  kind : ObjectKind
  deriving DecidableEq

inductive HandleError where
  | invalid
  | stale
  | closed
  | wrongType
  | rightsMissing
  | tableFull
  | receiverFull
  | generationExhausted
  | objectTableFull
  | objectReferenceOverflow
  deriving DecidableEq

/-- A registry slot. An object is live exactly while it has references. -/
structure ObjectSlot where
  generation : Nat
  kind : Option ObjectKind
  references : Nat
  retired : Bool
  generation_pos : 0 < generation
  generation_le : generation ≤ u32Max
  references_le : references ≤ u32Max
  live_iff : kind.isSome = true ↔ 0 < references

namespace ObjectSlot

def empty : ObjectSlot where
  generation := 1
  kind := none
  references := 0
  retired := false
  generation_pos := Nat.one_pos
  generation_le := one_le_u32Max
  references_le := Nat.zero_le _
  live_iff := by simp

variable (slot : ObjectSlot)

def create (kind : ObjectKind) : ObjectSlot :=
  { slot with
    kind := some kind
    references := 1
    references_le := one_le_u32Max
    live_iff := by simp }

def retain (room : slot.references < u32Max) (live : 0 < slot.references) : ObjectSlot :=
  { slot with
    references := slot.references + 1
    references_le := room
    live_iff := ⟨fun _ => Nat.succ_pos _, fun _ => slot.live_iff.mpr live⟩ }

/-- Drop one reference. The last one frees the slot under the next generation,
or retires it when there is none. -/
def release : ObjectSlot :=
  if last : slot.references - 1 = 0 then
    if exhausted : slot.generation = u32Max then
      { slot with
        kind := none
        references := 0
        retired := true
        references_le := Nat.zero_le _
        live_iff := by simp }
    else
      { slot with
        kind := none
        references := 0
        generation := slot.generation + 1
        generation_pos := Nat.succ_pos _
        generation_le := Nat.lt_of_le_of_ne slot.generation_le exhausted
        references_le := Nat.zero_le _
        live_iff := by simp }
  else
    { slot with
      references := slot.references - 1
      references_le := Nat.le_trans (Nat.sub_le _ _) slot.references_le
      live_iff := ⟨fun _ => Nat.pos_of_ne_zero last, fun _ => slot.live_iff.mpr (by omega)⟩ }

def countFor (generation : Nat) (kind : ObjectKind) : Nat :=
  if slot.generation = generation ∧ slot.kind = some kind then slot.references else 0

def Past (generation : Nat) : Prop :=
  generation < slot.generation ∨
    generation = slot.generation ∧ slot.retired = true ∧ slot.kind = none

variable {slot} {generation : Nat}

theorem Past.countFor (past : slot.Past generation) (kind : ObjectKind) : slot.countFor generation kind = 0 := by
  unfold ObjectSlot.countFor
  rcases past with later | ⟨_, _, freed⟩
  · rw [if_neg (by rintro ⟨same, _⟩; omega)]
  · rw [if_neg (by rintro ⟨_, held⟩; simp [freed] at held)]

theorem release_past (past : slot.Past generation) : slot.release.Past generation := by
  unfold release
  rcases past with later | ⟨same, retired, freed⟩
  · split
    · split
      · exact .inl later
      · exact .inl (lt_succ_of_lt later)
    · exact .inl later
  · have dead : ¬0 < slot.references := fun live => by simpa [freed] using slot.live_iff.mpr live
    rw [dif_pos (by omega)]
    split
    · exact .inr ⟨same, rfl, rfl⟩
    · exact .inl (by simp [same])

theorem release_live {kind : ObjectKind} (present : 0 < slot.countFor generation kind) :
    0 < slot.release.countFor generation kind ∨ slot.release.Past generation := by
  unfold countFor at present
  split at present
  · next current =>
    unfold release
    by_cases last : slot.references - 1 = 0
    · rw [dif_pos last]
      split
      · exact .inr (.inr ⟨current.1.symm, rfl, rfl⟩)
      · exact .inr (.inl (by simp [current.1]))
    · rw [dif_neg last]
      refine .inl ?_
      unfold countFor
      rw [if_pos current]
      exact pos_of_ne_zero last
  · omega

end ObjectSlot

open ObjectSlot

structure ObjectRegistry (n : Nat) where
  slots : Fin n → ObjectSlot

namespace ObjectRegistry
variable {n : Nat}

def new : ObjectRegistry n := ⟨fun _ => .empty⟩

def create (registry : ObjectRegistry n) (kind : ObjectKind) :
    Except HandleError (ObjectId × ObjectRegistry n) :=
  match Fin.find? fun i => (registry.slots i).kind.isNone && !(registry.slots i).retired with
  | none => .error .objectTableFull
  | some i => .ok (⟨i.val % 2 ^ 32, (registry.slots i).generation, kind⟩,
      ⟨update registry.slots i ((registry.slots i).create kind)⟩)

def objectSlot (registry : ObjectRegistry n) (object : ObjectId) : Except HandleError (Fin n) :=
  if object.generation = 0 then .error .invalid
  else if bound : object.slot < n then
    let i : Fin n := ⟨object.slot, bound⟩
    if (registry.slots i).generation ≠ object.generation ∨ (registry.slots i).kind ≠ some object.kind
    then .error .stale
    else .ok i
  else .error .invalid

variable {registry : ObjectRegistry n} {object : ObjectId} {i : Fin n}

theorem objectSlot_eq_ok : registry.objectSlot object = .ok i ↔ object.slot = i.val ∧
      (registry.slots i).generation = object.generation ∧ (registry.slots i).kind = some object.kind := by
  constructor
  · fun_cases registry.objectSlot object with
    | case3 _ _ _ current =>
      intro found
      rw [← Except.ok.inj found]
      exact ⟨rfl, by simpa using current⟩
    | _ => simp
  · rintro ⟨slot, generation, kind⟩
    have positive := (registry.slots i).generation_pos
    have bound : object.slot < n := slot ▸ i.isLt
    have same : (⟨object.slot, bound⟩ : Fin n) = i := Fin.ext slot
    rw [objectSlot, if_neg (by omega), dif_pos bound]
    simp [same, generation, kind]

theorem live_of_objectSlot (found : registry.objectSlot object = .ok i) : 0 < (registry.slots i).references := by
  rw [← (registry.slots i).live_iff, (objectSlot_eq_ok.mp found).2.2]
  rfl

def retain (registry : ObjectRegistry n) (object : ObjectId) :
    Except HandleError (ObjectRegistry n) :=
  match found : registry.objectSlot object with
  | .error error => .error error
  | .ok i =>
    if full : (registry.slots i).references = u32Max then .error .objectReferenceOverflow
    else .ok ⟨update registry.slots i ((registry.slots i).retain
      (lt_of_le_of_ne (registry.slots i).references_le full) (live_of_objectSlot found))⟩

def release (registry : ObjectRegistry n) (object : ObjectId) :
    Except HandleError (ObjectRegistry n) :=
  match registry.objectSlot object with
  | .error error => .error error
  | .ok i =>
    if (registry.slots i).references = 0 then .error .stale
    else .ok ⟨update registry.slots i (registry.slots i).release⟩

/-- `let _ = registry.release(object)`. -/
def discard (registry : ObjectRegistry n) (object : ObjectId) : ObjectRegistry n :=
  match registry.release object with
  | .error _ => registry
  | .ok registry => registry

def validate (registry : ObjectRegistry n) (object : ObjectId) (expected : ObjectKind) :
    Except HandleError Unit :=
  if object.kind ≠ expected then .error .wrongType
  else if bound : object.slot < n then
    let slot := registry.slots ⟨object.slot, bound⟩
    if slot.generation ≠ object.generation ∨ slot.kind ≠ some expected then .error .stale
    else .ok ()
  else .error .invalid

def referenceCount (registry : ObjectRegistry n) (object : ObjectId) : Except HandleError Nat :=
  match registry.objectSlot object with
  | .error error => .error error
  | .ok i => .ok (registry.slots i).references

def refs (registry : ObjectRegistry n) (object : ObjectId) : Nat :=
  match registry.referenceCount object with
  | .ok count => count
  | .error _ => 0

theorem refs_eq (registry : ObjectRegistry n) (object : ObjectId) :
    registry.refs object = if bound : object.slot < n then
      (registry.slots ⟨object.slot, bound⟩).countFor object.generation object.kind else 0 := by
  unfold refs referenceCount
  cases found : registry.objectSlot object with
  | ok i =>
    obtain ⟨slot, generation, kind⟩ := objectSlot_eq_ok.mp found
    have bound : object.slot < n := slot ▸ i.isLt
    have same : (⟨object.slot, bound⟩ : Fin n) = i := Fin.ext slot
    simp [bound, same, countFor, generation, kind]
  | error error =>
    by_cases bound : object.slot < n
    · have rejected : ¬((registry.slots ⟨object.slot, bound⟩).generation = object.generation ∧
          (registry.slots ⟨object.slot, bound⟩).kind = some object.kind) := by
        intro current
        rw [objectSlot_eq_ok (i := ⟨object.slot, bound⟩).mpr ⟨rfl, current⟩] at found
        cases found
      rw [dif_pos bound, countFor, if_neg rejected]
    · rw [dif_neg bound]

@[simp] theorem refs_new (object : ObjectId) : (new : ObjectRegistry n).refs object = 0 := by
  rw [refs_eq]
  split <;> simp [new, empty, countFor]

theorem refs_update (registry : ObjectRegistry n) (i : Fin n) (slot : ObjectSlot) (object : ObjectId) :
    (⟨update registry.slots i slot⟩ : ObjectRegistry n).refs object =
      if object.slot = i.val then slot.countFor object.generation object.kind else registry.refs object := by
  rw [refs_eq, refs_eq]
  by_cases same : object.slot = i.val
  · have bound : object.slot < n := same ▸ i.isLt
    simp [same]
  · by_cases bound : object.slot < n
    · have other : (⟨object.slot, bound⟩ : Fin n) ≠ i := fun index => same (congrArg Fin.val index)
      simp [same, bound, other]
    · simp [same, bound]

theorem refs_pos_iff : 0 < registry.refs object ↔ ∃ i, registry.objectSlot object = .ok i := by
  unfold refs referenceCount
  cases found : registry.objectSlot object with
  | error error => simp
  | ok i => simpa using live_of_objectSlot found

theorem validate_iff : registry.validate object object.kind = .ok () ↔ 0 < registry.refs object := by
  rw [refs_eq]
  unfold validate
  by_cases bound : object.slot < n
  · have live := (registry.slots ⟨object.slot, bound⟩).live_iff
    by_cases current : (registry.slots ⟨object.slot, bound⟩).generation = object.generation ∧
        (registry.slots ⟨object.slot, bound⟩).kind = some object.kind
    · simp [bound, current, countFor, ← live]
    · simp [bound, countFor, current, ← not_and_or]
  · simp [bound]

/-- An identity that has been given up for good: its slot has moved on to a
later generation, or was retired at this one. -/
def Spent (registry : ObjectRegistry n) (object : ObjectId) : Prop :=
  ∃ i : Fin n, object.slot = i.val ∧ (registry.slots i).Past object.generation

/-- What every registry operation respects: a spent identity stays spent, and a
live object stays live until it is spent. -/
structure Evolves (before after : ObjectRegistry n) : Prop where
  spent : ∀ object, before.Spent object → after.Spent object
  live : ∀ object, 0 < before.refs object → 0 < after.refs object ∨ after.Spent object

theorem Evolves.refl (registry : ObjectRegistry n) : Evolves registry registry :=
  ⟨fun _ spent => spent, fun _ live => .inl live⟩

theorem Evolves.trans {first second third : ObjectRegistry n} (left : Evolves first second)
    (right : Evolves second third) : Evolves first third where
  spent object gone := right.spent object (left.spent object gone)
  live object present := by
    rcases left.live object present with still | gone
    · exact right.live object still
    · exact .inr (right.spent object gone)

theorem Spent.refs (spent : registry.Spent object) : registry.refs object = 0 := by
  obtain ⟨i, slot, past⟩ := spent
  have bound : object.slot < n := slot ▸ i.isLt
  have same : (⟨object.slot, bound⟩ : Fin n) = i := Fin.ext slot
  rw [refs_eq, dif_pos bound, same]
  exact past.countFor object.kind

theorem evolves_update (registry : ObjectRegistry n) (i : Fin n) (slot : ObjectSlot)
    (past : ∀ generation, (registry.slots i).Past generation → slot.Past generation)
    (live : ∀ generation kind, 0 < (registry.slots i).countFor generation kind →
      0 < slot.countFor generation kind ∨ slot.Past generation) :
    Evolves registry ⟨update registry.slots i slot⟩ where
  spent object := by
    rintro ⟨j, named, gone⟩
    refine ⟨j, named, ?_⟩
    by_cases same : j = i
    · subst same
      simpa using past _ gone
    · simpa [same] using gone
  live object present := by
    rw [refs_update]
    by_cases same : object.slot = i.val
    · rw [if_pos same]
      have bound : object.slot < n := same ▸ i.isLt
      have index : (⟨object.slot, bound⟩ : Fin n) = i := Fin.ext same
      rw [refs_eq, dif_pos bound, index] at present
      rcases live _ _ present with still | gone
      · exact .inl still
      · exact .inr ⟨i, same, by simpa using gone⟩
    · rw [if_neg same]
      exact .inl present

variable {next : ObjectRegistry n}

theorem create_spec (small : n ≤ 2 ^ 32) {kind : ObjectKind} (created : registry.create kind = .ok (object, next)) :
    object.kind = kind ∧ registry.refs object = 0 ∧ ¬registry.Spent object ∧
      (∀ other, next.refs other = registry.refs other + if other = object then 1 else 0) ∧
      Evolves registry next := by
  unfold create at created
  split at created
  · cases created
  next i found =>
  have free := Fin.eq_true_of_find?_eq_some found
  simp only [Bool.and_eq_true, Option.isNone_iff_eq_none, Bool.not_eq_eq_eq_not, Bool.not_true] at free
  have index : i.val % 2 ^ 32 = i.val := mod_eq_of_lt (lt_of_lt_of_le i.isLt small)
  simp only [index] at created
  cases created
  have unused : ∀ generation kind, (registry.slots i).countFor generation kind = 0 := by
    simp [countFor, free.1]
  have vacant : ∀ other : ObjectId, other.slot = i.val → registry.refs other = 0 := by
    intro other named
    have bound : other.slot < n := named ▸ i.isLt
    have same : (⟨other.slot, bound⟩ : Fin n) = i := Fin.ext named
    rw [refs_eq, dif_pos bound, same, unused]
  refine ⟨rfl, vacant _ rfl, ?_, ?_, ?_⟩
  · rintro ⟨j, named, past⟩
    have same : j = i := Fin.ext named.symm
    subst same
    rcases past with later | ⟨_, retired, _⟩
    · exact absurd later (lt_irrefl _)
    · simp [free.2] at retired
  · intro other
    rw [refs_update]
    by_cases named : other.slot = i.val
    · rw [if_pos named, vacant other named]
      obtain ⟨slot, generation, kind'⟩ := other
      simp only at named
      simp only [countFor, ObjectSlot.create, ObjectId.mk.injEq, named, Option.some.injEq]
      by_cases same : (registry.slots i).generation = generation ∧ kind = kind'
      · simp [same]
      · rw [if_neg same, if_neg (by rintro ⟨_, rfl, rfl⟩; exact same ⟨rfl, rfl⟩)]
    · rw [if_neg named, if_neg (by rintro rfl; exact named rfl), add_zero]
  · apply evolves_update
    · rintro generation (later | ⟨_, retired, _⟩)
      · exact .inl later
      · simp [free.2] at retired
    · intro generation kind present
      simp [unused] at present

variable {other : ObjectId}

section
variable (found : registry.objectSlot object = .ok i)
include found

theorem countFor_of_slot (named : other.slot = i.val) {slot : ObjectSlot}
    (generation : slot.generation = (registry.slots i).generation) (kind : slot.kind = (registry.slots i).kind) :
    slot.countFor other.generation other.kind = if other = object then slot.references else 0 := by
  obtain ⟨slotSame, generationSame, kindSame⟩ := objectSlot_eq_ok.mp found
  have same : (slot.generation = other.generation ∧ slot.kind = some other.kind) ↔ other = object := by
    obtain ⟨otherSlot, otherGeneration, otherKind⟩ := other
    obtain ⟨objectSlot, objectGeneration, objectKind⟩ := object
    simp only at slotSame generationSame kindSame named
    simp only [generation, kind, generationSame, kindSame, named, slotSame, ObjectId.mk.injEq,
      Option.some.injEq, true_and]
    exact ⟨fun ⟨g, k⟩ => ⟨g.symm, k.symm⟩, fun ⟨g, k⟩ => ⟨g.symm, k.symm⟩⟩
  unfold countFor
  simp only [same]

theorem refs_of_slot (named : other.slot = i.val) :
    registry.refs other = if other = object then (registry.slots i).references else 0 := by
  have bound : other.slot < n := named ▸ i.isLt
  have index : (⟨other.slot, bound⟩ : Fin n) = i := Fin.ext named
  rw [refs_eq, dif_pos bound, index, countFor_of_slot found named rfl rfl]

theorem slot_of_ne (elsewhere : other.slot ≠ i.val) : other ≠ object := by
  rintro rfl
  exact elsewhere (objectSlot_eq_ok.mp found).1

end

theorem retain_spec (retained : registry.retain object = .ok next) : 0 < registry.refs object ∧
      (∀ other, next.refs other = registry.refs other + if other = object then 1 else 0) ∧
      Evolves registry next := by
  unfold retain at retained
  split at retained
  · cases retained
  next i found =>
  split at retained
  · cases retained
  next room =>
  cases retained
  refine ⟨refs_pos_iff.mpr ⟨i, found⟩, ?_, ?_⟩
  · intro other
    rw [refs_update]
    by_cases named : other.slot = i.val
    · rw [if_pos named, refs_of_slot found named]
      refine Eq.trans (countFor_of_slot found named rfl rfl) ?_
      split <;> rfl
    · rw [if_neg named, if_neg (slot_of_ne found named), add_zero]
  · apply evolves_update
    · exact fun generation past => past
    · intro generation kind present
      unfold countFor at present ⊢
      unfold ObjectSlot.retain
      split at present
      · next current => rw [if_pos current]; exact .inl (succ_pos _)
      · omega

theorem release_spec (live : 0 < registry.refs object) : ∃ next, registry.release object = .ok next ∧
      (∀ other, next.refs other + (if other = object then 1 else 0) = registry.refs other) ∧
      Evolves registry next := by
  obtain ⟨i, found⟩ := refs_pos_iff.mp live
  have held := live_of_objectSlot found
  refine ⟨⟨update registry.slots i (registry.slots i).release⟩, ?_, ?_, ?_⟩
  · simp only [release, found, if_neg (pos_iff_ne_zero.mp held)]
  · intro other
    rw [refs_update]
    by_cases named : other.slot = i.val
    · rw [if_pos named, refs_of_slot found named]
      by_cases last : (registry.slots i).references - 1 = 0
      · have gone : (registry.slots i).release.kind = none := by
          unfold ObjectSlot.release
          rw [dif_pos last]
          split <;> rfl
        have zero : (registry.slots i).release.countFor other.generation other.kind = 0 := by
          simp [countFor, gone]
        split <;> omega
      · have kept : (registry.slots i).release.generation = (registry.slots i).generation ∧
            (registry.slots i).release.kind = (registry.slots i).kind ∧
            (registry.slots i).release.references = (registry.slots i).references - 1 := by
          unfold ObjectSlot.release
          rw [dif_neg last]
          exact ⟨rfl, rfl, rfl⟩
        rw [countFor_of_slot found named kept.1 kept.2.1, kept.2.2]
        split <;> omega
    · rw [if_neg named, if_neg (slot_of_ne found named), add_zero]
  · apply evolves_update
    · exact fun generation past => release_past past
    · exact fun generation kind present => release_live present

theorem release_ok (released : registry.release object = .ok next) : 0 < registry.refs object := by
  cases found : registry.objectSlot object with
  | error error => simp [release, found] at released
  | ok i => exact refs_pos_iff.mpr ⟨i, found⟩

theorem release_counts (released : registry.release object = .ok next) :
    (∀ other, next.refs other + (if other = object then 1 else 0) = registry.refs other) ∧ Evolves registry next := by
  obtain ⟨next', same, counts⟩ := release_spec (release_ok released)
  rw [released] at same
  cases same
  exact counts

theorem release_evolves (released : registry.release object = .ok next) : Evolves registry next :=
  (release_counts released).2

theorem discard_spec (live : 0 < registry.refs object) (other : ObjectId) :
    (registry.discard object).refs other + (if other = object then 1 else 0) = registry.refs other := by
  obtain ⟨next, released, counts, _⟩ := release_spec live
  simp only [discard, released]
  exact counts other

theorem discard_evolves (registry : ObjectRegistry n) (object : ObjectId) :
    Evolves registry (registry.discard object) := by
  unfold discard
  split
  · exact .refl registry
  · next released => exact release_evolves released

/-- Release a list of objects in order, going on after a failure and keeping
the first error. -/
def releaseAll (registry : ObjectRegistry n) (objects : List ObjectId) :
    Option HandleError × ObjectRegistry n :=
  objects.foldl (fun state object =>
    match state.2.release object with
    | .error error => (state.1.or (some error), state.2)
    | .ok registry => (state.1, registry)) (none, registry)

theorem release_cons {first : ObjectId} {rest : List ObjectId}
    (enough : ∀ object, (first :: rest).count object ≤ registry.refs object) :
    ∃ next, registry.release first = .ok next ∧ (∀ object, rest.count object ≤ next.refs object) ∧
      (∀ object, next.refs object + (first :: rest).count object = registry.refs object + rest.count object) ∧
      Evolves registry next := by
  have live : 0 < registry.refs first := by
    have counted := enough first
    rw [List.count_cons_self] at counted
    omega
  obtain ⟨next, released, counts, evolves⟩ := release_spec live
  have count : ∀ object, (first :: rest).count object = rest.count object + if object = first then 1 else 0 := by
    intro object
    simp only [List.count_cons, beq_iff_eq, @eq_comm _ object]
  refine ⟨next, released, fun object => ?_, fun object => ?_, evolves⟩
  · have := enough object
    have := counts object
    have := count object
    omega
  · have := counts object
    have := count object
    omega

theorem releaseAll_spec (objects : List ObjectId) (registry : ObjectRegistry n)
    (enough : ∀ object, objects.count object ≤ registry.refs object) :
    ∃ next, registry.releaseAll objects = (none, next) ∧
      (∀ object, next.refs object + objects.count object = registry.refs object) ∧
      Evolves registry next := by
  induction objects generalizing registry with
  | nil => exact ⟨registry, rfl, fun object => by simp, .refl registry⟩
  | cons first rest ih =>
    obtain ⟨middle, released, remaining, counts, evolves⟩ := release_cons enough
    obtain ⟨next, finished, left, later⟩ := ih middle remaining
    have all : registry.releaseAll (first :: rest) = (none, next) := by
      simpa only [releaseAll, List.foldl_cons, released] using finished
    refine ⟨next, all, fun object => ?_, evolves.trans later⟩
    have := counts object
    have := left object
    omega

theorem releaseAll_snd (objects : List ObjectId) (registry : ObjectRegistry n) :
    (registry.releaseAll objects).2 = objects.foldl discard registry := by
  have general : ∀ (failed : Option HandleError) (registry : ObjectRegistry n),
      (objects.foldl (fun (state : Option HandleError × ObjectRegistry n) object =>
        match state.2.release object with
        | .error error => (state.1.or (some error), state.2)
        | .ok registry => (state.1, registry)) (failed, registry)).2 = objects.foldl discard registry := by
    induction objects with
    | nil => exact fun _ _ => rfl
    | cons first rest ih =>
      intro failed registry
      rw [List.foldl_cons, List.foldl_cons]
      cases released : registry.release first <;> simp only [discard, released, ih]
  exact general none registry

end ObjectRegistry
end Nagi.Kernel
