import Nagi.Kernel.Handles.Accounting
import Nagi.Kernel.Memory
import Nagi.Lib.Words

/-! Virtual memory objects and the mapping table of an address space, from
`kernel/src/vmo.rs`.

A mapping holds one reference to its object. A call is made by a process, on
the address space it owns, through a handle to the object; what a mapping may
ever do is fixed by the rights it has at the time. -/

namespace Nagi.Kernel

open Lib Checks Function

def maxVmoBytes : Nat := 16 * 1024
def maxMappings : Nat := 32
def userAddressLimit : Nat := 0x800000000000

inductive VmoKind where
  | anonymous
  | shared
  deriving DecidableEq

inductive VmoError where
  | invalidObject
  | invalidSize
  | invalidAddress
  | unaligned
  | outOfBounds
  | rightsMissing
  | overlap
  | notMapped
  | mappingTableFull
  deriving DecidableEq

/-- A memory object, without its bytes: its size is a number of whole pages that fit its storage. -/
structure Vmo where
  object : ObjectId
  kind : VmoKind
  size : Nat
  isVmo : object.kind = .vmo
  size_pos : 0 < size
  size_pages : size % pageSize = 0
  size_le : size ≤ maxVmoBytes

variable (object : ObjectId)

def Vmo.new (size : Nat) (kind : VmoKind) : Except VmoError Vmo :=
  if isVmo : object.kind = .vmo then
    if sized : 0 < size ∧ size % pageSize = 0 ∧ size ≤ maxVmoBytes then
      .ok ⟨object, kind, size, isVmo, sized.1, sized.2.1, sized.2.2⟩
    else .error .invalidSize
  else .error .invalidObject

structure Mapping where
  vmoObject : ObjectId
  virtualStart : Nat
  offset : Nat
  length : Nat
  rights : Rights
  maxRights : Rights
  deriving DecidableEq

structure MappingRequest where
  virtualStart : Nat
  offset : Nat
  length : Nat
  rights : Rights
  deriving DecidableEq

def MappingRequest.mapping (request : MappingRequest) (vmo : Vmo) : Mapping where
  vmoObject := vmo.object
  virtualStart := request.virtualStart
  offset := request.offset
  length := request.length
  rights := request.rights
  maxRights := request.rights

def validateRange (virtualStart length : Nat) : Except VmoError Unit :=
  if virtualStart = 0 ∨ virtualStart % pageSize ≠ 0 ∨ length = 0 ∨ length % pageSize ≠ 0 then .error .unaligned
  else
    match Words.checkedAdd 64 virtualStart length with
    | none => .error .invalidAddress
    | some last => if last > userAddressLimit then .error .invalidAddress else .ok ()

def saturatingEnd (first second : Nat) : Nat := min (first + second) (2 ^ 64 - 1)

def rangesOverlap (firstStart firstLength secondStart secondLength : Nat) : Bool :=
  firstStart < saturatingEnd secondStart secondLength && secondStart < saturatingEnd firstStart firstLength

structure AddressSpace where
  object : ObjectId
  mappings : Fin maxMappings → Option Mapping

namespace AddressSpace

def new : AddressSpace := ⟨object, fun _ => none⟩

variable {n m : Nat} (space : AddressSpace)

def put (i : Fin maxMappings) (slot : Option Mapping) : AddressSpace :=
  { space with mappings := update space.mappings i slot }

def find (virtualStart : Nat) : Option (Fin maxMappings) :=
  Fin.find? fun i => (space.mappings i).any fun mapping => mapping.virtualStart == virtualStart

def checkWindow (vmo : Vmo) (request : MappingRequest) : Except VmoError Unit :=
  if request.offset % pageSize ≠ 0 ∨ request.length % pageSize ≠ 0 then .error .outOfBounds
  else
    match Words.checkedAdd 64 request.offset request.length with
    | none => .error .outOfBounds
    | some last => if last > vmo.size then .error .outOfBounds else .ok ()

def map (registry : ObjectRegistry m) (vmoCapability : ObjectId) (vmo : Vmo)
    (capabilityRights : Rights) (request : MappingRequest) :
    Except VmoError (AddressSpace × ObjectRegistry m) := do
  if vmoCapability ≠ vmo.object ∨ vmoCapability.kind ≠ .vmo ∨ registry.validate vmoCapability .vmo ≠ .ok () then
    .error .invalidObject
  else if !capabilityRights.contains .map || !request.rights.isSubsetOf capabilityRights then
    .error .rightsMissing
  else do
    validateRange request.virtualStart request.length
    checkWindow vmo request
    if (List.finRange maxMappings).any fun i => (space.mappings i).any fun mapping =>
        rangesOverlap request.virtualStart request.length mapping.virtualStart mapping.length then
      .error .overlap
    else
      match Fin.find? fun i => (space.mappings i).isNone with
      | none => .error .mappingTableFull
      | some i =>
        match registry.retain vmo.object with
        | .error _ => .error .invalidObject
        | .ok registry => .ok (space.put i (some (request.mapping vmo)), registry)

/-- The slot is emptied before the reference is given back, and filled again if that fails. -/
def unmap (registry : ObjectRegistry m) (virtualStart : Nat) :
    Except VmoError Mapping × AddressSpace × ObjectRegistry m :=
  match space.find virtualStart with
  | none => (.error .notMapped, space, registry)
  | some i =>
    match space.mappings i with
    | none => (.error .notMapped, space, registry)
    | some mapping =>
      match registry.release mapping.vmoObject with
      | .error _ => (.error .invalidObject, (space.put i none).put i (some mapping), registry)
      | .ok registry => (.ok mapping, space.put i none, registry)

def protect (virtualStart : Nat) (rights : Rights) : Except VmoError AddressSpace :=
  match space.find virtualStart with
  | none => .error .notMapped
  | some i =>
    match space.mappings i with
    | none => .error .notMapped
    | some mapping =>
      if !rights.isSubsetOf mapping.maxRights then .error .rightsMissing
      else .ok (space.put i (some { mapping with rights, maxRights := rights }))

def mapping (virtualStart : Nat) : Option Mapping :=
  (space.find virtualStart).bind space.mappings

end AddressSpace

def handleToVmoError : HandleError → VmoError
  | .rightsMissing => .rightsMissing
  | _ => .invalidObject

namespace Process
variable {n m : Nat} (process : Process n) (registry : ObjectRegistry m) (space : AddressSpace)

def ownsAddressSpace : Bool :=
  space.object = process.addressSpace ∧ registry.validate process.addressSpace .addressSpace = .ok ()

def requireMap (handle : Handle) : Except VmoError ObjectId :=
  if !process.ownsAddressSpace registry space then .error .invalidObject
  else (process.handles.require registry handle .vmo .map).mapError handleToVmoError

def mapVmo (handle : Handle)
    (vmo : Vmo) (request : MappingRequest) : Except VmoError (AddressSpace × ObjectRegistry m) := do
  let object ← process.requireMap registry space handle
  let rights ← (process.handles.rights registry handle).mapError handleToVmoError
  space.map registry object vmo rights request

def mapsObject (virtualStart : Nat) (object : ObjectId) : Bool :=
  (space.mapping virtualStart).any fun mapping => mapping.vmoObject = object

def unmapVmo (handle : Handle) (virtualStart : Nat) : Except VmoError Mapping × AddressSpace × ObjectRegistry m :=
  match process.requireMap registry space handle with
  | .error error => (.error error, space, registry)
  | .ok object =>
    if !mapsObject space virtualStart object then (.error .invalidObject, space, registry)
    else space.unmap registry virtualStart

def protectVmo (handle : Handle) (virtualStart : Nat) (rights : Rights) : Except VmoError AddressSpace :=
  match process.requireMap registry space handle with
  | .error error => .error error
  | .ok object =>
    if !mapsObject space virtualStart object then .error .invalidObject
    else space.protect virtualStart rights

end Process

structure Mapping.Placed (mapping : Mapping) : Prop where
  start_pos : 0 < mapping.virtualStart
  start_page : mapping.virtualStart % pageSize = 0
  offset_page : mapping.offset % pageSize = 0
  length_pos : 0 < mapping.length
  length_page : mapping.length % pageSize = 0
  end_le : mapping.virtualStart + mapping.length ≤ userAddressLimit

def Mapping.Apart (first second : Mapping) : Prop :=
  first.virtualStart + first.length ≤ second.virtualStart ∨ second.virtualStart + second.length ≤ first.virtualStart

theorem Mapping.Apart.symm {first second : Mapping} (apart : first.Apart second) : second.Apart first :=
  Or.symm apart

theorem rangesOverlap_eq_false {first second : Mapping} (placed : first.Placed)
    (clear : rangesOverlap first.virtualStart first.length second.virtualStart second.length = false) :
    first.Apart second := by
  have below : first.virtualStart + first.length ≤ 2 ^ 47 := placed.end_le
  unfold rangesOverlap saturatingEnd at clear
  rw [Bool.and_eq_false_iff, decide_eq_false_iff_not, decide_eq_false_iff_not] at clear
  unfold Mapping.Apart
  omega

theorem validateRange_eq_ok {virtualStart length : Nat} (valid : validateRange virtualStart length = .ok ()) :
    0 < virtualStart ∧ virtualStart % pageSize = 0 ∧ 0 < length ∧ length % pageSize = 0 ∧
      virtualStart + length ≤ userAddressLimit := by
  revert valid
  fun_cases validateRange virtualStart length with
  | case4 aligned last sum below =>
    have := Words.checkedAdd_eq_some_iff.mp sum
    omega
  | _ => simp

namespace AddressSpace
variable {n m : Nat}

variable {vmo : Vmo} {request : MappingRequest}

theorem checkWindow_eq_ok (inside : checkWindow vmo request = .ok ()) :
    request.offset % pageSize = 0 ∧ request.offset + request.length ≤ vmo.size := by
  revert inside
  fun_cases checkWindow vmo request with
  | case4 aligned last sum below =>
    have := Words.checkedAdd_eq_some_iff.mp sum
    omega
  | _ => simp

variable (space : AddressSpace)

@[simp] theorem put_same (i : Fin maxMappings) (slot : Option Mapping) :
    (space.put i slot).mappings i = slot := update_self ..

variable {i : Fin maxMappings}

theorem put_other {j : Fin maxMappings} (slot : Option Mapping) (other : j ≠ i) :
    (space.put i slot).mappings j = space.mappings j := update_of_ne other ..

def mappingsOf (object : ObjectId) : Nat :=
  (List.finRange maxMappings).countP fun i => (space.mappings i).any fun mapping => mapping.vmoObject = object

def weight (slot : Option Mapping) : Nat :=
  if (slot.any fun mapping => mapping.vmoObject = object) = true then 1 else 0

theorem mappingsOf_put (i : Fin maxMappings) (slot : Option Mapping) (object : ObjectId) :
    (space.put i slot).mappingsOf object + weight object (space.mappings i) =
      space.mappingsOf object + weight object slot := by
  unfold mappingsOf
  rw [Table.countP_finRange, Table.countP_finRange]
  exact Table.sum_update space.mappings (weight object) i slot

theorem weight_none : weight object none = 0 := rfl

theorem weight_some (mapping : Mapping) :
    weight object (some mapping) = if object = mapping.vmoObject then 1 else 0 := by
  simp [weight, eq_comm]

/-- The mappings are well placed and no two of them share an address. -/
structure Sound : Prop where
  placed : ∀ i mapping, space.mappings i = some mapping → mapping.Placed
  apart : ∀ i j first second, i ≠ j → space.mappings i = some first → space.mappings j = some second →
    first.Apart second

variable {space}

theorem put_eq_some {j : Fin maxMappings} {slot : Option Mapping} {mapping : Mapping} :
    (space.put i slot).mappings j = some mapping ↔
      j = i ∧ slot = some mapping ∨ j ≠ i ∧ space.mappings j = some mapping := by
  by_cases here : j = i
  · simp [here]
  · simp [here, put_other]

theorem Sound.put_some (sound : space.Sound) {mapping : Mapping} (placed : mapping.Placed)
    (apart : ∀ j other, j ≠ i → space.mappings j = some other → mapping.Apart other) :
    (space.put i (some mapping)).Sound where
  placed j other held := by
    obtain ⟨-, same⟩ | ⟨-, held⟩ := put_eq_some.mp held
    · cases same
      exact placed
    · exact sound.placed j other held
  apart j k first second different heldFirst heldSecond := by
    obtain ⟨rfl, ⟨⟩⟩ | ⟨here, oldFirst⟩ := put_eq_some.mp heldFirst <;>
      obtain ⟨rfl, ⟨⟩⟩ | ⟨there, oldSecond⟩ := put_eq_some.mp heldSecond
    · exact absurd rfl different
    · exact apart k second there oldSecond
    · exact (apart j first here oldFirst).symm
    · exact sound.apart j k first second different oldFirst oldSecond

theorem Sound.put_none (sound : space.Sound) (i : Fin maxMappings) : (space.put i none).Sound := by
  have kept : ∀ {j mapping}, (space.put i none).mappings j = some mapping → space.mappings j = some mapping := by
    simp [put_eq_some]
  exact ⟨fun j mapping held => sound.placed j mapping (kept held),
    fun j k first second different heldFirst heldSecond =>
      sound.apart j k first second different (kept heldFirst) (kept heldSecond)⟩

structure Mapped (space : AddressSpace) (registry after : ObjectRegistry m) (vmo : Vmo) (rights : Rights)
    (request : MappingRequest) (i : Fin maxMappings) : Prop where
  free : space.mappings i = none
  allowed : request.rights.isSubsetOf rights = true
  placed : (request.mapping vmo).Placed
  inside : request.offset + request.length ≤ vmo.size
  clear : ∀ j other, space.mappings j = some other →
    rangesOverlap request.virtualStart request.length other.virtualStart other.length = false
  retained : registry.retain vmo.object = .ok after

variable {next : AddressSpace} {registry after : ObjectRegistry m} {rights : Rights}

theorem map_spec {object : ObjectId} (mapped : space.map registry object vmo rights request = .ok (next, after)) :
    object = vmo.object ∧ ∃ i, Mapped space registry after vmo rights request i ∧
      next = space.put i (some (request.mapping vmo)) := by
  simp only [map, unless_ok_iff, unit_bind_ok_iff] at mapped
  obtain ⟨named, allowed, range, window, clear, mapped⟩ := mapped
  obtain ⟨start, aligned, length, pages, below⟩ := validateRange_eq_ok range
  obtain ⟨offset, inside⟩ := checkWindow_eq_ok window
  split at mapped
  · cases mapped
  next i found =>
  split at mapped
  · cases mapped
  next retained =>
  cases mapped
  refine ⟨by_contra fun other => named (.inl other), i, ⟨?_, ?_, ⟨start, aligned, offset, length, pages, below⟩,
    inside, ?_, retained⟩, rfl⟩
  · simpa using Fin.eq_true_of_find?_eq_some found
  · simp only [Bool.or_eq_true, Bool.not_eq_true', not_or, Bool.not_eq_false] at allowed
    exact allowed.2
  · intro j other held
    by_contra overlap
    refine clear (List.any_eq_true.mpr ⟨j, List.mem_finRange j, ?_⟩)
    simpa [held] using overlap

theorem Mapped.sound (mapped : Mapped space registry after vmo rights request i) (sound : space.Sound) :
    (space.put i (some (request.mapping vmo))).Sound :=
  sound.put_some mapped.placed fun j other _ held =>
    rangesOverlap_eq_false mapped.placed (mapped.clear j other held)

theorem unmap_spec (space : AddressSpace) (registry : ObjectRegistry m) (virtualStart : Nat) :
    (∃ error, space.unmap registry virtualStart = (.error error, space, registry)) ∨
      ∃ i mapping after, space.unmap registry virtualStart = (.ok mapping, space.put i none, after) ∧
        space.mappings i = some mapping ∧ registry.release mapping.vmoObject = .ok after := by
  unfold unmap
  split
  · exact .inl ⟨_, rfl⟩
  next i found =>
  split
  · exact .inl ⟨_, rfl⟩
  next mapping held =>
  split
  · exact .inl ⟨.invalidObject, by simp [put, ← held]⟩
  · next after released => exact .inr ⟨i, mapping, after, rfl, held, released⟩

theorem protect_spec {virtualStart : Nat} (narrowed : space.protect virtualStart rights = .ok next) :
    ∃ i mapping, space.mappings i = some mapping ∧ rights.isSubsetOf mapping.maxRights = true ∧
      next = space.put i (some { mapping with rights, maxRights := rights }) := by
  unfold protect at narrowed
  split at narrowed
  · cases narrowed
  next i found =>
  split at narrowed
  · cases narrowed
  next mapping held =>
  obtain ⟨allowed, done⟩ := unless_ok_iff.mp narrowed
  cases done
  exact ⟨i, mapping, held, by simpa using allowed, rfl⟩

end AddressSpace

namespace Process
variable {n m : Nat}

variable {process : Process n} {registry : ObjectRegistry m} {space next : AddressSpace}

theorem mapVmo_spec {after : ObjectRegistry m} {handle : Handle} {vmo : Vmo} {request : MappingRequest}
    (mapped : process.mapVmo registry space handle vmo request = .ok (next, after)) :
    ∃ capability i, process.handles.entry registry handle = .ok capability ∧ capability.object = vmo.object ∧
      space.Mapped registry after vmo capability.rights request i ∧
      next = space.put i (some (request.mapping vmo)) := by
  simp only [mapVmo, requireMap, bind_ok_iff, unless_ok_iff, mapError_ok_iff, HandleTable.require_eq_ok] at mapped
  obtain ⟨_, ⟨_, capability, entry, rfl, _⟩, _, granted, mapped⟩ := mapped
  rw [HandleTable.rights, entry] at granted
  cases granted
  obtain ⟨same, i, done⟩ := AddressSpace.map_spec mapped
  exact ⟨capability, i, entry, same, done⟩

theorem unmapVmo_spec (process : Process n) (registry : ObjectRegistry m) (space : AddressSpace) (handle : Handle)
    (virtualStart : Nat) :
    (∃ error, process.unmapVmo registry space handle virtualStart = (.error error, space, registry)) ∨
      ∃ i mapping after, process.unmapVmo registry space handle virtualStart = (.ok mapping, space.put i none, after) ∧
        space.mappings i = some mapping ∧ registry.release mapping.vmoObject = .ok after := by
  fun_cases process.unmapVmo registry space handle virtualStart with
  | case3 => exact space.unmap_spec registry virtualStart
  | _ => exact .inl ⟨_, rfl⟩

theorem protectVmo_spec {handle : Handle} {virtualStart : Nat} {rights : Rights}
    (narrowed : process.protectVmo registry space handle virtualStart rights = .ok next) :
    space.protect virtualStart rights = .ok next := by
  revert narrowed
  fun_cases process.protectVmo registry space handle virtualStart rights with
  | case3 => exact fun done => done
  | _ => simp

end Process
end Nagi.Kernel
