import Nagi.Lib.Bytes
import Nagi.Lib.Checks

/-! The A/B boot control state, the checksummed record it is stored in, and the journal of two records.

A `Store` is what the platform keeps: two record copies, each absent or some
bytes. It also says which of the coming record writes is cut short and what is
left of it, and lists the writes that were asked for. -/

namespace Nagi.Loader

open Lib Function List

def maxBootAttempts : UInt8 := 3
def recordSize : Nat := 32

/-- The bytes of `NABS`. -/
def recordMagic : List UInt8 := [0x4e, 0x41, 0x42, 0x53]

def recordVersion : UInt8 := 1
def noPendingSlot : UInt8 := 0xff
def checksumOffset : Nat := 28

inductive SystemSlot where
  | a
  | b
  deriving DecidableEq

namespace SystemSlot

def code : SystemSlot → UInt8
  | a => 0
  | b => 1

def fromCode (code : UInt8) : Option SystemSlot :=
  if code = 0 then some a else if code = 1 then some b else none

theorem fromCode_code (slot : SystemSlot) : fromCode slot.code = some slot := by
  cases slot <;> rfl

theorem code_of_fromCode {code : UInt8} {slot : SystemSlot} (known : fromCode code = some slot) :
    slot.code = code := by
  unfold fromCode at known
  split_ifs at known with first second <;> cases known
  · exact first.symm
  · exact second.symm

theorem code_ne_noPendingSlot (slot : SystemSlot) : slot.code ≠ noPendingSlot := by
  cases slot <;> decide

end SystemSlot

structure BootControlState where
  confirmed : SystemSlot
  pending : Option SystemSlot
  attempts : UInt8
  generation : BitVec 64
  deriving DecidableEq

namespace BootControlState

def initial : BootControlState := ⟨.a, none, 0, 0⟩

def pendingCode (state : BootControlState) : UInt8 := state.pending.elim noPendingSlot SystemSlot.code

end BootControlState

def validateState (state : BootControlState) : Option Unit :=
  if state.attempts > maxBootAttempts ∨ state.pending = some state.confirmed ∨
      (state.pending = none ∧ state.attempts ≠ 0) then
    none
  else
    some ()

/-- One shift of the remainder; the source selects the polynomial with a mask. -/
def crcShift (crc : BitVec 32) : BitVec 32 :=
  let mask := 0#32 - (crc &&& 1#32)
  (crc >>> 1) ^^^ (0xedb88320#32 &&& mask)

def crcByte (crc : BitVec 32) (byte : UInt8) : BitVec 32 :=
  Nat.repeat crcShift 8 (crc ^^^ byte.toBitVec.setWidth 32)

def crc32 (bytes : List UInt8) : BitVec 32 := ~~~(bytes.foldl crcByte (BitVec.allOnes 32))

-- the check value of the polynomial: the digits 1 to 9
example : crc32 [0x31, 0x32, 0x33, 0x34, 0x35, 0x36, 0x37, 0x38, 0x39] = 0xcbf43926#32 := by decide +kernel

def recordBody (state : BootControlState) : List UInt8 :=
  recordMagic ++ [recordVersion, state.confirmed.code, state.pendingCode, state.attempts, maxBootAttempts, 0] ++
    leBytes 8 state.generation.toNat ++ replicate 10 0

def encodeRecord (state : BootControlState) : Option (List UInt8) := do
  validateState state
  let bytes := recordBody state
  pure (bytes ++ leBytes 4 (crc32 bytes).toNat)

def decodePending (code : UInt8) : Option (Option SystemSlot) :=
  if code = noPendingSlot then some none else (SystemSlot.fromCode code).map some

def decodeRecord (bytes : List UInt8) : Option BootControlState := do
  if bytes.take 4 ≠ recordMagic ∨ bytes.getD 4 0 ≠ recordVersion ∨ bytes.getD 8 0 ≠ maxBootAttempts ∨
      bytes.getD 9 0 ≠ 0 ∨ ((bytes.take checksumOffset).drop 18).any (· ≠ 0) then
    none
  let expected := leValue (bytes.drop checksumOffset)
  if (crc32 (bytes.take checksumOffset)).toNat ≠ expected then
    none
  let confirmed ← SystemSlot.fromCode (bytes.getD 5 0)
  let pending ← decodePending (bytes.getD 6 0)
  let state : BootControlState :=
    ⟨confirmed, pending, bytes.getD 7 0, BitVec.ofNat 64 (leValue ((bytes.drop 10).take 8))⟩
  validateState state
  pure state

theorem length_recordBody (state : BootControlState) : (recordBody state).length = checksumOffset := by
  simp [recordBody, recordMagic, checksumOffset]

theorem encodeRecord_eq {state : BootControlState} (valid : validateState state = some ()) :
    encodeRecord state = some (recordBody state ++ leBytes 4 (crc32 (recordBody state)).toNat) := by
  simp [encodeRecord, valid]

section
variable {state : BootControlState} {bytes : List UInt8} (encoded : encodeRecord state = some bytes)
include encoded

theorem validateState_of_encodeRecord : validateState state = some () := by
  unfold encodeRecord at encoded
  cases checked : validateState state with
  | none => simp [checked] at encoded
  | some _ => rfl

theorem length_encodeRecord : bytes.length = recordSize := by
  rw [encodeRecord_eq (validateState_of_encodeRecord encoded), Option.some.injEq] at encoded
  subst encoded
  simp [length_recordBody, checksumOffset, recordSize]

end

theorem decodePending_pendingCode (state : BootControlState) :
    decodePending state.pendingCode = some state.pending := by
  unfold BootControlState.pendingCode
  cases state.pending with
  | none => rfl
  | some slot => simp [decodePending, SystemSlot.code_ne_noPendingSlot, SystemSlot.fromCode_code]

theorem pendingCode_of_decodePending {state : BootControlState} {code : UInt8}
    (known : decodePending code = some state.pending) : state.pendingCode = code := by
  unfold BootControlState.pendingCode
  unfold decodePending at known
  split_ifs at known with none
  · rw [← Option.some.inj known, none]
    rfl
  · obtain ⟨slot, found, same⟩ := Option.map_eq_some_iff.mp known
    rw [← same]
    exact SystemSlot.code_of_fromCode found

theorem generation_decoded (generation : BitVec 64) :
    BitVec.ofNat 64 (leValue (leBytes 8 generation.toNat)) = generation := by
  have fits : generation.toNat < 256 ^ 8 := generation.isLt
  rw [leValue_leBytes, Nat.mod_eq_of_lt fits, BitVec.ofNat_toNat, BitVec.setWidth_eq]

theorem generation_encoded {bytes : List UInt8} (size : bytes.length = 8) :
    leBytes 8 (BitVec.ofNat 64 (leValue bytes)).toNat = bytes := by
  have fits := leValue_lt bytes
  have whole := leBytes_leValue bytes
  rw [size] at fits whole
  rw [BitVec.toNat_ofNat, Nat.mod_eq_of_lt (b := 2 ^ 64) fits, whole]

theorem checksum_decoded (body : List UInt8) : leValue (leBytes 4 (crc32 body).toNat) = (crc32 body).toNat := by
  rw [leValue_leBytes]
  exact Nat.mod_eq_of_lt (crc32 body).isLt

/-- A record that was written whole is read back as the state it was made from. -/
theorem decodeRecord_encodeRecord {state : BootControlState} {bytes : List UInt8}
    (encoded : encodeRecord state = some bytes) : decodeRecord bytes = some state := by
  have valid := validateState_of_encodeRecord encoded
  rw [encodeRecord_eq valid, Option.some.injEq] at encoded
  subst encoded
  have front (rest : List UInt8) : (recordBody state ++ rest).take checksumOffset = recordBody state := by
    rw [← length_recordBody state, take_left]
  have back (rest : List UInt8) : (recordBody state ++ rest).drop checksumOffset = rest := by
    rw [← length_recordBody state, drop_left]
  unfold decodeRecord
  rw [front, back, checksum_decoded]
  simp [recordBody, recordMagic, SystemSlot.fromCode_code, decodePending_pendingCode, generation_decoded, valid]

/-- A record that is accepted is the one that the state it holds is stored in. -/
theorem encodeRecord_decodeRecord {bytes : List UInt8} {state : BootControlState} (size : bytes.length = recordSize)
    (decoded : decodeRecord bytes = some state) : validateState state = some () ∧ encodeRecord state = some bytes := by
  change bytes.length = 32 at size
  obtain ⟨shape, decoded⟩ := Checks.unless_bind_some_iff.mp decoded
  obtain ⟨sum, decoded⟩ := Checks.unless_bind_some_iff.mp decoded
  obtain ⟨confirmed, slot, decoded⟩ := Option.bind_eq_some_iff.mp decoded
  obtain ⟨pending, trial, decoded⟩ := Option.bind_eq_some_iff.mp decoded
  obtain ⟨_, valid, same⟩ := Option.bind_eq_some_iff.mp decoded
  have valid : validateState state = some () := by
    cases same
    exact valid
  push Not at shape sum
  obtain ⟨magic, version, attempts, reserved, zeros⟩ := shape
  have body : recordBody state = bytes.take checksumOffset := by
    cases same
    have header : (bytes.drop 4).take 6 =
        [recordVersion, bytes.getD 5 0, bytes.getD 6 0, bytes.getD 7 0, maxBootAttempts, 0] := by
      rw [take_drop_eq_map (by omega)]
      change [bytes.getD 4 0, _, _, _, bytes.getD 8 0, bytes.getD 9 0] = _
      rw [version, attempts, reserved]
    have unused : (bytes.drop 18).take 10 = replicate 10 0 := by
      rw [drop_take] at zeros
      exact eq_replicate_iff.mpr ⟨by simp [size], by simpa [checksumOffset] using zeros⟩
    change _ = bytes.take (4 + 6 + 8 + 10)
    rw [take_add, take_add, take_add, unused, header, magic, recordBody, SystemSlot.code_of_fromCode slot,
      @pendingCode_of_decodePending ⟨_, pending, _, _⟩ _ trial, generation_encoded (by simp [size])]
  have rest : (bytes.drop checksumOffset).length = 4 := by simp [size, checksumOffset]
  refine ⟨valid, (encodeRecord_eq valid).trans ?_⟩
  rw [body, sum, ← rest, leBytes_leValue, take_append_drop]

structure BootDecision where
  slot : SystemSlot
  trialAttempt : UInt8
  rolledBack : Bool
  deriving DecidableEq

inductive StoreError where
  | io
  deriving DecidableEq

inductive BootControlError where
  | storage (error : StoreError)
  | corruptRecords
  | updateAlreadyPending
  | cannotUpdateConfirmedSlot
  | unexpectedBootSuccess
  | generationExhausted
  deriving DecidableEq

inductive RecordCopy where
  | first
  | second
  deriving DecidableEq

namespace RecordCopy

def other : RecordCopy → RecordCopy
  | first => second
  | second => first

@[simp] theorem other_other (copy : RecordCopy) : copy.other.other = copy := by
  cases copy <;> rfl

@[simp] theorem other_ne (copy : RecordCopy) : copy.other ≠ copy := by
  cases copy <;> decide

@[simp] theorem ne_other (copy : RecordCopy) : copy ≠ copy.other := (other_ne copy).symm

end RecordCopy

/-- The state a copy holds, if its bytes are a record. Only a record of the full length is looked at. -/
def accepted (contents : Option (List UInt8)) : Option BootControlState := do
  let bytes ← contents
  if bytes.length = recordSize then decodeRecord bytes else none

/-- What an interrupted write leaves in the copy it was writing. -/
inductive Interruption where
  | old
  | complete
  | torn (contents : Option (List UInt8)) (rejected : accepted contents = none)

def Interruption.leaves (old : Option (List UInt8)) (record : List UInt8) : Interruption → Option (List UInt8)
  | .old => old
  | .complete => some record
  | .torn contents _ => contents

structure Store where
  record : RecordCopy → Option (List UInt8)
  /-- The write that is cut short, counted from the next one. -/
  interruption : Option (Nat × Interruption) := none
  /-- The writes asked for, the latest one last. -/
  writes : List (RecordCopy × List UInt8) := []

structure CurrentState where
  state : BootControlState
  copy : Option RecordCopy

abbrev Journal := EStateM BootControlError Store

def writeRecord (copy : RecordCopy) (bytes : List UInt8) : Journal Unit := fun store =>
  let asked := { store with writes := store.writes ++ [(copy, bytes)] }
  match store.interruption with
  | none => .ok () { asked with record := update store.record copy (some bytes) }
  | some (0, interruption) =>
    .error (.storage .io) { asked with
      record := update store.record copy (interruption.leaves (store.record copy) bytes)
      interruption := none }
  | some (later + 1, interruption) =>
    .ok () { asked with
      record := update store.record copy (some bytes)
      interruption := some (later, interruption) }

def Store.current (store : Store) : Except BootControlError CurrentState :=
  match accepted (store.record .first), accepted (store.record .second) with
  | none, none =>
    if store.record .first = none ∧ store.record .second = none then .ok ⟨.initial, none⟩
    else .error .corruptRecords
  | some state, none => .ok ⟨state, some .first⟩
  | none, some state => .ok ⟨state, some .second⟩
  | some first, some second =>
    if first.generation = second.generation then
      if first ≠ second then .error .corruptRecords else .ok ⟨first, some .first⟩
    else if first.generation > second.generation then .ok ⟨first, some .first⟩
    else .ok ⟨second, some .second⟩

def current : Journal CurrentState := fun store =>
  match store.current with
  | .ok found => .ok found store
  | .error error => .error error store

def load : Journal BootControlState := do
  return (← current).state

def orThrow {α : Type} (error : BootControlError) : Option α → Journal α
  | some value => pure value
  | none => throw error

def checkedSucc (generation : BitVec 64) : Option (BitVec 64) :=
  if generation = BitVec.allOnes 64 then none else some (generation + 1)

def persist (current : CurrentState) (next : BootControlState) : Journal Unit := do
  let generation ← orThrow .generationExhausted (checkedSucc current.state.generation)
  let next := { next with generation := generation }
  orThrow .corruptRecords (validateState next)
  let destination := (current.copy.map RecordCopy.other).getD .first
  let record ← orThrow .corruptRecords (encodeRecord next)
  writeRecord destination record

def stageUpdate (slot : SystemSlot) : Journal Unit := do
  let mut found ← current
  if found.state.pending.isSome then
    throw .updateAlreadyPending
  if slot = found.state.confirmed then
    throw .cannotUpdateConfirmedSlot
  -- a confirmed baseline goes in front of the first pending record
  if found.copy.isNone then
    persist found found.state
    found ← current
  persist found { found.state with pending := some slot, attempts := 0 }

def beginBoot : Journal BootDecision := do
  let found ← current
  match found.state.pending with
  | none => return ⟨found.state.confirmed, 0, false⟩
  | some pending =>
    if found.state.attempts ≥ maxBootAttempts then
      let next := { found.state with pending := none, attempts := 0 }
      persist found next
      return ⟨next.confirmed, 0, true⟩
    let attempt := found.state.attempts + 1
    persist found { found.state with attempts := attempt }
    return ⟨pending, attempt, false⟩

def markBootSuccess (slot : SystemSlot) : Journal Unit := do
  let found ← current
  match found.state.pending with
  | some pending =>
    if pending = slot then
      persist found { found.state with confirmed := pending, pending := none, attempts := 0 }
    else
      throw .unexpectedBootSuccess
  | none =>
    if found.state.confirmed = slot then
      return
    throw .unexpectedBootSuccess

end Nagi.Loader
