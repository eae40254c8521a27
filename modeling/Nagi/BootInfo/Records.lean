import Nagi.Loader.BootControl

/-! The two one-shot records that the kernel leaves for the loader. -/

namespace Nagi.BootInfo

open Lib Nagi.Loader

def bootReadyRecordSize : Nat := 20
def bootStageRecordSize : Nat := 20

structure BootStageRecord where
  slot : UInt8
  journalGeneration : BitVec 64
  deriving DecidableEq

structure BootReadyRecord where
  slot : UInt8
  attempt : UInt8
  journalGeneration : BitVec 64
  deriving DecidableEq

/-- Sixteen bytes of a record with their checksum. -/
def sealBytes (body : List UInt8) : List UInt8 := body ++ leBytes 4 (crc32 body).toNat

variable (bytes : List UInt8)

def sealedBytes : Bool :=
  (crc32 (bytes.take 16)).toNat = leValue ((bytes.drop 16).take 4)

def generationField : BitVec 64 := BitVec.ofNat 64 (leValue ((bytes.drop 8).take 8))

namespace BootStageRecord

/-- The bytes of `NBST`. -/
def magic : List UInt8 := [0x4e, 0x42, 0x53, 0x54]

def version : UInt8 := 1

def encode (record : BootStageRecord) : Option (List UInt8) :=
  if record.slot > 1 then none
  else some (sealBytes (magic ++ [version, record.slot, 0, 0] ++ leBytes 8 record.journalGeneration.toNat))

def decode : Option BootStageRecord :=
  if bytes.length ≠ bootStageRecordSize ∨ bytes.take 4 ≠ magic ∨ bytes.getD 4 0 ≠ version ∨
      (bytes.drop 6).take 2 ≠ [0, 0] ∨ ¬sealedBytes bytes then
    none
  else
    let record : BootStageRecord := ⟨bytes.getD 5 0, generationField bytes⟩
    record.encode.map fun _ => record

end BootStageRecord

namespace BootReadyRecord

/-- The bytes of `NBRD`. -/
def magic : List UInt8 := [0x4e, 0x42, 0x52, 0x44]

def version : UInt8 := 1

def encode (record : BootReadyRecord) : Option (List UInt8) :=
  if record.slot > 1 ∨ ¬(1 ≤ record.attempt ∧ record.attempt ≤ 3) ∨ record.journalGeneration = 0 then none
  else
    some (sealBytes (magic ++ [version, record.slot, record.attempt, 0] ++ leBytes 8 record.journalGeneration.toNat))

def decode : Option BootReadyRecord :=
  if bytes.length ≠ bootReadyRecordSize ∨ bytes.take 4 ≠ magic ∨ bytes.getD 4 0 ≠ version ∨ bytes.getD 7 0 ≠ 0 ∨
      ¬sealedBytes bytes then
    none
  else
    let record : BootReadyRecord := ⟨bytes.getD 5 0, bytes.getD 6 0, generationField bytes⟩
    record.encode.map fun _ => record

end BootReadyRecord

theorem sealBytes_eq_iff {w x y z version first second third : UInt8} {generation : BitVec 64} {bytes : List UInt8} :
    sealBytes ([w, x, y, z] ++ [version, first, second, third] ++ leBytes 8 generation.toNat) = bytes ↔
      bytes.length = 20 ∧ bytes.take 4 = [w, x, y, z] ∧ bytes.getD 4 0 = version ∧ bytes.getD 5 0 = first ∧
        bytes.getD 6 0 = second ∧ bytes.getD 7 0 = third ∧ sealedBytes bytes = true ∧
        generationField bytes = generation := by
  constructor
  · rintro rfl
    exact ⟨by simp [sealBytes], rfl, rfl, rfl, rfl, rfl, decide_eq_true (checksum_decoded _).symm,
      generation_decoded generation⟩
  · rintro ⟨size, mark, rfl, rfl, rfl, rfl, sealed, rfl⟩
    have fields : (bytes.drop 4).take 4 = [bytes.getD 4 0, bytes.getD 5 0, bytes.getD 6 0, bytes.getD 7 0] :=
      take_drop_eq_map (by omega)
    have sum : (crc32 (bytes.take 16)).toNat = leValue ((bytes.drop 16).take 4) := of_decide_eq_true sealed
    have tail := leBytes_leValue ((bytes.drop 16).take 4)
    rw [show ((bytes.drop 16).take 4).length = 4 by simp [size]] at tail
    rw [← mark, ← fields, generationField, generation_encoded (by simp [size]), ← List.take_add, ← List.take_add,
      sealBytes, sum, tail, ← List.take_add, List.take_of_length_le (by omega)]

/-- A record is read from its fields and is accepted if it can be encoded. -/
theorem encode_iff_decode {ρ : Type} {encode : ρ → Option (List UInt8)} {bytes : List UInt8} {record fields : ρ}
    {bad : Prop} [Decidable bad] (whole : ∀ made, encode fields = some made → ¬bad → made = bytes)
    (shape : encode record = some bytes → ¬bad ∧ fields = record) :
    encode record = some bytes ↔ (if bad then none else (encode fields).map fun _ => fields) = some record := by
  constructor
  · intro encoded
    obtain ⟨good, rfl⟩ := shape encoded
    rw [if_neg good, encoded]
    rfl
  · intro decoded
    split_ifs at decoded with good
    obtain ⟨made, encoded, rfl⟩ := Option.map_eq_some_iff.mp decoded
    rw [encoded, whole made encoded good]

theorem BootReadyRecord.encode_eq_some_iff (record : BootReadyRecord) (bytes : List UInt8) :
    record.encode = some bytes ↔ decode bytes = some record := by
  refine encode_iff_decode (fun made encoded good => ?_) fun encoded => ?_
  · push Not at good
    obtain ⟨size, mark, version, zero, sealed⟩ := good
    unfold encode at encoded
    split_ifs at encoded
    rw [← Option.some.inj encoded]
    exact sealBytes_eq_iff.mpr ⟨size, mark, version, rfl, rfl, zero, sealed, rfl⟩
  · obtain ⟨slot, attempt, generation⟩ := record
    unfold encode at encoded
    split_ifs at encoded
    obtain ⟨size, mark, version, rfl, rfl, zero, sealed, rfl⟩ := sealBytes_eq_iff.mp (Option.some.inj encoded)
    push Not
    exact ⟨⟨size, mark, version, zero, sealed⟩, rfl⟩

theorem BootStageRecord.encode_eq_some_iff (record : BootStageRecord) (bytes : List UInt8) :
    record.encode = some bytes ↔ decode bytes = some record := by
  have unused (size : bytes.length = bootStageRecordSize) : (bytes.drop 6).take 2 = [bytes.getD 6 0, bytes.getD 7 0] :=
    take_drop_eq_map (size ▸ by decide)
  refine encode_iff_decode (fun made encoded good => ?_) fun encoded => ?_
  · push Not at good
    obtain ⟨size, mark, version, zeros, sealed⟩ := good
    rw [unused size] at zeros
    obtain ⟨sixth, seventh⟩ := List.cons.inj zeros
    unfold encode at encoded
    split_ifs at encoded
    rw [← Option.some.inj encoded]
    exact sealBytes_eq_iff.mpr ⟨size, mark, version, rfl, sixth, (List.cons.inj seventh).1, sealed, rfl⟩
  · obtain ⟨slot, generation⟩ := record
    unfold encode at encoded
    split_ifs at encoded
    obtain ⟨size, mark, version, rfl, sixth, seventh, sealed, rfl⟩ := sealBytes_eq_iff.mp (Option.some.inj encoded)
    push Not
    exact ⟨⟨size, mark, version, by rw [unused size, sixth, seventh], sealed⟩, rfl⟩

/-- Each record has one text, and each text that is accepted is that of one record. -/
theorem records_canonical :
    (∀ state, validateState state = some () →
      ∃ bytes, encodeRecord state = some bytes ∧ decodeRecord bytes = some state) ∧
    (∀ bytes, bytes.length = recordSize → ∀ state, decodeRecord bytes = some state →
      validateState state = some () ∧ encodeRecord state = some bytes) ∧
    (∀ (record : BootReadyRecord) bytes, record.encode = some bytes ↔ BootReadyRecord.decode bytes = some record) ∧
    ∀ (record : BootStageRecord) bytes, record.encode = some bytes ↔ BootStageRecord.decode bytes = some record := by
  refine ⟨fun state valid => ?_, fun bytes size state => encodeRecord_decodeRecord size,
    BootReadyRecord.encode_eq_some_iff, BootStageRecord.encode_eq_some_iff⟩
  have encoded := encodeRecord_eq valid
  exact ⟨_, encoded, decodeRecord_encodeRecord encoded⟩

end Nagi.BootInfo
