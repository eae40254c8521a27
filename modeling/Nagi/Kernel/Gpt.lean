import Nagi.Lib.Bytes
import Nagi.Lib.Words

/-! The partition table reader of `kernel/src/gpt.rs`. -/

namespace Nagi.Kernel.Gpt

open Lib

def sectorSize : Nat := 512
def entryCount : Nat := 128
def entrySize : Nat := 128
def entryArraySectors : Nat := entryCount * entrySize / sectorSize

abbrev Sector := ByteBlock sectorSize

abbrev Entry := ByteBlock entrySize

def typeGuid (last : UInt8) : List UInt8 :=
  [0x01, 0x47, 0x41, 0x4e, 0x01, 0x00, 0x41, 0x4e, 0x47, 0x49, 0, 0, 0, 0, 0, last]

def userDataTypeGuid : List UInt8 := typeGuid 3

def modelStoreTypeGuid : List UInt8 := typeGuid 5

def systemATypeGuid : List UInt8 := typeGuid 1

def systemBTypeGuid : List UInt8 := typeGuid 2

/-- `b"EFI PART"`. -/
def headerSignature : List UInt8 := [0x45, 0x46, 0x49, 0x20, 0x50, 0x41, 0x52, 0x54]

def gptRevision : Nat := 0x00010000
def gptHeaderMinSize : Nat := 92
def mbrPartitionOffset : Nat := 446

structure PartitionRange where
  startLba : Nat
  sectorCount : Nat
  deriving DecidableEq

structure PartitionLayout where
  userData : PartitionRange
  modelStore : Option PartitionRange
  systemA : Option PartitionRange
  systemB : Option PartitionRange
  deriving DecidableEq

inductive GptError where
  | read
  | protectiveMbr
  | header
  | headerChecksum
  | entryArray
  | entryChecksum
  | partitionBounds
  | partitionOverlap
  | duplicateGuid
  | missingUserData
  | multipleUserData
  | multipleModelStore
  deriving DecidableEq

abbrev Answer (α : Type) := Except (Fault GptError) α

def reject {α : Type} (reason : GptError) : Answer α := .error (.error reason)

structure Header where
  currentLba : Nat
  backupLba : Nat
  firstUsableLba : Nat
  lastUsableLba : Nat
  diskGuid : List UInt8
  entriesLba : Nat
  entriesCrc : Nat
  deriving DecidableEq

structure Extent where
  firstLba : Nat
  lastLba : Nat
  uniqueGuid : List UInt8
  deriving DecidableEq

/-- The content that `read_sector` reads, and the sectors that it fails on. -/
structure Disk where
  content : Nat → Sector
  unreadable : Nat → Bool

variable (disk : Disk)

def Disk.readSector (lba : Nat) : Answer Sector :=
  if disk.unreadable lba then reject .read else .ok (disk.content lba)

def guidIsZero (guid : List UInt8) : Bool := guid.foldl (fun combined byte => combined ||| byte) 0 == 0

def bytesEqual (left right : List UInt8) : Bool :=
  left.length == right.length &&
    (List.zip left right).foldl (fun difference pair => difference ||| (pair.1 ^^^ pair.2)) 0 == 0

def crcShift (crc : BitVec 32) : BitVec 32 :=
  (crc >>> 1) ^^^ (0xedb88320#32 &&& (0#32 - (crc &&& 1#32)))

def crc32Update (crc : BitVec 32) (bytes : List UInt8) : BitVec 32 :=
  bytes.foldl (fun crc byte => Nat.repeat crcShift 8 (crc ^^^ byte.toBitVec.setWidth 32)) crc

def crc32Finish (crc : BitVec 32) : BitVec 32 := ~~~crc

def crc32 (bytes : List UInt8) : BitVec 32 := crc32Finish (crc32Update (BitVec.allOnes 32) bytes)

/-- The sector number that the protective record gives for the end of the disk. -/
def protectedSize (backupLba : Nat) : Nat := if backupLba < 2 ^ 32 then backupLba else 2 ^ 32 - 1

def validateProtectiveMbr (mbr : Sector) (diskSectors : Nat) : Answer Unit :=
  if mbr.byte 510 ≠ 0x55 ∨ mbr.byte 511 ≠ 0xaa then reject .protectiveMbr
  else
    (List.range 4).forM fun index => do
      let offset := mbrPartitionOffset + index * 16
      if index = 0 then
        let backupLba ← Words.sub diskSectors 1
        if mbr.byte (offset + 4) ≠ 0xee ∨ mbr.number (offset + 8) 4 ≠ 1 ∨
            mbr.number (offset + 12) 4 ≠ protectedSize backupLba then
          reject .protectiveMbr
        else pure ()
      else if (mbr.slice offset 16).any fun byte => byte ≠ 0 then reject .protectiveMbr
      else pure ()

/-- The checksum is computed with its own field taken as zero. -/
def parseHeader (bytes : Sector) : Answer Header :=
  if !bytesEqual (bytes.slice 0 8) headerSignature ∨ bytes.number 8 4 ≠ gptRevision ∨
      bytes.number 12 4 < gptHeaderMinSize ∨ bytes.number 12 4 > sectorSize ∨ bytes.number 20 4 ≠ 0 ∨
      bytes.number 80 4 ≠ entryCount ∨ bytes.number 84 4 ≠ entrySize then
    reject .header
  else
    let headerSize := bytes.number 12 4
    let expectedCrc := bytes.number 16 4
    let bytes := bytes.put 16 [0, 0, 0, 0]
    if (crc32 (bytes.slice 0 headerSize)).toNat ≠ expectedCrc then reject .headerChecksum
    else if guidIsZero (bytes.slice 56 16) then reject .header
    else .ok
      { currentLba := bytes.number 24 8
        backupLba := bytes.number 32 8
        firstUsableLba := bytes.number 40 8
        lastUsableLba := bytes.number 48 8
        diskGuid := bytes.slice 56 16
        entriesLba := bytes.number 72 8
        entriesCrc := bytes.number 88 4 }

def readPrimary (backupLba : Nat) : Answer Header := do
  let bytes ← disk.readSector 1
  let primary ← parseHeader bytes
  let backupEntries ← Words.sub backupLba entryArraySectors
  if primary.currentLba ≠ 1 ∨ primary.backupLba ≠ backupLba ∨ primary.entriesLba ≠ 2 ∨
      primary.firstUsableLba < 2 + entryArraySectors ∨ primary.lastUsableLba ≥ backupEntries ∨
      primary.firstUsableLba > primary.lastUsableLba then
    reject .header
  else pure primary

def readBackup (backupLba : Nat) (primary : Header) : Answer Header := do
  let bytes ← disk.readSector backupLba
  let backup ← parseHeader bytes
  let backupEntries ← Words.sub backupLba entryArraySectors
  if backup.currentLba ≠ backupLba ∨ backup.backupLba ≠ 1 ∨ backup.entriesLba ≠ backupEntries ∨
      backup.firstUsableLba ≠ primary.firstUsableLba ∨ backup.lastUsableLba ≠ primary.lastUsableLba ∨
      !bytesEqual backup.diskGuid primary.diskGuid ∨ backup.entriesCrc ≠ primary.entriesCrc then
    reject .header
  else pure backup

structure Noted where
  range : Option PartitionRange
  count : Nat
  deriving DecidableEq

inductive SystemSlot where
  | a
  | b
  deriving DecidableEq

structure Scan where
  extents : Fin entryCount → Option Extent
  userData : Noted
  modelStore : Noted
  systemSlots : SystemSlot → Noted
  crc : BitVec 32

def Scan.start : Scan :=
  { extents := fun _ => none
    userData := ⟨none, 0⟩
    modelStore := ⟨none, 0⟩
    systemSlots := fun _ => ⟨none, 0⟩
    crc := BitVec.allOnes 32 }

def partitionRange (extent : Extent) : Answer PartitionRange := do
  let sectors ← Words.okOr (if extent.firstLba ≤ extent.lastLba then
    Words.checkedAdd 64 (extent.lastLba - extent.firstLba) 1 else none) .partitionBounds
  pure ⟨extent.firstLba, sectors⟩

def Noted.note (noted : Noted) (extent : Extent) : Answer Noted := do
  let count ← Words.add 64 noted.count 1
  let range ← partitionRange extent
  pure ⟨some range, count⟩

/-- The slot of a system type: `[SYSTEM_A_TYPE_GUID, SYSTEM_B_TYPE_GUID].iter().position(..)`. -/
def systemSlot (type : List UInt8) : Option SystemSlot :=
  if bytesEqual type systemATypeGuid then some .a
  else if bytesEqual type systemBTypeGuid then some .b
  else none

def Scan.noteType (scan : Scan) (type : List UInt8) (extent : Extent) : Answer Scan :=
  if bytesEqual type userDataTypeGuid then do
    let noted ← scan.userData.note extent
    pure { scan with userData := noted }
  else
    match systemSlot type with
    | some index => do
      let noted ← (scan.systemSlots index).note extent
      pure { scan with systemSlots := Function.update scan.systemSlots index noted }
    | none =>
      if bytesEqual type modelStoreTypeGuid then do
        let noted ← scan.modelStore.note extent
        pure { scan with modelStore := noted }
      else pure scan

def checkAgainst (extent : Extent) (previous : Option Extent) : Answer Unit :=
  match previous with
  | none => pure ()
  | some previous =>
    if bytesEqual extent.uniqueGuid previous.uniqueGuid then reject .duplicateGuid
    else if extent.firstLba ≤ previous.lastLba ∧ previous.firstLba ≤ extent.lastLba then reject .partitionOverlap
    else pure ()

def entryAt (bytes : Sector) (slot : Nat) : Entry := fun i => bytes.byte (slot * entrySize + i.val)

def extentOf (entry : Entry) : Extent := ⟨entry.number 32 8, entry.number 40 8, entry.slice 16 16⟩

def scanEntry (primary : Header) (scan : Scan) (index : Nat) (entry : Entry) : Answer Scan :=
  if guidIsZero (entry.slice 0 16) then
    if (entry.slice 0 entrySize).any fun byte => byte ≠ 0 then reject .entryArray else pure scan
  else if guidIsZero (entry.slice 16 16) then reject .entryArray
  else
    let extent := extentOf entry
    if extent.firstLba < primary.firstUsableLba ∨ extent.firstLba > extent.lastLba ∨
        extent.lastLba > primary.lastUsableLba then
      reject .partitionBounds
    else do
      (List.finRange entryCount).forM fun other => checkAgainst extent (scan.extents other)
      if inside : index < entryCount then
        Scan.noteType { scan with extents := Function.update scan.extents ⟨index, inside⟩ (some extent) }
          (entry.slice 0 16) extent
      else .error .panicked

def slotsPerSector : Nat := sectorSize / entrySize

def scanSector (primary : Header) (scan : Scan) (sectorIndex : Nat) : Answer Scan := do
  let lba ← Words.add 64 primary.entriesLba sectorIndex
  let bytes ← disk.readSector lba
  (List.range slotsPerSector).foldlM
    (fun scan slot => scanEntry primary scan (sectorIndex * slotsPerSector + slot) (entryAt bytes slot))
    { scan with crc := crc32Update scan.crc (bytes.slice 0 sectorSize) }

def scanArray (primary : Header) : Answer Scan := do
  let scan ← (List.range entryArraySectors).foldlM (scanSector disk primary) .start
  if (crc32Finish scan.crc).toNat ≠ primary.entriesCrc then reject .entryChecksum else pure scan

def compareSector (primary backup : Header) (crc : BitVec 32) (sectorIndex : Nat) : Answer (BitVec 32) := do
  let lba ← Words.add 64 backup.entriesLba sectorIndex
  let bytes ← disk.readSector lba
  let primaryLba ← Words.add 64 primary.entriesLba sectorIndex
  let primaryCopy ← disk.readSector primaryLba
  if !bytesEqual (bytes.slice 0 sectorSize) (primaryCopy.slice 0 sectorSize) then reject .entryArray
  else pure (crc32Update crc (bytes.slice 0 sectorSize))

def compareArrays (primary backup : Header) : Answer Unit := do
  let crc ← (List.range entryArraySectors).foldlM (compareSector disk primary backup) (BitVec.allOnes 32)
  if (crc32Finish crc).toNat ≠ primary.entriesCrc then reject .entryChecksum else pure ()

/-- An ambiguous slot type exposes neither copy. -/
def Noted.single (noted : Noted) : Option PartitionRange := if noted.count = 1 then noted.range else none

def Scan.layout (scan : Scan) : Answer PartitionLayout :=
  if scan.userData.count = 0 then reject .missingUserData
  else if scan.userData.count ≠ 1 then reject .multipleUserData
  else if scan.modelStore.count > 1 then reject .multipleModelStore
  else do
    let userData ← Words.okOr scan.userData.range .missingUserData
    pure ⟨userData, scan.modelStore.range, (scan.systemSlots .a).single, (scan.systemSlots .b).single⟩

def findPartitions (diskSectors : UInt64) : Answer PartitionLayout :=
  if diskSectors.toNat < entryArraySectors + 4 then reject .header
  else do
    let mbr ← disk.readSector 0
    validateProtectiveMbr mbr diskSectors.toNat
    let backupLba ← Words.sub diskSectors.toNat 1
    let primary ← readPrimary disk backupLba
    let backup ← readBackup disk backupLba primary
    let scan ← scanArray disk primary
    compareArrays disk primary backup
    scan.layout

end Nagi.Kernel.Gpt
