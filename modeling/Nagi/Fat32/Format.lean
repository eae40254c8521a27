import Nagi.Lib.Bytes
import Nagi.Lib.Calls
import Nagi.Lib.Words

/-! The formatter of FAT32 volumes.

A device is an array of sectors of which the first `limit` can be reached. It keeps the writes it has taken. Where a
plain operation on numbers could overflow, the model stops as the source would. -/

namespace Nagi.Fat32

open Lib ByteBlock List

def sectorSize : Nat := 512
def maxRootFiles : Nat := 8
def reservedSectors : Nat := 32
def fatCount : Nat := 2
def fsinfoSectorIndex : Nat := 1
def backupBootSector : Nat := 6
def rootCluster : Nat := 2
def fat32Eoc : Nat := 0x0fffffff
def fat32EocMin : Nat := 0x0ffffff8
def minFat32Clusters : Nat := 65525
def maxFat32Clusters : Nat := 0x0fffffef
def entriesPerFatSector : Nat := sectorSize / 4

inductive FatError where
  | device
  | geometry
  | files
  | space
  | invalidVolume
  | notFound
  | outOfRange
  deriving DecidableEq

abbrev Answer (α : Type) := Except (Fault FatError) α

def reject {α : Type} (reason : FatError) : Answer α := .error (.error reason)

abbrev Sector := ByteBlock 512

abbrev Write := Nat × Sector

structure Device where
  limit : Nat
  sectors : Nat → Sector
  /-- The writes that went through, in order. -/
  writes : List Write

def Device.Holds (device : Device) (sector : Nat) (bytes : Sector) : Prop :=
  sector < device.limit ∧ device.sectors sector = bytes

abbrev Format (α : Type) := EStateM (Fault FatError) Device α

def writeSector (sector : Nat) (bytes : Sector) : Format Unit := do
  let device ← get
  if sector < device.limit then
    set { device with
      sectors := Function.update device.sectors sector bytes
      writes := device.writes ++ [(sector, bytes)] }
  else
    throw (.error .device)

/-- Eleven bytes, as in a directory: eight for the name and three for its extension. -/
structure Name where
  bytes : List UInt8
  size : bytes.length = 11
  deriving DecidableEq

structure RootFile where
  name : Name
  contents : List UInt8

def validPart (part : List UInt8) : Bool :=
  part.all fun byte => (0x41 ≤ byte ∧ byte ≤ 0x5a) ∨ (0x30 ≤ byte ∧ byte ≤ 0x39) ∨ byte = 0x5f

def nameParts (name : List UInt8) : List UInt8 × List UInt8 :=
  match name.findIdx? (· == 0x2e) with
  | some dot => (name.take dot, name.drop (dot + 1))
  | none => (name, [])

def shortName (name : List UInt8) : Option Name :=
  let base := (nameParts name).1
  let extension := (nameParts name).2
  if bad : base = [] ∨ base.length > 8 ∨ extension.length > 3 ∨ ¬validPart base ∨ ¬validPart extension then none
  else
    some ⟨base ++ replicate (8 - base.length) 0x20 ++ (extension ++ replicate (3 - extension.length) 0x20), by
      simp only [length_append, length_replicate]
      omega⟩

structure Geometry where
  totalSectors : Nat
  sectorsPerCluster : Nat
  fatSectors : Nat
  clusterCount : Nat
  deriving DecidableEq

namespace Geometry

def search (totalSectors sectorsPerCluster : Nat) : Nat → Nat → Answer Geometry
  | 0, _ => reject .geometry
  | rounds + 1, fatSectors => do
    let tables ← Words.okOr (Words.checkedMul 32 fatCount fatSectors) .geometry
    let overhead ← Words.okOr (Words.checkedAdd 32 reservedSectors tables) .geometry
    if overhead ≥ totalSectors then
      reject .geometry
    let clusters := (totalSectors - overhead) / sectorsPerCluster
    let entries ← Words.add 32 clusters 2
    let required := (entries + entriesPerFatSector - 1) / entriesPerFatSector
    if required = fatSectors then
      if clusters < minFat32Clusters ∨ clusters > maxFat32Clusters then
        reject .geometry
      return ⟨totalSectors, sectorsPerCluster, fatSectors, clusters⟩
    else
      search totalSectors sectorsPerCluster rounds required

def compute (totalSectors sectorsPerCluster : Nat) : Answer Geometry := do
  if sectorsPerCluster = 0 ∨ sectorsPerCluster > 128 ∨ ¬Words.isPowerOfTwo sectorsPerCluster then
    reject .geometry
  search totalSectors sectorsPerCluster 16 1

variable (geometry : Geometry)

def firstDataSector : Nat := reservedSectors + fatCount * geometry.fatSectors
def clusterBytes : Nat := geometry.sectorsPerCluster * sectorSize

def clusterStart (cluster : Nat) : Nat :=
  geometry.firstDataSector + (cluster - 2) * geometry.sectorsPerCluster

def clusterSector (cluster : Nat) : Answer Nat := do
  let stop ← Words.add 32 geometry.clusterCount 2
  if cluster < 2 ∨ cluster ≥ stop then
    reject .invalidVolume
  return geometry.clusterStart cluster

end Geometry

structure Placement where
  firstCluster : Nat
  clusters : Nat
  deriving DecidableEq

def validateFiles : List RootFile → List RootFile → Answer Unit
  | _, [] => .ok ()
  | earlier, file :: rest => do
    if file.contents = [] ∨ file.contents.length ≥ 2 ^ 32 ∨ earlier.any (·.name = file.name) then
      reject .files
    validateFiles (earlier ++ [file]) rest

def divCeil (total part : Nat) : Nat := (total + part - 1) / part

def place (geometry : Geometry) : Nat → List RootFile → Answer (List Placement × Nat)
  | next, [] => .ok ([], next)
  | next, file :: rest => do
    let clusters := divCeil file.contents.length geometry.clusterBytes
    if clusters ≥ 2 ^ 32 then
      reject .space
    let stop ← Words.okOr (Words.checkedAdd 32 next clusters) .space
    let limit ← Words.add 32 geometry.clusterCount 2
    if stop > limit then
      reject .space
    let (placements, last) ← place geometry stop rest
    return (⟨next, clusters⟩ :: placements, last)

def fileSector (contents : List UInt8) (index : Nat) : Sector :=
  zero.put 0 ((contents.drop (index * sectorSize)).take sectorSize)

variable (geometry : Geometry)

def writeFile (placed : Placement × RootFile) : Format Unit := do
  let first ← demand (geometry.clusterSector placed.1.firstCluster)
  (range (divCeil placed.2.contents.length sectorSize)).forM fun index =>
    writeSector (first + index) (fileSector placed.2.contents index)

def fatEntry (cluster : Nat) (placements : List Placement) : Nat :=
  if cluster = 0 then 0x0ffffff8
  else if cluster = 1 ∨ cluster = rootCluster then fat32Eoc
  else
    match placements.find? fun placement =>
        placement.firstCluster ≤ cluster ∧ cluster < placement.firstCluster + placement.clusters with
    | none => 0
    | some placement =>
      if cluster + 1 = placement.firstCluster + placement.clusters then fat32Eoc else cluster + 1

def fatSector (placements : List Placement) (index : Nat) : Sector :=
  zero.putAll ((range entriesPerFatSector).map fun slot =>
    (slot * 4, leBytes 4 (fatEntry (index * entriesPerFatSector + slot) placements)))

def writeFat (placements : List Placement) (fat : Nat) : Format Unit :=
  (range geometry.fatSectors).forM fun index =>
    writeSector (reservedSectors + fat * geometry.fatSectors + index) (fatSector placements index)

abbrev DirectoryEntry := ByteBlock 32

variable (label : Name)

def labelFields : List (Nat × List UInt8) := [(0, label.bytes), (11, [0x08])]

def labelEntry : DirectoryEntry := zero.putAll (labelFields label)

/-- The number of the first cluster is split over two fields. -/
def fileFields (placed : Placement × RootFile) : List (Nat × List UInt8) :=
  [(0, placed.2.name.bytes), (11, [0x20]), (20, leBytes 2 (placed.1.firstCluster / 2 ^ 16)),
    (26, leBytes 2 placed.1.firstCluster), (28, leBytes 4 placed.2.contents.length)]

def fileEntry (placed : Placement × RootFile) : DirectoryEntry := zero.putAll (fileFields placed)

def rootEntries (placed : List (Placement × RootFile)) : List DirectoryEntry :=
  labelEntry label :: placed.map fileEntry

def rootSector (placed : List (Placement × RootFile)) : Sector :=
  zero.putAll ((rootEntries label placed).mapIdx fun position entry => (32 * position, entry.slice 0 32))

def writeRoot (placed : List (Placement × RootFile)) : Format Unit := do
  let rootFirst ← demand (geometry.clusterSector rootCluster)
  (range geometry.sectorsPerCluster).forM fun index =>
    writeSector (rootFirst + index) (if index = 0 then rootSector label placed else zero)

def fsinfoSector (nextFree : Nat) : Sector :=
  zero.putAll [
    (0, leBytes 4 0x41615252), (484, leBytes 4 0x61417272),
    (488, leBytes 4 (geometry.clusterCount - (nextFree - 2))), (492, leBytes 4 nextFree),
    (508, leBytes 4 0xaa550000)]

def bootFields : List (Nat × List UInt8) :=
  [(0, [0xeb, 0x58, 0x90]), (3, [0x4e, 0x41, 0x47, 0x49, 0x4f, 0x53, 0x20, 0x20]),
    (11, leBytes 2 sectorSize), (13, leBytes 1 geometry.sectorsPerCluster), (14, leBytes 2 reservedSectors),
    (16, leBytes 1 fatCount), (21, [0xf8]), (24, leBytes 2 63), (26, leBytes 2 255),
    (32, leBytes 4 geometry.totalSectors), (36, leBytes 4 geometry.fatSectors), (44, leBytes 4 rootCluster),
    (48, leBytes 2 fsinfoSectorIndex), (50, leBytes 2 backupBootSector), (64, [0x80]), (66, [0x29]),
    (67, leBytes 4 (geometry.totalSectors ^^^ 0x4e414749)), (71, label.bytes),
    (82, [0x46, 0x41, 0x54, 0x33, 0x32, 0x20, 0x20, 0x20]), (510, [0x55, 0xaa])]

def bootSector : Sector := zero.putAll (bootFields geometry label)

def plan (totalSectors sectorsPerCluster : Nat) (files : List RootFile) : Answer (Geometry × List Placement × Nat) := do
  let geometry ← Geometry.compute totalSectors sectorsPerCluster
  if files.length > maxRootFiles then
    reject .files
  validateFiles [] files
  let (placements, next) ← place geometry (rootCluster + 1) files
  return (geometry, placements, next)

/-- A volume that is being written has no boot sector until the last write. -/
def format (totalSectors sectorsPerCluster : UInt32) (label : Name) (files : List RootFile) : Format Unit := do
  let (geometry, placements, next) ← demand (plan totalSectors.toNat sectorsPerCluster.toNat files)
  writeSector 0 zero
  writeSector backupBootSector zero
  (placements.zip files).forM (writeFile geometry)
  (range fatCount).forM (writeFat geometry placements)
  writeRoot geometry label (placements.zip files)
  writeSector fsinfoSectorIndex (fsinfoSector geometry next)
  writeSector (backupBootSector + fsinfoSectorIndex) (fsinfoSector geometry next)
  writeSector backupBootSector (bootSector geometry label)
  writeSector 0 (bootSector geometry label)

end Nagi.Fat32
