import Nagi.Fat32.Format

/-! The reader of files in the root directory. The sectors that it asks for are noted. -/

namespace Nagi.Fat32

open Lib

def parseBootSector (boot : Sector) (volumeSectors : Nat) : Answer Geometry := do
  if boot.slice 510 2 ≠ [0x55, 0xaa] ∨ boot.number 11 2 ≠ sectorSize ∨ boot.number 17 2 ≠ 0 ∨ boot.number 22 2 ≠ 0 then
    reject .invalidVolume
  let sectorsPerCluster := boot.number 13 1
  let reserved := boot.number 14 2
  let fats := boot.number 16 1
  let totalSectors := boot.number 32 4
  let fatSectors := boot.number 36 4
  if reserved ≠ reservedSectors ∨ fats ≠ fatCount ∨ totalSectors > volumeSectors then
    reject .invalidVolume
  match Geometry.compute totalSectors sectorsPerCluster with
  | .ok geometry => if geometry.fatSectors ≠ fatSectors then reject .invalidVolume else .ok geometry
  | .error (.error _) => reject .invalidVolume
  | .error fault => .error fault

/-- A call that reads. Its state is the sectors it has asked for, and what is kept beside them. -/
abbrev Reading (σ α : Type) := EStateM (Fault FatError) (List Nat × σ) α

variable {σ : Type}

def Device.readSector (device : Device) (sector : Nat) : Reading σ Sector := do
  modify fun (requests, kept) => (requests ++ [sector], kept)
  if sector < device.limit then pure (device.sectors sector) else throw (.error .device)

theorem Device.readSector_apply (device : Device) (sector : Nat) (state : List Nat × σ) :
    device.readSector sector state =
      if sector < device.limit then .ok (device.sectors sector) (state.1 ++ [sector], state.2)
      else .error (.error .device) (state.1 ++ [sector], state.2) := by
  change (if sector < device.limit then _ else _ : Reading σ Sector) _ = _
  split <;> rfl

theorem Device.Holds.gives {device : Device} {sector : Nat} {bytes : Sector} (holds : device.Holds sector bytes) :
    Gives Prod.snd (device.readSector sector : Reading σ Sector) (.ok bytes) := by
  intro state
  rw [settle, device.readSector_apply, if_pos holds.1, holds.2]
  exact ⟨rfl, rfl⟩

def nextCluster (device : Device) (geometry : Geometry) (cluster : Nat) : Reading σ (Option Nat) := do
  let sector ← device.readSector (reservedSectors + cluster / entriesPerFatSector)
  let value := sector.number (cluster % entriesPerFatSector * 4) 4 &&& 0x0fffffff
  if value ≥ fat32EocMin then
    return none
  let stop ← Words.add 32 geometry.clusterCount 2
  if value < 2 ∨ value ≥ stop then
    throw (.error .invalidVolume)
  return some value

structure RootFileReader where
  geometry : Geometry
  firstCluster : Nat
  size : Nat
  deriving DecidableEq

inductive Scan where
  | passed
  | missing
  | found (firstCluster size : Nat)
  deriving DecidableEq

def scanEntry (name : Name) (entry : DirectoryEntry) : Scan :=
  if entry.byte 0 = 0 then .missing
  else if entry.byte 0 = 0xe5 ∨ entry.byte 11 &&& 0x18 ≠ 0 ∨ entry.slice 0 11 ≠ name.bytes then .passed
  else .found (entry.number 20 2 <<< 16 ||| entry.number 26 2) (entry.number 28 4)

def scanEntries (name : Name) : List DirectoryEntry → Scan
  | [] => .passed
  | entry :: rest =>
    match scanEntry name entry with
    | .passed => scanEntries name rest
    | result => result

def entryAt (sector : Sector) (position : Nat) : DirectoryEntry := fun i => sector.byte (32 * position + i.val)

def entries (sector : Sector) : List DirectoryEntry := (List.range (sectorSize / 32)).map (entryAt sector)

def scanSectors (device : Device) (name : Name) : List Nat → Reading σ Scan
  | [] => return .passed
  | sector :: rest => do
    let bytes ← device.readSector sector
    match scanEntries name (entries bytes) with
    | .passed => scanSectors device name rest
    | result => return result

def openFrom (device : Device) (geometry : Geometry) (name : Name) : Nat → Nat → Reading σ RootFileReader
  | 0, _ => throw (.error .invalidVolume)
  | rounds + 1, cluster => do
    let first ← demand (geometry.clusterSector cluster)
    match ← scanSectors device name ((List.range geometry.sectorsPerCluster).map (first + ·)) with
    | .missing => throw (.error .notFound)
    | .found firstCluster size => return ⟨geometry, firstCluster, size⟩
    | .passed =>
      match ← nextCluster device geometry cluster with
      | some next => openFrom device geometry name rounds next
      | none => throw (.error .notFound)

def openVolume (device : Device) (volumeSectors : Nat) (name : Name) : Reading σ RootFileReader := do
  let boot ← device.readSector 0
  let geometry ← demand (parseBootSector boot volumeSectors)
  openFrom device geometry name 16 (boot.number 44 4 &&& 0x0fffffff)

/-- `RootFileReader::open` of the source, and the sectors it asks for. -/
def openFile (device : Device) (volumeSectors : Nat) (name : Name) : Answer RootFileReader × List Nat :=
  (settle (openVolume device volumeSectors name) ([], ())).map id Prod.fst

section Chunks
variable (device : Device) (sink : List UInt8 → EStateM (Fault FatError) σ Unit)

def toSink (chunk : List UInt8) : Reading σ Unit := fun (requests, kept) =>
  match sink chunk kept with
  | .ok () kept => .ok () (requests, kept)
  | .error fault kept => .error fault (requests, kept)

/-- The sectors of a cluster that are left, as far as the file goes; the answer is what remains of the file. -/
def readSectors : Nat → Nat → Nat → Reading σ Nat
  | _, 0, remaining => pure remaining
  | sector, count + 1, remaining =>
    if remaining = 0 then pure 0
    else do
      let bytes ← device.readSector sector
      let taken := min remaining sectorSize
      toSink sink (bytes.slice 0 taken)
      readSectors (sector + 1) count (remaining - taken)

/-- The chain of a file from a cluster on. Each round reads at least one byte, so that `fuel` rounds are enough for a
file of that many bytes. -/
def readChain (geometry : Geometry) : Nat → Nat → Nat → Reading σ Unit
  | fuel, cluster, remaining =>
    if remaining = 0 then pure ()
    else
      match fuel with
      | 0 => throw .diverged
      | fuel + 1 => do
        let first ← demand (geometry.clusterSector cluster)
        let remaining ← readSectors device sink first geometry.sectorsPerCluster remaining
        if remaining = 0 then pure ()
        else do
          let next ← nextCluster device geometry cluster
          let cluster ← Words.okOr next .invalidVolume
          readChain geometry fuel cluster remaining

def forEachChunk (file : RootFileReader) : Reading σ Unit :=
  readChain device sink file.geometry file.size file.firstCluster file.size

end Chunks

def copyChunk (chunk : List UInt8) : EStateM (Fault FatError) (List UInt8 × Nat) Unit := do
  let (output, offset) ← get
  if offset + chunk.length ≤ output.length then
    set (output.take offset ++ chunk ++ output.drop (offset + chunk.length), offset + chunk.length)
  else
    throw .panicked

/-- The answer with what the output holds then, and the sectors that were asked for. -/
def readAll (device : Device) (file : RootFileReader) (output : List UInt8) : (Answer Nat × List UInt8) × List Nat :=
  if output.length < file.size then ((reject .outOfRange, output), [])
  else
    match forEachChunk device copyChunk file ([], output, 0) with
    | .ok _ (requests, output, offset) => ((.ok offset, output), requests)
    | .error fault (requests, output, _) => ((.error fault, output), requests)

end Nagi.Fat32
