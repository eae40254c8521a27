import Nagi.Fat32.Capacity
import Nagi.Fat32.RoundTrip

/-! The reader on a volume that may hold anything.

It asks for sectors of the volume only. A device refuses the sectors behind its
limit, so one that has all sectors of the volume refuses nothing. -/

namespace Nagi.Fat32

open Lib Checks Words List

/-- An error that is reported, and one of the device only if that has not all of the sectors. -/
def Reports (device : Device) (sectors : Nat) (fault : Fault FatError) : Prop :=
  ∃ reason, fault = .error reason ∧ (reason = .device → device.limit < sectors)

variable {σ : Type} {device : Device} {sectors : Nat} {geometry : Geometry} {cluster : Nat}

theorem Reports.rejected {reason : FatError} (other : reason ≠ .device) : Reports device sectors (.error reason) :=
  ⟨reason, rfl, fun same => absurd same other⟩

/-- A call that asks only for sectors below a bound and does not touch what is kept. -/
def Within {α : Type} (device : Device) (sectors : Nat) (Post : α → Prop) (call : Reading σ α) : Prop :=
  Keeps Prod.snd (fun state => ∀ sector ∈ state.1, sector < sectors) (Reports device sectors) Post call

theorem within_readSector {sector : Nat} (inside : sector < sectors) :
    Within device sectors (fun _ => True) (device.readSector sector : Reading σ Sector) := by
  intro state asked
  have more : ∀ request ∈ state.1 ++ [sector], request < sectors :=
    forall_mem_append.mpr ⟨asked, forall_mem_singleton.mpr inside⟩
  have read := device.readSector_apply sector state
  by_cases here : sector < device.limit
  · rw [if_pos here] at read
    exact .of_ok read ⟨more, rfl, .ok trivial⟩
  · rw [if_neg here] at read
    exact .of_error read ⟨more, rfl, .error ⟨.device, rfl, fun _ => by omega⟩⟩

theorem meets_parseBootSector (boot : Sector) (volumeSectors : Nat) :
    Meets (Reports device sectors) (fun geometry => geometry.Sound ∧ geometry.totalSectors ≤ volumeSectors)
      (parseBootSector boot volumeSectors) := by
  refine .ite (.rejected nofun) fun _ => .ite (.rejected nofun) fun fits => ?_
  push Not at fits
  dsimp only
  split
  · next geometry computed =>
    obtain ⟨sound, same, _⟩ := Geometry.compute_sound computed
    exact .ite (.rejected nofun) fun _ => .ok ⟨sound, same ▸ fits.2.2⟩
  · exact .error (.rejected nofun)
  · next fault unreported computed =>
    have word : boot.number 32 4 < 2 ^ 32 := by
      simpa [ByteBlock.number, ByteBlock.length_slice] using leValue_lt (boot.slice 32 4)
    have reports : Meets Fault.Reported (fun _ => True) (Geometry.compute (boot.number 32 4) (boot.number 13 1)) :=
      .ite ⟨_, rfl⟩ fun _ => Geometry.search_reports word 16
    obtain ⟨reason, rfl⟩ := reports.failed fault computed
    exact absurd rfl (unreported reason)

section
variable (sound : geometry.Sound)
include sound

theorem meets_clusterSector (cluster : Nat) :
    Meets (Reports device sectors) (fun first => cluster < geometry.clusterCount + 2 ∧
      first + geometry.sectorsPerCluster ≤ geometry.totalSectors) (geometry.clusterSector cluster) := by
  have few := sound.atMost
  unfold maxFat32Clusters at few
  unfold Geometry.clusterSector
  rw [add_bind (by omega)]
  refine .ite (.rejected nofun) fun inside => .ok ?_
  push Not at inside
  have next : geometry.clusterStart (cluster + 1) ≤ geometry.totalSectors := sound.clusterStart_le inside.2
  rw [clusterStart_add inside.1, Nat.one_mul] at next
  exact ⟨inside.2, next⟩

variable (within : geometry.totalSectors ≤ sectors)
include within

theorem within_nextCluster (below : cluster < geometry.clusterCount + 2) :
    Within device sectors (fun _ => True) (nextCluster device geometry cluster : Reading σ _) := by
  have few := sound.atMost
  have table : reservedSectors + cluster / entriesPerFatSector < sectors := by
    have inVolume := sound.inVolume
    have tables := sound.tables
    unfold Geometry.firstDataSector fatCount at inVolume
    unfold divCeil entriesPerFatSector sectorSize at tables
    unfold entriesPerFatSector sectorSize
    omega
  refine (within_readSector table).bind fun sector _ => ?_
  dsimp only
  split
  · exact .pure trivial
  · unfold maxFat32Clusters at few
    rw [add_bind (by omega)]
    split
    · exact .throw (.rejected (by decide))
    · exact .pure trivial

omit sound within in
theorem within_scanSectors (name : Name) {places : List Nat} (inside : ∀ place ∈ places, place < sectors) :
    Within device sectors (fun _ => True) (scanSectors device name places : Reading σ _) := by
  induction places with
  | nil => exact .pure trivial
  | cons place rest ih =>
    obtain ⟨here, later⟩ := forall_mem_cons.mp inside
    refine (within_readSector here).bind fun bytes _ => ?_
    split
    · exact ih later
    · exact .pure trivial

theorem within_openFrom (name : Name) (rounds cluster : Nat) :
    Within device sectors (fun file => file.geometry = geometry)
      (openFrom device geometry name rounds cluster : Reading σ _) := by
  induction rounds generalizing cluster with
  | zero => exact .throw (.rejected (by decide))
  | succ rounds ih =>
    refine .demand_bind (meets_clusterSector sound cluster) fun first ⟨below, place⟩ => ?_
    refine (within_scanSectors name ?_).bind fun scan _ => ?_
    · simp only [mem_map, mem_range]
      rintro _ ⟨index, here, rfl⟩
      omega
    cases scan with
    | missing => exact .throw (.rejected (by decide))
    | found firstCluster size => exact .pure rfl
    | passed =>
      refine (within_nextCluster sound within below).bind fun next _ => ?_
      cases next with
      | none => exact .throw (.rejected (by decide))
      | some next => exact ih next

end

theorem within_openVolume (device : Device) (volumeSectors : Nat) (name : Name) :
    Within device (max 1 volumeSectors)
      (fun file => file.geometry.Sound ∧ file.geometry.totalSectors ≤ volumeSectors)
      (openVolume device volumeSectors name : Reading σ _) := by
  refine (within_readSector (Nat.le_max_left 1 _)).bind fun boot _ => ?_
  refine .demand_bind (meets_parseBootSector boot volumeSectors) fun geometry parsed => ?_
  refine (within_openFrom parsed.1 (Nat.le_trans parsed.2 (Nat.le_max_right 1 _)) name 16 _).mono fun file same => ?_
  exact same ▸ parsed

section
variable {sink : List UInt8 → EStateM (Fault FatError) σ Unit} {P : Nat → σ → Prop}
variable (takes : ∀ remaining chunk state, chunk.length ≤ remaining → P remaining state →
  ∃ after, sink chunk state = .ok () after ∧ P (remaining - chunk.length) after)
include takes

theorem ensures_readSectors {sector count remaining : Nat} {state : List Nat × σ} (inside : sector + count ≤ sectors)
    (asked : ∀ sector ∈ state.1, sector < sectors) (holds : P remaining state.2) :
    Ensures (readSectors device sink sector count remaining) state fun result after =>
      (∀ sector ∈ after.1, sector < sectors) ∧ match result with
        | .ok left => P left after.2 ∧ left ≤ remaining - count
        | .error fault => Reports device sectors fault := by
  induction count generalizing sector remaining state with
  | zero => exact .of_ok rfl ⟨asked, holds, Nat.le_refl _⟩
  | succ count ih =>
    unfold readSectors
    split
    · next done => exact .of_ok rfl ⟨asked, done ▸ holds, Nat.zero_le _⟩
    refine (within_readSector (by omega) state asked).bind (fun bytes between mid => ?_) fun fault between mid => ?_
    · obtain ⟨asked, same, _⟩ := mid
      have size : (bytes.slice 0 (min remaining sectorSize)).length = min remaining sectorSize := ByteBlock.length_slice
      obtain ⟨after, taken, holds⟩ := takes remaining _ between.2 (size ▸ Nat.min_le_left _ _) (same ▸ holds)
      rw [size] at holds
      have some : 0 < sectorSize := by decide
      have rest := @ih (sector + 1) _ (between.1, after) (by omega) asked holds
      refine .ok_bind (toSink_ok taken between.1) (rest.mono fun result last => ?_)
      refine And.imp_right fun kept => ?_
      cases result with
      | error fault => exact kept
      | ok left => exact kept.imp_right fun less => by omega
    · exact ⟨mid.1, mid.2.2.failed fault rfl⟩

/-- The bytes that are left bound the rounds, whatever the chain looks like. -/
theorem ensures_readChain (sound : geometry.Sound) (within : geometry.totalSectors ≤ sectors)
    {fuel cluster remaining : Nat} {state : List Nat × σ} (enough : remaining ≤ fuel)
    (asked : ∀ sector ∈ state.1, sector < sectors) (holds : P remaining state.2) :
    Ensures (readChain device sink geometry fuel cluster remaining) state fun result after =>
      (∀ sector ∈ after.1, sector < sectors) ∧ match result with
        | .ok _ => P 0 after.2
        | .error fault => Reports device sectors fault := by
  induction fuel generalizing cluster remaining state with
  | zero =>
    obtain rfl := Nat.le_zero.mp enough
    exact .of_ok rfl ⟨asked, holds⟩
  | succ fuel ih =>
    unfold readChain
    split
    · next done => exact .of_ok rfl ⟨asked, done ▸ holds⟩
    refine .demand_bind (meets_clusterSector sound cluster) (fun _ reports => ⟨asked, reports⟩) fun first placed => ?_
    obtain ⟨below, place⟩ := placed
    refine (ensures_readSectors takes (Nat.le_trans place within) asked holds).bind (fun left after kept => ?_)
      fun _ _ failed => failed
    obtain ⟨asked, holds, fewer⟩ := kept
    split
    · next done => exact .of_ok rfl ⟨asked, done ▸ holds⟩
    refine (within_nextCluster sound within below after asked).bind
      (fun next between mid => ?_) fun fault between mid => ?_
    · have positive := sound.positive
      cases next with
      | none => exact .of_error rfl ⟨mid.1, .rejected (by decide)⟩
      | some next => exact ih (by omega) mid.1 (mid.2.1 ▸ holds)
    · exact ⟨mid.1, mid.2.2.failed fault rfl⟩

end

def collectChunk (chunk : List UInt8) : EStateM (Fault FatError) (List (List UInt8)) Unit := fun chunks =>
  .ok () (chunks ++ [chunk])

/-- On a volume that may hold anything, opening a file and reading it ends, asks for sectors of the volume only, apart
from the boot sector, and gives as many bytes as the directory says. -/
theorem reader_bounded (device : Device) (volumeSectors : Nat) (name : Name) :
    (∀ sector ∈ (openFile device volumeSectors name).2, sector < max 1 volumeSectors) ∧
    match (openFile device volumeSectors name).1 with
    | .error fault => Reports device (max 1 volumeSectors) fault
    | .ok file =>
      (match forEachChunk device collectChunk file ([], []) with
        | .ok _ (requests, chunks) =>
          (∀ sector ∈ requests, sector < volumeSectors) ∧ chunks.flatten.length = file.size
        | .error fault (requests, _) =>
          (∀ sector ∈ requests, sector < volumeSectors) ∧ Reports device volumeSectors fault) ∧
      ∀ output, (∀ sector ∈ (readAll device file output).2, sector < volumeSectors) ∧
        match (readAll device file output).1.1 with
        | .ok size => size = file.size
        | .error fault => Reports device volumeSectors fault := by
  obtain ⟨asked, _, opened⟩ := within_openVolume device volumeSectors name ([], ()) (forall_mem_nil _)
  refine ⟨asked, ?_⟩
  change Meets _ _ (openFile device volumeSectors name).1 at opened
  split
  · next fault failed => exact opened.failed fault failed
  next file found =>
  obtain ⟨sound, within⟩ := opened.passed file found
  constructor
  · have collected : Ensures (forEachChunk device collectChunk file) ([], []) _ := ensures_readChain
      (P := fun remaining chunks => chunks.flatten.length + remaining = file.size)
      (fun remaining chunk chunks fits holds =>
        ⟨_, rfl, by simp only [flatten_append, length_append, flatten_singleton]; omega⟩)
      sound within (Nat.le_refl _) (forall_mem_nil _) (Nat.zero_add _)
    rw [Ensures, settle] at collected
    cases called : forEachChunk device collectChunk file ([], []) with
    | ok _ chunks | error fault chunks =>
      rw [called] at collected
      exact collected
  · intro output
    rw [readAll]
    by_cases room : output.length < file.size
    · rw [if_pos room]
      exact ⟨forall_mem_nil _, .rejected (by decide)⟩
    rw [if_neg room]
    have copied : Ensures (forEachChunk device copyChunk file) ([], output, 0) _ := ensures_readChain
      (P := fun remaining kept => kept.2 + remaining = file.size ∧ file.size ≤ kept.1.length) ?_
      sound within (Nat.le_refl _) (forall_mem_nil _) ⟨Nat.zero_add _, Nat.not_lt.mp room⟩
    · rw [Ensures, settle] at copied
      cases called : forEachChunk device copyChunk file ([], output, 0) with
      | ok _ kept =>
        rw [called] at copied
        exact ⟨copied.1, copied.2.1⟩
      | error fault kept =>
        rw [called] at copied
        exact copied
    · rintro remaining chunk ⟨kept, offset⟩ fits ⟨sum, room⟩
      rw [copyChunk_eq, if_pos (by dsimp only at sum room; omega)]
      refine ⟨_, rfl, ?_⟩
      dsimp only at sum room ⊢
      simp only [length_append, length_take, length_drop]
      omega

/-- The boot sector is asked for also if the volume has no sector. -/
theorem empty_volume_read : openFile ⟨0, fun _ => ByteBlock.zero, []⟩ 0 helloName = (reject .device, [0]) := rfl

end Nagi.Fat32
