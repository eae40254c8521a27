import Nagi.Fat32.Format
import Nagi.Lib.Table

/-! Where a formatted volume keeps what.

Behind the invalidation every sector is written once, so that each write is found on the finished volume. -/

namespace Nagi.Fat32

open Lib Checks Words List Nat

structure Geometry.Sound (geometry : Geometry) : Prop where
  positive : 0 < geometry.sectorsPerCluster
  small : geometry.sectorsPerCluster ≤ 128
  inVolume : geometry.firstDataSector < geometry.totalSectors
  clusters : geometry.clusterCount = (geometry.totalSectors - geometry.firstDataSector) / geometry.sectorsPerCluster
  atLeast : minFat32Clusters ≤ geometry.clusterCount
  atMost : geometry.clusterCount ≤ maxFat32Clusters
  tables : divCeil (geometry.clusterCount + 2) entriesPerFatSector = geometry.fatSectors

namespace Geometry

variable {totalSectors sectorsPerCluster : Nat} {geometry : Geometry}

theorem search_sound (positive : 0 < sectorsPerCluster) (small : sectorsPerCluster ≤ 128) {rounds guess : Nat}
    (found : search totalSectors sectorsPerCluster rounds guess = .ok geometry) :
    geometry.Sound ∧ geometry.totalSectors = totalSectors ∧ geometry.sectorsPerCluster = sectorsPerCluster := by
  induction rounds generalizing guess with
  | zero => cases found
  | succ rounds ih =>
    simp only [search, reject, bind_ok_iff, unless_bind_ok_iff, okOr_ok_iff, checkedMul_eq_some_iff,
      checkedAdd_eq_some_iff, add_ok_iff, not_le] at found
    obtain ⟨_, ⟨_, rfl⟩, _, ⟨_, rfl⟩, fits, _, ⟨_, rfl⟩, rest⟩ := found
    split at rest
    · next same =>
      obtain ⟨counts, returned⟩ := unless_bind_ok_iff.mp rest
      cases returned
      push Not at counts
      exact ⟨⟨positive, small, fits, rfl, counts.1, counts.2, same⟩, rfl, rfl⟩
    · exact ih rest

theorem compute_sound (computed : compute totalSectors sectorsPerCluster = .ok geometry) :
    geometry.Sound ∧ geometry.totalSectors = totalSectors ∧ geometry.sectorsPerCluster = sectorsPerCluster := by
  obtain ⟨shape, found⟩ := unless_bind_ok_iff.mp computed
  push Not at shape
  exact search_sound (pos_of_ne_zero shape.1) shape.2.1 found

end Geometry

def Device.after (device : Device) (writes : List Write) : Device where
  limit := device.limit
  sectors := Table.replay writes device.sectors
  writes := device.writes ++ writes

theorem Device.after_nil (device : Device) : device.after [] = device := by
  simp [Device.after, Table.replay]

theorem Device.after_after (device : Device) (first second : List Write) :
    (device.after first).after second = device.after (first ++ second) := by
  simp [Device.after, Table.replay]

def writeAll (writes : List Write) : Format Unit := writes.forM fun write => writeSector write.1 write.2

section Writes
variable (geometry : Geometry)

def invalidation : List Write := [(0, ByteBlock.zero), (backupBootSector, ByteBlock.zero)]

def fileWrites (placed : Placement × RootFile) : List Write :=
  (range (divCeil placed.2.contents.length sectorSize)).map fun index =>
    (geometry.clusterStart placed.1.firstCluster + index, fileSector placed.2.contents index)

def fatWrites (placements : List Placement) (fat : Nat) : List Write :=
  (range geometry.fatSectors).map fun index =>
    (reservedSectors + fat * geometry.fatSectors + index, fatSector placements index)

def rootWrites (label : Name) (placed : List (Placement × RootFile)) : List Write :=
  (range geometry.sectorsPerCluster).map fun index =>
    (geometry.clusterStart rootCluster + index, if index = 0 then rootSector label placed else ByteBlock.zero)

def closingWrites (label : Name) (next : Nat) : List Write :=
  [(fsinfoSectorIndex, fsinfoSector geometry next), (backupBootSector + fsinfoSectorIndex, fsinfoSector geometry next),
    (backupBootSector, bootSector geometry label), (0, bootSector geometry label)]

def contentWrites (label : Name) (placements : List Placement) (next : Nat) (files : List RootFile) : List Write :=
  (placements.zip files).flatMap (fileWrites geometry) ++
    ((range fatCount).flatMap (fatWrites geometry placements) ++
      (rootWrites geometry label (placements.zip files) ++ closingWrites geometry label next))

end Writes

theorem writeSector_apply (sector : Nat) (bytes : Sector) (device : Device) :
    writeSector sector bytes device =
      if sector < device.limit then .ok () (device.after [(sector, bytes)]) else .error (.error .device) device := by
  change (if sector < device.limit then _ else _ : Format Unit) device = _
  split <;> rfl

theorem writeAll_cons (write : Write) (rest : List Write) :
    writeAll (write :: rest) = writeSector write.1 write.2 >>= fun _ => writeAll rest := rfl

theorem writeAll_cases (writes : List Write) (device : Device) :
    (writeAll writes device = .ok () (device.after writes) ∧ ∀ write ∈ writes, write.1 < device.limit) ∨
      ∃ taken refused rest, writes = taken ++ refused :: rest ∧ (∀ write ∈ taken, write.1 < device.limit) ∧
        device.limit ≤ refused.1 ∧ writeAll writes device = .error (.error .device) (device.after taken) := by
  induction writes generalizing device with
  | nil => exact .inl ⟨by rw [device.after_nil]; rfl, nofun⟩
  | cons write rest ih =>
    rw [writeAll_cons, bind_apply, writeSector_apply]
    by_cases inside : write.1 < device.limit
    · rw [if_pos inside]
      rcases ih (device.after [write]) with ⟨written, others⟩ | ⟨taken, refused, rest, rfl, others, behind, stopped⟩
      · rw [device.after_after] at written
        exact .inl ⟨written, forall_mem_cons.mpr ⟨inside, others⟩⟩
      · rw [device.after_after] at stopped
        exact .inr ⟨write :: taken, refused, rest, rfl, forall_mem_cons.mpr ⟨inside, others⟩, behind, stopped⟩
    · rw [if_neg inside]
      exact .inr ⟨[], write, rest, rfl, nofun, not_lt.mp inside, by rw [device.after_nil]⟩

theorem writeAll_ok_iff {writes : List Write} {device after : Device} :
    writeAll writes device = .ok () after ↔ (∀ write ∈ writes, write.1 < device.limit) ∧
      after = device.after writes := by
  rcases writeAll_cases writes device with ⟨written, inside⟩ | ⟨taken, refused, rest, rfl, _, behind, stopped⟩
  · rw [written]
    exact ⟨fun same => ⟨inside, (EStateM.Result.ok.inj same).2.symm⟩, fun both => by rw [both.2]⟩
  · rw [stopped]
    refine ⟨nofun, fun both => absurd (both.1 refused ?_) (not_lt.mpr behind)⟩
    simp

variable {geometry : Geometry}

inductive Chained (geometry : Geometry) : Nat → List (Placement × RootFile) → Nat → Prop where
  | nil {next : Nat} : Chained geometry next [] next
  | cons {next last : Nat} {file : RootFile} {rest : List (Placement × RootFile)}
      (fits : next + divCeil file.contents.length geometry.clusterBytes ≤ geometry.clusterCount + 2)
      (later : Chained geometry (next + divCeil file.contents.length geometry.clusterBytes) rest last) :
      Chained geometry next ((⟨next, divCeil file.contents.length geometry.clusterBytes⟩, file) :: rest) last

variable {next : Nat} {files : List RootFile} {placements : List Placement}

theorem place_chained {last : Nat} (placed : place geometry next files = .ok (placements, last)) :
    Chained geometry next (placements.zip files) last ∧ placements.length = files.length := by
  induction files generalizing next placements with
  | nil =>
    cases placed
    exact ⟨.nil, rfl⟩
  | cons file rest ih =>
    simp only [place, reject, bind_ok_iff, unless_bind_ok_iff, okOr_ok_iff, checkedAdd_eq_some_iff,
      add_ok_iff] at placed
    obtain ⟨_, _, ⟨_, rfl⟩, _, ⟨_, rfl⟩, fits, _, tail, returned⟩ := placed
    cases returned
    obtain ⟨chained, lengths⟩ := ih tail
    exact ⟨.cons (not_lt.mp fits) chained, congrArg (· + 1) lengths⟩

namespace Chained

variable {last : Nat} {placed : List (Placement × RootFile)}

section
variable (chained : Chained geometry next placed last)
include chained

theorem size : ∀ item ∈ placed, item.1.clusters = divCeil item.2.contents.length geometry.clusterBytes := by
  induction chained with
  | nil => nofun
  | cons _ _ ih => exact forall_mem_cons.mpr ⟨rfl, ih⟩

theorem within : ∀ item ∈ placed, next ≤ item.1.firstCluster ∧
      item.1.firstCluster + item.1.clusters ≤ geometry.clusterCount + 2 := by
  induction chained with
  | nil => nofun
  | cons fits _ ih =>
    refine forall_mem_cons.mpr ⟨⟨le_refl _, fits⟩, ?_⟩
    intro item member
    exact ⟨le_trans (le_add_right _ _) (ih item member).1, (ih item member).2⟩

theorem ordered : placed.Pairwise fun item later => item.1.firstCluster + item.1.clusters ≤ later.1.firstCluster := by
  induction chained with
  | nil => exact .nil
  | cons _ later ih => exact pairwise_cons.mpr ⟨fun item member => (later.within item member).1, ih⟩

end

end Chained

theorem validateFiles_sound {earlier : List RootFile}
    (apart : earlier.Pairwise fun first second => first.name ≠ second.name)
    (valid : validateFiles earlier files = .ok ()) :
    (∀ file ∈ files, file.contents ≠ [] ∧ file.contents.length < 2 ^ 32) ∧
      (earlier ++ files).Pairwise fun first second => first.name ≠ second.name := by
  induction files generalizing earlier with
  | nil => exact ⟨nofun, by simpa using apart⟩
  | cons file rest ih =>
    obtain ⟨good, later⟩ := unless_bind_ok_iff.mp valid
    push Not at good
    obtain ⟨nonempty, short, fresh⟩ := good
    have apart' := pairwise_append.mpr ⟨apart, pairwise_singleton _ file, by simpa using fresh⟩
    obtain ⟨shapes, distinct⟩ := ih apart' later
    rw [append_assoc] at distinct
    exact ⟨forall_mem_cons.mpr ⟨⟨nonempty, short⟩, shapes⟩, distinct⟩

/-- The plan of a volume: its geometry, and where the files go. -/
structure Planned (totalSectors sectorsPerCluster : Nat) (files : List RootFile) (geometry : Geometry)
    (placements : List Placement) (next : Nat) : Prop where
  computed : Geometry.compute totalSectors sectorsPerCluster = .ok geometry
  few : files.length ≤ maxRootFiles
  shapes : ∀ file ∈ files, file.contents ≠ [] ∧ file.contents.length < 2 ^ 32
  distinct : files.Pairwise fun first second => first.name ≠ second.name
  chained : Chained geometry (rootCluster + 1) (placements.zip files) next
  lengths : placements.length = files.length

theorem plan_planned {totalSectors sectorsPerCluster : Nat}
    (planned : plan totalSectors sectorsPerCluster files = .ok (geometry, placements, next)) :
    Planned totalSectors sectorsPerCluster files geometry placements next := by
  simp only [plan, reject, bind_ok_iff, unless_bind_ok_iff] at planned
  obtain ⟨_, computed, few, _, valid, _, placed, returned⟩ := planned
  cases returned
  obtain ⟨shapes, distinct⟩ := validateFiles_sound .nil valid
  obtain ⟨chained, lengths⟩ := place_chained placed
  exact ⟨computed, not_lt.mp few, shapes, distinct, chained, lengths⟩

theorem clusterSector_ok (sound : geometry.Sound) {cluster : Nat} (above : 2 ≤ cluster)
    (below : cluster < geometry.clusterCount + 2) :
    geometry.clusterSector cluster = .ok (geometry.clusterStart cluster) := by
  have bounded := sound.atMost
  unfold maxFat32Clusters at bounded
  unfold Geometry.clusterSector
  rw [add_bind (by omega)]
  exact if_neg (by omega)

theorem writeAll_append (earlier later : List Write) :
    writeAll (earlier ++ later) = writeAll earlier >>= fun _ => writeAll later := forM_append

theorem writeAll_nil : writeAll [] = pure () := rfl

theorem writeAll_map {α : Type} (items : List α) (write : α → Write) :
    writeAll (items.map write) = items.forM fun item => writeSector (write item).1 (write item).2 := forM_map

theorem writeAll_flatMap {α : Type} (items : List α) (group : α → List Write) :
    writeAll (items.flatMap group) = items.forM fun item => writeAll (group item) := forM_flatMap ..

section Planned
variable {totalSectors sectorsPerCluster : Nat}
variable (planned : Planned totalSectors sectorsPerCluster files geometry placements next)
include planned

theorem Planned.sound : geometry.Sound := (Geometry.compute_sound planned.computed).1

variable {item : Placement × RootFile}

theorem Planned.nonempty (member : item ∈ placements.zip files) : 0 < item.1.clusters := by
  have bytes : 0 < geometry.clusterBytes := mul_pos planned.sound.positive (by decide)
  have shape := (planned.shapes item.2 (of_mem_zip member).2).1
  rw [planned.chained.size item member]
  exact div_pos (by have := length_pos_iff.mpr shape; omega) bytes

theorem Planned.firstCluster (member : item ∈ placements.zip files) :
    3 ≤ item.1.firstCluster ∧ item.1.firstCluster < geometry.clusterCount + 2 := by
  have inside := planned.chained.within item member
  have some := planned.nonempty member
  unfold rootCluster at inside
  omega

theorem Planned.rootSector_ok : geometry.clusterSector rootCluster = .ok (geometry.clusterStart rootCluster) := by
  have many := planned.sound.atLeast
  unfold minFat32Clusters at many
  exact clusterSector_ok planned.sound (le_refl _) (by unfold rootCluster; omega)

theorem writeFile_eq (member : item ∈ placements.zip files) :
    writeFile geometry item = writeAll (fileWrites geometry item) := by
  have first := planned.firstCluster member
  unfold writeFile fileWrites
  rw [demand_bind (clusterSector_ok planned.sound (by omega) first.2), writeAll_map]

end Planned

/-- Formatting is the invalidation followed by the writes of the contents. -/
theorem format_eq {totalSectors sectorsPerCluster : UInt32} (label : Name)
    (planned : plan totalSectors.toNat sectorsPerCluster.toNat files = .ok (geometry, placements, next)) :
    format totalSectors sectorsPerCluster label files =
      writeAll (invalidation ++ contentWrites geometry label placements next files) := by
  have facts := plan_planned planned
  have filesWritten : (placements.zip files).forM (writeFile geometry) =
      writeAll ((placements.zip files).flatMap (fileWrites geometry)) := by
    rw [writeAll_flatMap]
    exact forM_congr fun item member => writeFile_eq facts member
  have fatsWritten : (range fatCount).forM (writeFat geometry placements) =
      writeAll ((range fatCount).flatMap (fatWrites geometry placements)) := by
    rw [writeAll_flatMap]
    refine forM_congr fun fat _ => ?_
    rw [fatWrites, writeAll_map]
    rfl
  have rootWritten : writeRoot geometry label (placements.zip files) =
      writeAll (rootWrites geometry label (placements.zip files)) := by
    unfold writeRoot rootWrites
    rw [demand_bind facts.rootSector_ok, writeAll_map]
  unfold format
  rw [demand_bind planned]
  dsimp only
  rw [filesWritten, fatsWritten, rootWritten, contentWrites]
  simp only [writeAll_append, invalidation, closingWrites, writeAll_cons, writeAll_nil, bind_assoc,
    bind_pure_unit]

def targets (writes : List Write) : List Nat := writes.map Prod.fst

theorem targets_append (earlier later : List Write) : targets (earlier ++ later) = targets earlier ++ targets later :=
  map_append

theorem targets_flatMap {α : Type} (items : List α) (group : α → List Write) :
    targets (items.flatMap group) = items.flatMap fun item => targets (group item) := map_flatMap ..

theorem targets_range (start count : Nat) (content : Nat → Sector) :
    targets ((range count).map fun index => (start + index, content index)) = range' start count := by
  rw [targets, map_map, range'_eq_map_range]
  rfl

theorem le_divCeil_mul {total part : Nat} (positive : 0 < part) : total ≤ divCeil total part * part := by
  have split := div_add_mod (total + part - 1) part
  have small := mod_lt (total + part - 1) positive
  rw [mul_comm] at split
  unfold divCeil
  omega

theorem divCeil_le {total part count : Nat} (positive : 0 < part) (enough : total ≤ count * part) :
    divCeil total part ≤ count := by
  apply le_of_lt_succ
  apply Nat.div_lt_of_lt_mul
  rw [Nat.mul_comm, Nat.succ_mul]
  omega

theorem clusterStart_add {cluster : Nat} (above : 2 ≤ cluster) (count : Nat) :
    geometry.clusterStart (cluster + count) = geometry.clusterStart cluster + count * geometry.sectorsPerCluster := by
  unfold Geometry.clusterStart
  rw [Nat.sub_add_comm above, Nat.add_mul, Nat.add_assoc]

theorem clusterStart_mono {first second : Nat} (order : first ≤ second) :
    geometry.clusterStart first ≤ geometry.clusterStart second :=
  Nat.add_le_add_left (Nat.mul_le_mul_right _ (Nat.sub_le_sub_right order 2)) _

theorem Geometry.Sound.clusterStart_le (sound : geometry.Sound) {cluster : Nat}
    (below : cluster ≤ geometry.clusterCount + 2) : geometry.clusterStart cluster ≤ geometry.totalSectors := by
  have inVolume := sound.inVolume
  have clusters : geometry.clusterCount * geometry.sectorsPerCluster ≤
      geometry.totalSectors - geometry.firstDataSector := by
    rw [sound.clusters]
    exact div_mul_le_self ..
  have last : geometry.clusterStart (geometry.clusterCount + 2) =
      geometry.firstDataSector + geometry.clusterCount * geometry.sectorsPerCluster := by
    simp [Geometry.clusterStart]
  have before := @clusterStart_mono geometry _ _ below
  omega

variable {totalSectors sectorsPerCluster : Nat}
variable (planned : Planned totalSectors sectorsPerCluster files geometry placements next)
include planned

variable {item : Placement × RootFile}

theorem Planned.fileSectors (member : item ∈ placements.zip files) :
    divCeil item.2.contents.length sectorSize ≤ item.1.clusters * geometry.sectorsPerCluster := by
  have bytes : 0 < geometry.clusterBytes := mul_pos planned.sound.positive (by decide)
  apply divCeil_le (by decide)
  rw [planned.chained.size item member, mul_assoc]
  exact le_divCeil_mul bytes

variable {sector : Nat}

theorem Planned.mem_fileTargets (member : item ∈ placements.zip files)
    (target : sector ∈ targets (fileWrites geometry item)) : geometry.clusterStart item.1.firstCluster ≤ sector ∧
      sector < geometry.clusterStart (item.1.firstCluster + item.1.clusters) := by
  have first := planned.firstCluster member
  have sectors := planned.fileSectors member
  rw [fileWrites, targets_range, mem_range'_1] at target
  rw [clusterStart_add (by omega)]
  omega

theorem Planned.fileTargets_nodup : (targets ((placements.zip files).flatMap (fileWrites geometry))).Nodup := by
  rw [targets_flatMap, nodup_flatMap]
  constructor
  · intro item _
    rw [fileWrites, targets_range]
    exact nodup_range'
  · refine planned.chained.ordered.imp_of_mem ?_
    intro item later itemIn laterIn order sector inItem inLater
    have below := (planned.mem_fileTargets itemIn inItem).2
    have above := (planned.mem_fileTargets laterIn inLater).1
    have apart : geometry.clusterStart _ ≤ geometry.clusterStart _ := clusterStart_mono order
    omega

theorem Planned.fileTargets_above (target : sector ∈ targets ((placements.zip files).flatMap (fileWrites geometry))) :
    geometry.firstDataSector + geometry.sectorsPerCluster ≤ sector := by
  rw [targets_flatMap, mem_flatMap] at target
  obtain ⟨item, member, inside⟩ := target
  have above := (planned.mem_fileTargets member inside).1
  have third : geometry.clusterStart 3 ≤ geometry.clusterStart item.1.firstCluster :=
    clusterStart_mono (planned.firstCluster member).1
  have behind : geometry.clusterStart 3 = geometry.firstDataSector + geometry.sectorsPerCluster := by
    simp [Geometry.clusterStart]
  omega

omit planned

theorem fatTargets (placements : List Placement) :
    targets ((range fatCount).flatMap (fatWrites geometry placements)) =
      range' reservedSectors (fatCount * geometry.fatSectors) := by
  have both : range fatCount = [0, 1] := rfl
  have tables : targets (fatWrites geometry placements 0) = range' reservedSectors geometry.fatSectors ∧
      targets (fatWrites geometry placements 1) =
        range' (reservedSectors + geometry.fatSectors) geometry.fatSectors := by
    constructor
    · rw [fatWrites, targets_range, zero_mul, add_zero]
    · rw [fatWrites, targets_range, one_mul]
  rw [both, targets_flatMap]
  simp only [flatMap_cons, flatMap_nil, append_nil, tables.1, tables.2, fatCount, two_mul]
  exact range'_append_1

theorem rootTargets (label : Name) (placed : List (Placement × RootFile)) :
    targets (rootWrites geometry label placed) = range' geometry.firstDataSector geometry.sectorsPerCluster := by
  have start : geometry.clusterStart rootCluster = geometry.firstDataSector := by
    simp [Geometry.clusterStart, rootCluster]
  rw [rootWrites, targets_range, start]

theorem closingTargets (label : Name) (next : Nat) : targets (closingWrites geometry label next) = [1, 7, 6, 0] := rfl

include planned

theorem Planned.contentTargets_nodup (label : Name) :
    (targets (contentWrites geometry label placements next files)).Nodup := by
  have data : geometry.firstDataSector = reservedSectors + fatCount * geometry.fatSectors := rfl
  have reserved : reservedSectors = 32 := rfl
  rw [contentWrites, targets_append, targets_append, targets_append, fatTargets, rootTargets, closingTargets]
  simp only [nodup_append, mem_append, mem_range'_1, mem_cons, not_mem_nil, or_false]
  refine ⟨planned.fileTargets_nodup, ⟨nodup_range', ⟨nodup_range', by decide, ?_⟩, ?_⟩, ?_⟩
  · omega
  · omega
  · intro sector inFiles other inOther
    have above := planned.fileTargets_above inFiles
    omega

theorem Planned.targets_lt (label : Name) :
    ∀ write ∈ invalidation ++ contentWrites geometry label placements next files, write.1 < totalSectors := by
  obtain ⟨sound, total, _⟩ := Geometry.compute_sound planned.computed
  have inVolume := sound.inVolume
  have data : geometry.firstDataSector = reservedSectors + fatCount * geometry.fatSectors := rfl
  have reserved : reservedSectors = 32 := rfl
  have root : geometry.clusterStart (2 + 1) ≤ geometry.totalSectors := by
    have many := sound.atLeast
    unfold minFat32Clusters at many
    exact sound.clusterStart_le (by omega)
  rw [clusterStart_add (le_refl 2), one_mul] at root
  have start : geometry.clusterStart 2 = geometry.firstDataSector := by simp [Geometry.clusterStart]
  intro write member
  have target : write.1 ∈ targets (invalidation ++ contentWrites geometry label placements next files) :=
    mem_map_of_mem member
  rw [contentWrites, targets_append, targets_append, targets_append, targets_append, fatTargets, rootTargets,
    closingTargets, targets_flatMap] at target
  simp only [mem_append, mem_flatMap, mem_range'_1] at target
  obtain opening | ⟨item, placed, inFile⟩ | table | inRoot | closing := target
  · simp [targets, invalidation, backupBootSector] at opening
    omega
  · have inside := (planned.mem_fileTargets placed inFile).2
    have below := sound.clusterStart_le (planned.chained.within item placed).2
    omega
  · omega
  · omega
  · simp only [mem_cons, not_mem_nil, or_false] at closing
    omega

theorem Planned.holds {label : Name} {device after : Device}
    (written : writeAll (invalidation ++ contentWrites geometry label placements next files) device = .ok () after)
    {bytes : Sector} (write : (sector, bytes) ∈ contentWrites geometry label placements next files) :
    after.Holds sector bytes := by
  obtain ⟨inside, rfl⟩ := writeAll_ok_iff.mp written
  refine ⟨inside _ (mem_append_right _ write), ?_⟩
  rw [← device.after_after]
  exact Table.replay_of_mem (planned.contentTargets_nodup label) write _

end Nagi.Fat32
