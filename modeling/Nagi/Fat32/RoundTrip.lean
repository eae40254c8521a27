import Nagi.Fat32.Layout
import Nagi.Fat32.Reader

/-! A format that was cut off leaves no volume, and what was formatted is read back. -/

namespace Nagi.Fat32

open Lib ByteBlock List

theorem openFile_unmarked {device : Device} (boot : device.Holds 0 zero) (volumeSectors : Nat) (name : Name) :
    (openFile device volumeSectors name).1 = reject .invalidVolume := by
  have refused : parseBootSector zero volumeSectors = reject .invalidVolume := by
    unfold parseBootSector
    rw [if_pos (.inl (by decide))]
    rfl
  have gives : Gives Prod.snd (openVolume device volumeSectors name : Reading Unit _) (reject .invalidVolume) := by
    refine boot.gives.bind ?_
    rw [refused]
    exact .throw _
  exact (gives ([], ())).1

section
variable {geometry : Geometry} {totalSectors sectorsPerCluster next : Nat} {files : List RootFile}
variable {placements : List Placement}
variable (planned : Planned totalSectors sectorsPerCluster files geometry placements next)
include planned

/-- Between the first and the last write of a format, none goes to the boot sector. -/
theorem Planned.unmarked {label : Name} {cut rest : List Write}
    (parts : cut ++ rest = [(backupBootSector, zero)] ++ contentWrites geometry label placements next files)
    (unfinished : rest ≠ []) : 0 ∉ targets cut := by
  have last : (cut ++ rest).getLast? = some (0, bootSector geometry label) := by
    simp only [parts, contentWrites, getLast?_append]
    rfl
  rw [getLast?_append_of_ne_nil _ unfinished] at last
  have later : 0 < (targets rest).count 0 :=
    count_pos_iff.mpr (mem_map_of_mem (mem_of_getLast? last))
  have once := nodup_iff_count_le_one.mp (planned.contentTargets_nodup label) 0
  have counted := congrArg (fun writes => (targets writes).count 0) parts
  simp only [targets_append, count_append] at counted
  have backup : (targets [(backupBootSector, (zero : Sector))]).count 0 = 0 := by decide
  rw [← count_eq_zero]
  omega

end

/-- After its first write and before its last one, a format leaves a device on which no file is found. -/
theorem unmarked_invalid {totalSectors sectorsPerCluster : UInt32} {label : Name} {files : List RootFile}
    {geometry : Geometry} {placements : List Placement} {next : Nat} {device : Device} {cut rest : List Write}
    (planned : plan totalSectors.toNat sectorsPerCluster.toNat files = .ok (geometry, placements, next))
    (parts : invalidation ++ contentWrites geometry label placements next files = cut ++ rest) (started : cut ≠ [])
    (unfinished : rest ≠ []) (inside : ∀ write ∈ cut, write.1 < device.limit) (volumeSectors : Nat) (name : Name) :
    (openFile (device.after cut) volumeSectors name).1 = reject .invalidVolume := by
  obtain ⟨write, cut, rfl⟩ := exists_cons_of_ne_nil started
  obtain ⟨rfl, others⟩ := cons.inj parts.symm
  have clear := (plan_planned planned).unmarked others unfinished
  have boot : (device.after ((0, zero) :: cut)).Holds 0 zero :=
    ⟨inside _ mem_cons_self, (Table.replay_of_notMem clear _).trans (Function.update_self ..)⟩
  exact openFile_unmarked boot volumeSectors name

/-- A format that fails before its first write has changed nothing, and one that fails later leaves no volume. If it
succeeds, then up to any point between the first and the last of its writes the device holds no volume either. -/
theorem format_interrupted (totalSectors sectorsPerCluster : UInt32) (label : Name) (files : List RootFile)
    (device : Device) :
    match format totalSectors sectorsPerCluster label files device with
    | .error _ after => (after.writes = device.writes → after = device) ∧ (after.writes ≠ device.writes →
        ∀ volumeSectors name, (openFile after volumeSectors name).1 = reject .invalidVolume)
    | .ok () after => ∃ writes, after = device.after writes ∧ ∀ cut rest, writes = cut ++ rest → cut ≠ [] → rest ≠ [] →
        ∀ volumeSectors name, (openFile (device.after cut) volumeSectors name).1 = reject .invalidVolume := by
  cases planned : plan totalSectors.toNat sectorsPerCluster.toNat files with
  | error fault =>
    unfold format
    rw [bind_error (demand_error planned device)]
    exact ⟨fun _ => rfl, fun other => absurd rfl other⟩
  | ok answer =>
    obtain ⟨geometry, placements, next⟩ := answer
    rw [format_eq label planned]
    rcases writeAll_cases (invalidation ++ contentWrites geometry label placements next files) device with
      ⟨written, inside⟩ | ⟨taken, refused, rest, parts, inside, _, stopped⟩
    · rw [written]
      refine ⟨_, rfl, fun cut rest parts started unfinished => ?_⟩
      rw [parts] at inside
      exact unmarked_invalid planned parts started unfinished fun write member =>
        inside write (mem_append_left _ member)
    · rw [stopped]
      refine ⟨fun same => ?_, fun other => ?_⟩
      · rw [show taken = [] from append_right_eq_self.mp same, device.after_nil]
      · have started : taken ≠ [] := fun none => other (by rw [none, device.after_nil])
        exact unmarked_invalid planned parts started (cons_ne_nil _ _) inside

section Boot
variable {geometry : Geometry}

theorem bootFields_ordered (geometry : Geometry) (label : Name) :
    (bootFields geometry label).Pairwise fun field next => field.1 + field.2.length ≤ next.1 := by
  refine ordered_of_extents [(0, 3), (3, 8), (11, 2), (13, 1), (14, 2), (16, 1), (21, 1), (24, 2),
    (26, 2), (32, 4), (36, 4), (44, 4), (48, 2), (50, 2), (64, 1), (66, 1), (67, 4), (71, 11), (82, 8), (510, 2)] ?_ ?_
  · simp [bootFields, label.size]
  · decide

theorem parseBootSector_ok {totalSectors sectorsPerCluster : Nat} (total : totalSectors < 2 ^ 32)
    (computed : Geometry.compute totalSectors sectorsPerCluster = .ok geometry) (label : Name) :
    parseBootSector (bootSector geometry label) totalSectors = .ok geometry := by
  obtain ⟨sound, rfl, rfl⟩ := Geometry.compute_sound computed
  have order := bootFields_ordered geometry label
  have small := sound.small
  have fat : geometry.fatSectors < 256 ^ 4 := by
    have inVolume := sound.inVolume
    unfold Geometry.firstDataSector at inVolume
    unfold fatCount at inVolume
    omega
  have signature : (bootSector geometry label).slice 510 2 = [0x55, 0xaa] :=
    @slice_putAll 512 [0x55, 0xaa] 510 _ order (by simp [bootFields]) (by decide) _
  have bytes : (bootSector geometry label).number 11 2 = sectorSize :=
    number_putAll order (by simp [bootFields]) (by decide) (by decide) _
  have perCluster : (bootSector geometry label).number 13 1 = geometry.sectorsPerCluster :=
    number_putAll order (by simp [bootFields]) (by decide) (by omega) _
  have reserved : (bootSector geometry label).number 14 2 = reservedSectors :=
    number_putAll order (by simp [bootFields]) (by decide) (by decide) _
  have fats : (bootSector geometry label).number 16 1 = fatCount :=
    number_putAll order (by simp [bootFields]) (by decide) (by decide) _
  have sectors : (bootSector geometry label).number 32 4 = geometry.totalSectors :=
    number_putAll order (by simp [bootFields]) (by decide) (by omega) _
  have tables : (bootSector geometry label).number 36 4 = geometry.fatSectors :=
    number_putAll order (by simp [bootFields]) (by decide) fat _
  have noEntries : (bootSector geometry label).number 17 2 = 0 :=
    number_putAll_of_disjoint (by simp [bootFields, label.size]) _
  have noTable : (bootSector geometry label).number 22 2 = 0 :=
    number_putAll_of_disjoint (by simp [bootFields, label.size]) _
  unfold parseBootSector
  simp only [signature, bytes, perCluster, reserved, fats, sectors, tables, noEntries, noTable, computed]
  simp

theorem rootCluster_ok (label : Name) : (bootSector geometry label).number 44 4 &&& 0x0fffffff = rootCluster := by
  have root : (bootSector geometry label).number 44 4 = rootCluster :=
    number_putAll (bootFields_ordered geometry label) (by simp [bootFields]) (by decide) (by decide) _
  rw [root]
  rfl

end Boot

section Tables

theorem fatFields_ordered (count : Nat) (value : Nat → Nat) :
    ((range count).map fun slot => (slot * 4, leBytes 4 (value slot))).Pairwise
      fun field next => field.1 + field.2.length ≤ next.1 := by
  apply pairwise_map.mpr
  refine pairwise_lt_range.imp ?_
  intro slot next order
  rw [length_leBytes]
  omega

theorem fatSector_number {placements : List Placement} {cluster : Nat} (fits : fatEntry cluster placements < 2 ^ 32) :
    (fatSector placements (cluster / entriesPerFatSector)).number (cluster % entriesPerFatSector * 4) 4 =
      fatEntry cluster placements := by
  have slot : cluster % entriesPerFatSector < entriesPerFatSector := Nat.mod_lt _ (by decide)
  have whole : cluster / entriesPerFatSector * entriesPerFatSector + cluster % entriesPerFatSector = cluster := by
    rw [Nat.mul_comm]
    exact Nat.div_add_mod ..
  have inside : cluster % entriesPerFatSector * 4 + 4 ≤ 512 := by
    have size : entriesPerFatSector = 128 := rfl
    omega
  refine number_putAll (fatFields_ordered _ _) ?_ inside fits _
  refine mem_map.mpr ⟨cluster % entriesPerFatSector, mem_range.mpr slot, ?_⟩
  rw [whole]

theorem fatEntry_placed {geometry : Geometry} {first last : Nat} {placed : List (Placement × RootFile)}
    (chained : Chained geometry first placed last) (above : 3 ≤ first) {item : Placement × RootFile}
    (member : item ∈ placed) {cluster : Nat} (atLeast : item.1.firstCluster ≤ cluster)
    (below : cluster < item.1.firstCluster + item.1.clusters) :
    fatEntry cluster (placed.map Prod.fst) =
      if cluster + 1 = item.1.firstCluster + item.1.clusters then fat32Eoc else cluster + 1 := by
  have start := (chained.within item member).1
  have found : (placed.map Prod.fst).find? (fun placement =>
      placement.firstCluster ≤ cluster ∧ cluster < placement.firstCluster + placement.clusters) = some item.1 := by
    have order := chained.ordered
    clear chained start above
    induction placed with
    | nil => cases member
    | cons head rest ih =>
      obtain ⟨later, order⟩ := pairwise_cons.mp order
      rw [map_cons]
      rcases mem_cons.mp member with rfl | inRest
      · exact find?_cons_of_pos (by simp [atLeast, below])
      · rw [find?_cons_of_neg]
        · exact ih inRest order
        · have apart := later item inRest
          simp
          omega
  unfold fatEntry
  rw [if_neg (by omega), if_neg (by unfold rootCluster; omega), found]

end Tables

section Directory

theorem rootFields_ordered (items : List DirectoryEntry) :
    (items.mapIdx fun position entry => (32 * position, entry.slice 0 32)).Pairwise
      fun field next => field.1 + field.2.length ≤ next.1 := by
  rw [pairwise_iff_getElem]
  simp only [getElem_mapIdx, length_slice]
  omega

theorem byte_entryAt (sector : Sector) (position : Nat) {i : Nat} (small : i < 32) :
    (entryAt sector position).byte i = sector.byte (32 * position + i) := dif_pos small

variable {placed : List (Placement × RootFile)}

theorem entries_rootSector (label : Name) (few : placed.length ≤ maxRootFiles) : entries (rootSector label placed) =
      rootEntries label placed ++ replicate (15 - placed.length) zero := by
  have count : (rootEntries label placed).length = placed.length + 1 := by simp [rootEntries]
  unfold maxRootFiles at few
  apply ext_getElem
  · simp [entries, count, sectorSize]
    omega
  intro position within _
  have here : (entries (rootSector label placed))[position] = entryAt (rootSector label placed) position := by
    simp [entries]
  refine here.trans ?_
  rw [getElem_append]
  split
  · next written =>
    apply ext_byte
    intro i small
    rw [byte_entryAt _ _ small]
    have part : (32 * position, ((rootEntries label placed)[position]).slice 0 32) ∈
        (rootEntries label placed).mapIdx fun position entry => (32 * position, entry.slice 0 32) := by
      rw [mem_mapIdx]
      exact ⟨position, written, rfl⟩
    have whole := slice_putAll (rootFields_ordered _) part (by rw [length_slice]; omega) (zero : Sector)
    have same := congrArg (getD · i 0) whole
    simp only [length_slice] at same
    rw [getD_slice small, getD_slice small, Nat.zero_add] at same
    exact same
  · next unwritten =>
    rw [getElem_replicate]
    apply ext_byte
    intro i small
    rw [byte_entryAt _ _ small, byte_zero, rootSector, byte_putAll, byte_zero]
    intro part member
    obtain ⟨index, inside, rfl⟩ := mem_mapIdx.mp member
    rw [length_slice]
    omega

/-- A name that the directory does not take for a deleted entry or its end. -/
def Name.Usable (name : Name) : Prop := name.bytes.getD 0 0 ≠ 0 ∧ name.bytes.getD 0 0 ≠ 0xe5

theorem shortName_usable {text : List UInt8} {name : Name} (short : shortName text = some name) : name.Usable := by
  unfold shortName at short
  dsimp only at short
  split at short
  · cases short
  next good =>
  push Not at good
  obtain ⟨nonempty, _, _, valid, _⟩ := good
  cases short
  obtain ⟨first, rest, parts⟩ := exists_cons_of_ne_nil nonempty
  rw [parts] at valid
  have letter := all_eq_true.mp valid first mem_cons_self
  dsimp only [Name.Usable]
  rw [parts]
  revert letter
  have each : ∀ byte : UInt8, decide ((0x41 ≤ byte ∧ byte ≤ 0x5a) ∨ (0x30 ≤ byte ∧ byte ≤ 0x39) ∨ byte = 0x5f) = true →
      byte ≠ 0 ∧ byte ≠ 0xe5 := by
    simp only [decide_eq_true_eq, ne_eq, UInt8.le_iff_toNat_le, ← UInt8.toNat_inj]
    simp
    omega
  exact each first

theorem entry_start {fields : List (Nat × List UInt8)} {name : Name} {kind : UInt8}
    (order : fields.Pairwise fun field next => field.1 + field.2.length ≤ next.1) (named : (0, name.bytes) ∈ fields)
    (marked : (11, [kind]) ∈ fields) :
    let entry : DirectoryEntry := zero.putAll fields
    entry.slice 0 11 = name.bytes ∧ entry.byte 0 = name.bytes.getD 0 0 ∧ entry.byte 11 = kind := by
  intro entry
  have whole : entry.slice 0 11 = name.bytes := by
    have read := slice_putAll order named (by rw [name.size]; decide) (zero : DirectoryEntry)
    rwa [name.size] at read
  have single : entry.slice 11 1 = [kind] :=
    slice_putAll order marked (by rw [length_singleton]; decide) (zero : DirectoryEntry)
  refine ⟨whole, ?_, ?_⟩
  · rw [← whole, getD_slice (by decide)]
  · have byte := congrArg (getD · 0 0) single
    rwa [getD_slice Nat.zero_lt_one, getD_cons_zero] at byte

theorem scanEntry_label {label : Name} (marked : label.bytes.getD 0 0 ≠ 0) (name : Name) :
    scanEntry name (labelEntry label) = .passed := by
  have order : (labelFields label).Pairwise fun field next => field.1 + field.2.length ≤ next.1 := by
    simp [labelFields, label.size]
  obtain ⟨_, first, kind⟩ := entry_start order mem_cons_self (mem_cons_of_mem _ mem_cons_self)
  unfold scanEntry labelEntry
  rw [if_neg (by rwa [first]), if_pos (.inr (.inl (by rw [kind]; decide)))]

theorem scanEntry_file {item : Placement × RootFile} (usable : item.2.name.Usable)
    (cluster : item.1.firstCluster < 2 ^ 32) (size : item.2.contents.length < 2 ^ 32) (name : Name) :
    scanEntry name (fileEntry item) =
      if item.2.name = name then .found item.1.firstCluster item.2.contents.length else .passed := by
  have order : (fileFields item).Pairwise fun field next => field.1 + field.2.length ≤ next.1 := by
    simp [fileFields, item.2.name.size]
  obtain ⟨whole, first, kind⟩ := entry_start order mem_cons_self (mem_cons_of_mem _ mem_cons_self)
  have high : (fileEntry item).number 20 2 = item.1.firstCluster / 2 ^ 16 :=
    number_putAll order (by simp [fileFields]) (by decide) (by omega) _
  have low : (fileEntry item).number 26 2 = item.1.firstCluster % 2 ^ 16 := by
    have read := @slice_putAll 32 (leBytes 2 item.1.firstCluster) 26 _ order (by simp [fileFields])
      (by rw [length_leBytes]; decide) zero
    exact (congrArg leValue read).trans (leValue_leBytes 2 _)
  have length : (fileEntry item).number 28 4 = item.2.contents.length :=
    number_putAll order (by simp [fileFields]) (by decide) size _
  have joined : (item.1.firstCluster / 2 ^ 16) <<< 16 ||| item.1.firstCluster % 2 ^ 16 = item.1.firstCluster := by
    have small : item.1.firstCluster % 2 ^ 16 < 2 ^ 16 := Nat.mod_lt _ (by decide)
    rw [Nat.shiftLeft_eq, Nat.mul_comm, ← Nat.two_pow_add_eq_or_of_lt small]
    exact Nat.div_add_mod ..
  have plain : ¬(item.2.name.bytes.getD 0 0 = 0xe5 ∨ (0x20 : UInt8) &&& 0x18 ≠ 0) := by
    rintro (deleted | volume)
    · exact usable.2 deleted
    · exact volume rfl
  unfold scanEntry
  rw [high, low, length, joined]
  unfold fileEntry
  rw [first, kind, whole, if_neg usable.1]
  split
  · next passed =>
    rw [if_neg]
    rintro rfl
    rcases passed with deleted | volume | other
    · exact usable.2 deleted
    · exact plain (.inr volume)
    · exact other rfl
  · next found =>
    push Not at found
    have same := found.2.2
    cases name
    cases equal : item.2.name
    rw [equal] at same
    simpa using same

/-- A scan finds the first file of the name, or the end of the directory. -/
theorem scanEntries_files (usable : ∀ item ∈ placed, item.2.name.Usable)
    (fits : ∀ item ∈ placed, item.1.firstCluster < 2 ^ 32 ∧ item.2.contents.length < 2 ^ 32) (name : Name)
    (spare : Nat) : scanEntries name (placed.map fileEntry ++ replicate (spare + 1) zero) =
      match placed.find? (·.2.name = name) with
      | some item => .found item.1.firstCluster item.2.contents.length
      | none => .missing := by
  induction placed with
  | nil =>
    rfl
  | cons item rest ih =>
    obtain ⟨here, later⟩ := forall_mem_cons.mp usable
    obtain ⟨hereFits, laterFits⟩ := forall_mem_cons.mp fits
    rw [map_cons, cons_append, scanEntries, scanEntry_file here hereFits.1 hereFits.2, find?_cons]
    by_cases same : item.2.name = name
    · simp [same]
    · simp [same, ih later laterFits]

end Directory

section Volume
variable {totalSectors sectorsPerCluster next : Nat} {files : List RootFile} {placements : List Placement}
variable {geometry : Geometry} {label : Name} {device after : Device}
variable (planned : Planned totalSectors sectorsPerCluster files geometry placements next)
variable (written : writeAll (invalidation ++ contentWrites geometry label placements next files) device = .ok () after)
include planned written

theorem holds_boot : after.Holds 0 (bootSector geometry label) := by
  refine planned.holds written ?_
  simp [contentWrites, closingWrites]

theorem holds_root : after.Holds (geometry.clusterStart rootCluster) (rootSector label (placements.zip files)) := by
  refine planned.holds written ?_
  have first : (geometry.clusterStart rootCluster, rootSector label (placements.zip files)) ∈
      rootWrites geometry label (placements.zip files) :=
    mem_map.mpr ⟨0, mem_range.mpr planned.sound.positive, rfl⟩
  simp [contentWrites, first]

theorem holds_fat {index : Nat} (within : index < geometry.fatSectors) :
    after.Holds (reservedSectors + index) (fatSector placements index) := by
  refine planned.holds written ?_
  have first : (reservedSectors + index, fatSector placements index) ∈ fatWrites geometry placements 0 :=
    mem_map.mpr ⟨index, mem_range.mpr within, by rw [Nat.zero_mul, Nat.add_zero]⟩
  have table : (reservedSectors + index, fatSector placements index) ∈
      (range fatCount).flatMap (fatWrites geometry placements) :=
    mem_flatMap.mpr ⟨0, by decide, first⟩
  exact mem_append_right _ (mem_append_left _ table)

variable {item : Placement × RootFile}

theorem holds_file (member : item ∈ placements.zip files) {index : Nat}
    (within : index < divCeil item.2.contents.length sectorSize) :
    after.Holds (geometry.clusterStart item.1.firstCluster + index) (fileSector item.2.contents index) := by
  refine planned.holds written ?_
  apply mem_append_left
  exact mem_flatMap.mpr ⟨item, member, mem_map.mpr ⟨index, mem_range.mpr within, rfl⟩⟩

theorem nextCluster_gives (σ : Type) (member : item ∈ placements.zip files) {cluster : Nat}
    (atLeast : item.1.firstCluster ≤ cluster) (below : cluster < item.1.firstCluster + item.1.clusters) :
    Gives Prod.snd (nextCluster after geometry cluster : Reading σ _)
      (.ok (if cluster + 1 = item.1.firstCluster + item.1.clusters then none else some (cluster + 1))) := by
  have inside := planned.chained.within item member
  have most := planned.sound.atMost
  have tables : geometry.clusterCount + 2 ≤ geometry.fatSectors * entriesPerFatSector := by
    rw [← planned.sound.tables]
    exact le_divCeil_mul (by decide)
  have within : cluster / entriesPerFatSector < geometry.fatSectors := by
    apply Nat.div_lt_of_lt_mul
    rw [Nat.mul_comm]
    omega
  have kept : (placements.zip files).map Prod.fst = placements := map_fst_zip (Nat.le_of_eq planned.lengths)
  have entry := fatEntry_placed planned.chained (Nat.le_refl 3) member atLeast below
  rw [kept] at entry
  unfold maxFat32Clusters at most
  have small : fatEntry cluster placements < 2 ^ 28 := by
    rw [entry]
    unfold fat32Eoc
    split <;> omega
  have read : (fatSector placements (cluster / entriesPerFatSector)).number (cluster % entriesPerFatSector * 4) 4 &&&
      0x0fffffff = fatEntry cluster placements := by
    have mask : (0x0fffffff : Nat) = 2 ^ 28 - 1 := rfl
    rw [fatSector_number (Nat.lt_trans small (by decide)), mask, Nat.and_two_pow_sub_one_eq_mod, Nat.mod_eq_of_lt small]
  refine (holds_fat planned written within).gives.bind ?_
  dsimp only
  rw [read, entry]
  split
  · rw [if_pos (by decide)]
    exact .pure _
  · rw [if_neg (by unfold fat32EocMin; omega), Words.add_bind (by omega), if_neg (by omega)]
    exact .pure _

theorem openFile_eq (total : totalSectors < 2 ^ 32) (marked : label.bytes.getD 0 0 ≠ 0)
    (usable : ∀ file ∈ files, file.name.Usable) (name : Name) :
    (openFile after totalSectors name).1 =
      match (placements.zip files).find? (·.2.name = name) with
      | some item => .ok ⟨geometry, item.1.firstCluster, item.2.contents.length⟩
      | none => reject .notFound := by
  have few : (placements.zip files).length ≤ maxRootFiles := by
    rw [length_zip]
    exact Nat.le_trans (Nat.min_le_right _ _) planned.few
  have fits : ∀ item ∈ placements.zip files, item.1.firstCluster < 2 ^ 32 ∧ item.2.contents.length < 2 ^ 32 := by
    intro item member
    have first := (planned.firstCluster member).2
    have most := planned.sound.atMost
    unfold maxFat32Clusters at most
    exact ⟨by omega, (planned.shapes item.2 (of_mem_zip member).2).2⟩
  have scanned := scanEntries_files (fun item member => usable item.2 (of_mem_zip member).2) fits name
    (14 - (placements.zip files).length)
  have spare : 14 - (placements.zip files).length + 1 = 15 - (placements.zip files).length := by
    unfold maxRootFiles at few
    omega
  rw [spare] at scanned
  have directory : scanEntries name (entries (rootSector label (placements.zip files))) =
      match (placements.zip files).find? (·.2.name = name) with
      | some item => .found item.1.firstCluster item.2.contents.length
      | none => .missing := by
    rw [entries_rootSector label few, rootEntries, cons_append, scanEntries, scanEntry_label marked]
    exact scanned
  -- the first sector of the root directory settles the search
  obtain ⟨others, perCluster⟩ : ∃ others, geometry.sectorsPerCluster = others + 1 :=
    Nat.exists_eq_succ_of_ne_zero (Nat.ne_of_gt planned.sound.positive)
  have sectors : (range geometry.sectorsPerCluster).map (geometry.clusterStart rootCluster + ·) =
      geometry.clusterStart rootCluster ::
        (range others).map fun index => geometry.clusterStart rootCluster + (index + 1) := by
    rw [perCluster, range_succ_eq_map, map_cons, map_map]
    rfl
  have scan : Gives Prod.snd (scanSectors after name
      ((range geometry.sectorsPerCluster).map (geometry.clusterStart rootCluster + ·)) : Reading Unit Scan)
      (.ok (scanEntries name (entries (rootSector label (placements.zip files))))) := by
    rw [sectors]
    refine (holds_root planned written).gives.bind ?_
    rw [directory]
    cases (placements.zip files).find? (·.2.name = name) <;> exact .pure _
  suffices gives : Gives Prod.snd (openVolume after totalSectors name : Reading Unit _) _ from (gives ([], ())).1
  refine (holds_boot planned written).gives.bind ?_
  rw [demand_bind (parseBootSector_ok total planned.computed label), rootCluster_ok, openFrom,
    demand_bind planned.rootSector_ok]
  refine scan.bind ?_
  rw [directory]
  cases (placements.zip files).find? (·.2.name = name) with
  | none => exact .throw _
  | some item => exact .pure _

omit planned written

section Reading
variable (contents output : List UInt8)

def progress (sectors : Nat) : List UInt8 × Nat :=
  (contents.take (sectors * sectorSize) ++ output.drop (min (sectors * sectorSize) contents.length),
    min (sectors * sectorSize) contents.length)

variable {contents output}

theorem progress_done {sectors : Nat} (all : contents.length ≤ sectors * sectorSize) :
    progress contents output sectors = (contents ++ output.drop contents.length, contents.length) := by
  rw [progress, take_of_length_le all, Nat.min_eq_right all]

theorem fileSector_slice (index : Nat) :
    (fileSector contents index).slice 0 (min (contents.length - index * sectorSize) sectorSize) =
      (contents.drop (index * sectorSize)).take sectorSize := by
  have size : ((contents.drop (index * sectorSize)).take sectorSize).length =
      min (contents.length - index * sectorSize) sectorSize := by
    rw [length_take, length_drop, Nat.min_comm]
  rw [← size]
  refine slice_put _ _ ?_
  rw [size, Nat.zero_add]
  exact Nat.min_le_right _ _

theorem copyChunk_eq (chunk output : List UInt8) (offset : Nat) :
    copyChunk chunk (output, offset) =
      if offset + chunk.length ≤ output.length then
        .ok () (output.take offset ++ chunk ++ output.drop (offset + chunk.length), offset + chunk.length)
      else .error .panicked (output, offset) := by
  have unfolded : copyChunk chunk (output, offset) = (if offset + chunk.length ≤ output.length then
      set (output.take offset ++ chunk ++ output.drop (offset + chunk.length), offset + chunk.length)
    else throw .panicked : EStateM (Fault FatError) (List UInt8 × Nat) Unit) (output, offset) := rfl
  rw [unfolded]
  split <;> rfl

theorem copyChunk_progress (room : contents.length ≤ output.length) {sectors : Nat}
    (more : sectors * sectorSize < contents.length) :
    copyChunk ((contents.drop (sectors * sectorSize)).take sectorSize) (progress contents output sectors) =
      .ok () (progress contents output (sectors + 1)) := by
  unfold progress
  rw [Nat.succ_mul]
  generalize sectors * sectorSize = offset at more ⊢
  have taken : (contents.take offset).length = offset := by
    rw [length_take]
    omega
  have size : ((contents.drop offset).take sectorSize).length = min sectorSize (contents.length - offset) := by
    rw [length_take, length_drop]
  have further : offset + min sectorSize (contents.length - offset) = min (offset + sectorSize) contents.length := by
    omega
  have fits : offset + min sectorSize (contents.length - offset) ≤
      (contents.take offset ++ output.drop offset).length := by
    rw [length_append, taken, length_drop]
    omega
  rw [Nat.min_eq_left (by omega), copyChunk_eq, size, if_pos fits, take_left' taken, ← drop_drop,
    drop_left' taken, drop_drop, further, take_add]

theorem toSink_ok {σ : Type} {sink : List UInt8 → EStateM (Fault FatError) σ Unit} {chunk : List UInt8} {kept left : σ}
    (taken : sink chunk kept = .ok () left) (requests : List Nat) :
    toSink sink chunk (requests, kept) = .ok () (requests, left) := by
  rw [toSink, taken]

theorem readSectors_ok {device : Device} {start : Nat}
    (stored : ∀ index < divCeil contents.length sectorSize, device.Holds (start + index) (fileSector contents index))
    (room : contents.length ≤ output.length) (count sectors : Nat) (requests : List Nat) :
    ∃ more, readSectors device copyChunk (start + sectors) count (contents.length - sectors * sectorSize)
        (requests, progress contents output sectors) =
      .ok (contents.length - (sectors + count) * sectorSize) (more, progress contents output (sectors + count)) := by
  induction count generalizing sectors requests with
  | zero => exact ⟨requests, rfl⟩
  | succ count ih =>
    rw [readSectors]
    by_cases all : contents.length ≤ sectors * sectorSize
    · have later : contents.length ≤ (sectors + (count + 1)) * sectorSize :=
        Nat.le_trans all (Nat.mul_le_mul_right _ (Nat.le_add_right _ _))
      rw [if_pos (Nat.sub_eq_zero_of_le all), progress_done all, progress_done later, Nat.sub_eq_zero_of_le later]
      exact ⟨requests, rfl⟩
    · have more : sectors * sectorSize < contents.length := Nat.lt_of_not_le all
      have within : sectors < divCeil contents.length sectorSize := by
        have enough : contents.length ≤ divCeil contents.length sectorSize * sectorSize := le_divCeil_mul (by decide)
        exact Nat.lt_of_mul_lt_mul_right (Nat.lt_of_lt_of_le more enough)
      have next : contents.length - sectors * sectorSize - min (contents.length - sectors * sectorSize) sectorSize =
          contents.length - (sectors + 1) * sectorSize := by
        rw [Nat.succ_mul]
        omega
      obtain ⟨⟨requests, kept⟩, read, rfl⟩ :=
        (stored sectors within).gives.apply (requests, progress contents output sectors)
      rw [if_neg (by omega), bind_ok read, fileSector_slice, bind_ok (toSink_ok (copyChunk_progress room more) _), next,
        Nat.add_assoc start, Nat.add_comm count, ← Nat.add_assoc sectors]
      exact ih (sectors + 1) requests

end Reading

include planned written

variable {output : List UInt8}

theorem readChain_ok (member : item ∈ placements.zip files) (room : item.2.contents.length ≤ output.length)
    (fuel passed : Nat) (enough : item.2.contents.length - passed * geometry.sectorsPerCluster * sectorSize ≤ fuel)
    (requests : List Nat) :
    ∃ more, readChain after copyChunk geometry fuel (item.1.firstCluster + passed)
        (item.2.contents.length - passed * geometry.sectorsPerCluster * sectorSize)
        (requests, progress item.2.contents output (passed * geometry.sectorsPerCluster)) =
      .ok () (more, item.2.contents ++ output.drop item.2.contents.length, item.2.contents.length) := by
  have first := planned.firstCluster member
  have inside := planned.chained.within item member
  have bytes : 0 < geometry.clusterBytes := Nat.mul_pos planned.sound.positive (by decide)
  have whole : item.2.contents.length ≤ item.1.clusters * geometry.sectorsPerCluster * sectorSize := by
    rw [planned.chained.size item member, Nat.mul_assoc]
    exact le_divCeil_mul bytes
  have ahead {count : Nat} (left : ¬item.2.contents.length ≤ count * geometry.sectorsPerCluster * sectorSize) :
      count < item.1.clusters :=
    Nat.lt_of_mul_lt_mul_right (Nat.lt_of_mul_lt_mul_right (Nat.lt_of_lt_of_le (Nat.lt_of_not_le left) whole))
  have stored : ∀ index < divCeil item.2.contents.length sectorSize,
      after.Holds (geometry.clusterStart item.1.firstCluster + index) (fileSector item.2.contents index) :=
    fun index within => holds_file planned written member within
  induction fuel generalizing passed requests with
  | zero =>
    have all : item.2.contents.length ≤ passed * geometry.sectorsPerCluster * sectorSize := by omega
    rw [readChain, if_pos (Nat.sub_eq_zero_of_le all), progress_done all]
    exact ⟨requests, rfl⟩
  | succ fuel ih =>
    rw [readChain]
    by_cases all : item.2.contents.length ≤ passed * geometry.sectorsPerCluster * sectorSize
    · rw [if_pos (Nat.sub_eq_zero_of_le all), progress_done all]
      exact ⟨requests, rfl⟩
    have more := ahead all
    have start : geometry.clusterStart (item.1.firstCluster + passed) =
        geometry.clusterStart item.1.firstCluster + passed * geometry.sectorsPerCluster := clusterStart_add (by omega) _
    have sector : geometry.clusterSector (item.1.firstCluster + passed) =
        .ok (geometry.clusterStart item.1.firstCluster + passed * geometry.sectorsPerCluster) := by
      rw [← start]
      exact clusterSector_ok planned.sound (by omega) (by omega)
    have one : (passed + 1) * geometry.sectorsPerCluster =
        passed * geometry.sectorsPerCluster + geometry.sectorsPerCluster :=
      Nat.succ_mul ..
    obtain ⟨requests, read⟩ := readSectors_ok stored room geometry.sectorsPerCluster
      (passed * geometry.sectorsPerCluster) requests
    rw [if_neg (by omega), demand_bind sector, bind_ok read, ← one]
    by_cases done : item.2.contents.length ≤ (passed + 1) * geometry.sectorsPerCluster * sectorSize
    · rw [if_pos (Nat.sub_eq_zero_of_le done), progress_done done]
      exact ⟨requests, rfl⟩
    have following := ahead done
    have next := nextCluster_gives planned written (List UInt8 × Nat) member (Nat.le_add_right _ passed) (by omega)
    rw [if_neg (by omega)] at next
    obtain ⟨⟨requests, kept⟩, answered, rfl⟩ := next.apply
      (requests, progress item.2.contents output ((passed + 1) * geometry.sectorsPerCluster))
    have shrinks : item.2.contents.length - (passed + 1) * geometry.sectorsPerCluster * sectorSize ≤ fuel := by
      have step : passed * geometry.sectorsPerCluster * sectorSize + geometry.clusterBytes =
          (passed + 1) * geometry.sectorsPerCluster * sectorSize := by
        rw [one, Nat.add_mul]
        rfl
      omega
    rw [if_neg (by omega), bind_ok answered]
    exact ih (passed + 1) shrinks requests

theorem readAll_ok (member : item ∈ placements.zip files) (room : item.2.contents.length ≤ output.length) :
    (readAll after ⟨geometry, item.1.firstCluster, item.2.contents.length⟩ output).1 =
      (.ok item.2.contents.length, item.2.contents ++ output.drop item.2.contents.length) := by
  obtain ⟨requests, read⟩ := readChain_ok planned written member room item.2.contents.length 0 (by omega) []
  have start : progress item.2.contents output (0 * geometry.sectorsPerCluster) = (output, 0) := by
    simp [progress]
  rw [start] at read
  simp only [Nat.zero_mul, Nat.add_zero, Nat.sub_zero] at read
  unfold readAll forEachChunk
  rw [if_neg (Nat.not_lt.mpr room), read]

omit written in
theorem find_file {file : RootFile} (member : file ∈ files) :
    ∃ item ∈ placements.zip files, item.2 = file ∧
      (placements.zip files).find? (·.2.name = file.name) = some item := by
  have kept : (placements.zip files).map Prod.snd = files := map_snd_zip (Nat.le_of_eq planned.lengths.symm)
  rw [← kept] at member
  obtain ⟨item, inside, rfl⟩ := mem_map.mp member
  have findable : ((placements.zip files).find? (·.2.name = item.2.name)).isSome :=
    find?_isSome.mpr ⟨item, inside, decide_eq_true rfl⟩
  obtain ⟨first, found⟩ := Option.isSome_iff_exists.mp findable
  have named := find?_some found
  rw [decide_eq_true_iff] at named
  have firstIn := mem_of_find?_eq_some found
  have once : (files.map RootFile.name).Nodup := pairwise_map.mpr planned.distinct
  have same : first.2 = item.2 :=
    inj_on_of_nodup_map once (of_mem_zip firstIn).2 (of_mem_zip inside).2 named
  exact ⟨first, firstIn, same, found⟩

end Volume

variable {totalSectors sectorsPerCluster : UInt32} {files : List RootFile}

theorem format_ok {geometry : Geometry} {placements : List Placement} {next : Nat} (label : Name)
    (planned : plan totalSectors.toNat sectorsPerCluster.toNat files = .ok (geometry, placements, next))
    {device : Device} (room : totalSectors.toNat ≤ device.limit) :
    ∃ after, format totalSectors sectorsPerCluster label files device = .ok () after := by
  rw [format_eq label planned]
  refine ⟨_, writeAll_ok_iff.mpr ⟨?_, rfl⟩⟩
  intro write member
  have below := (plan_planned planned).targets_lt label write member
  omega

theorem format_planned {label : Name} {device after : Device}
    (formatted : format totalSectors sectorsPerCluster label files device = .ok () after) :
    ∃ geometry placements next, Planned totalSectors.toNat sectorsPerCluster.toNat files geometry placements next ∧
      writeAll (invalidation ++ contentWrites geometry label placements next files) device = .ok () after := by
  cases planned : plan totalSectors.toNat sectorsPerCluster.toNat files with
  | error fault =>
    unfold format at formatted
    rw [bind_error (demand_error planned device)] at formatted
    cases formatted
  | ok answer =>
    obtain ⟨geometry, placements, next⟩ := answer
    rw [format_eq label planned] at formatted
    exact ⟨geometry, placements, next, plan_planned planned, formatted⟩

/-- On a formatted volume every file is read back as it was given, and no other name is found. -/
theorem format_round_trip {device after : Device} {totalSectors sectorsPerCluster : UInt32} {label : Name}
    {files : List RootFile} (marked : label.bytes.getD 0 0 ≠ 0)
    (named : ∀ file ∈ files, ∃ text, shortName text = some file.name)
    (formatted : format totalSectors sectorsPerCluster label files device = .ok () after) :
    (∀ file ∈ files, ∃ reader, (openFile after totalSectors.toNat file.name).1 = .ok reader ∧
      reader.size = file.contents.length ∧ ∀ output : List UInt8, file.contents.length ≤ output.length →
        (readAll after reader output).1 =
          (.ok file.contents.length, file.contents ++ output.drop file.contents.length)) ∧
    ∀ text name, shortName text = some name → (∀ file ∈ files, file.name ≠ name) →
      (openFile after totalSectors.toNat name).1 = reject .notFound := by
  obtain ⟨geometry, placements, next, planned, written⟩ := format_planned formatted
  have usable : ∀ file ∈ files, file.name.Usable := by
    intro file member
    obtain ⟨_, short⟩ := named file member
    exact shortName_usable short
  have opened := openFile_eq planned written totalSectors.toNat_lt marked usable
  constructor
  · intro file member
    obtain ⟨item, inside, rfl, found⟩ := find_file planned member
    refine ⟨⟨geometry, item.1.firstCluster, item.2.contents.length⟩, ?_, rfl, ?_⟩
    · rw [opened, found]
    · intro output room
      exact readAll_ok planned written inside room
  · intro text name _ absent
    have missing : (placements.zip files).find? (·.2.name = name) = none := by
      rw [find?_eq_none]
      intro item member same
      exact absent item.2 (of_mem_zip member).2 (of_decide_eq_true same)
    rw [opened, missing]

def helloName : Name := ⟨[72, 69, 76, 76, 79, 32, 32, 32, 84, 88, 84], rfl⟩

def slotLabel : Name := ⟨[83, 76, 79, 84, 95, 65, 32, 32, 32, 32, 32], rfl⟩

/-- Three clusters, of which the last holds one byte. -/
def greeting : List UInt8 := replicate 1024 104 ++ [105]

theorem hello_round_trip :
    ∃ after, format 66600 1 slotLabel [⟨helloName, greeting⟩] ⟨66600, fun _ _ => 0xff, []⟩ = .ok () after ∧
      ∃ reader, (openFile after 66600 helloName).1 = .ok reader ∧
        ∀ rest, (readAll after reader (greeting.reverse ++ rest)).1 = (.ok 1025, greeting ++ rest) := by
  have size : greeting.length = 1025 := by rw [greeting, length_append, length_replicate]; rfl
  have planned : plan 66600 1 [⟨helloName, greeting⟩] = .ok (⟨66600, 1, 513, 65542⟩, [⟨3, 3⟩], 6) := by decide +kernel
  obtain ⟨after, formatted⟩ := @format_ok 66600 1 _ _ _ _ slotLabel planned ⟨66600, fun _ _ => 0xff, []⟩ (by decide)
  have trip := format_round_trip (by decide) (by
    intro file member
    rw [mem_singleton.mp member]
    exact ⟨[72, 69, 76, 76, 79, 46, 84, 88, 84], by decide⟩) formatted
  obtain ⟨reader, opened, _, read⟩ := trip.1 _ mem_cons_self
  refine ⟨after, formatted, reader, opened, fun rest => ?_⟩
  have whole := read (greeting.reverse ++ rest) (by simp)
  rwa [drop_left' (length_reverse ..), size] at whole

end Nagi.Fat32
