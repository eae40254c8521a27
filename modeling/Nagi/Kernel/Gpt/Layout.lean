import Mathlib.Data.Nat.Count
import Nagi.Kernel.Gpt

/-! What an accepted partition table says.

The scan is described by what it has noted of the entries it has passed. -/

namespace Nagi.Kernel.Gpt

open Lib Words Function List Nat

variable {α : Type}

theorem foldl_or_eq_zero (read : α → UInt8) (items : List α) (start : UInt8) :
    items.foldl (fun combined item => combined ||| read item) start = 0 ↔
      start = 0 ∧ ∀ item ∈ items, read item = 0 := by
  induction items generalizing start with
  | nil => simp
  | cons item rest ih =>
    rw [foldl_cons, ih, UInt8.or_eq_zero_iff, forall_mem_cons, and_assoc]

variable {guid : List UInt8}

theorem guidIsZero_iff : guidIsZero guid = true ↔ ∀ byte ∈ guid, byte = 0 := by
  rw [guidIsZero, beq_iff_eq, foldl_or_eq_zero (fun byte => byte), eq_self, true_and]

variable {left right : List UInt8}

theorem bytesEqual_iff : bytesEqual left right = true ↔ left = right := by
  rw [bytesEqual, Bool.and_eq_true, beq_iff_eq, beq_iff_eq,
    foldl_or_eq_zero fun pair : UInt8 × UInt8 => pair.1 ^^^ pair.2]
  simp only [true_and, UInt8.xor_eq_zero_iff]
  constructor
  · rintro ⟨lengths, same⟩
    refine ext_getElem lengths fun i inLeft inRight => ?_
    have inZip : i < (zip left right).length := by simp [length_zip]; omega
    have pair := same _ (getElem_mem inZip)
    simpa using pair
  · rintro rfl
    refine ⟨rfl, fun pair member => ?_⟩
    obtain ⟨i, inside, rfl⟩ := getElem_of_mem member
    simp

variable (disk : Disk)

def entry (k : Nat) : Entry := entryAt (disk.content (2 + k / slotsPerSector)) (k % slotsPerSector)

def typeOf (k : Nat) : List UInt8 := (entry disk k).slice 0 16

def Used (k : Nat) : Prop := k < entryCount ∧ ∃ byte ∈ typeOf disk k, byte ≠ 0

def extent (k : Nat) : Extent := extentOf (entry disk k)

def PartitionRange.Covers (range : PartitionRange) (lba : Nat) : Prop :=
  range.startLba ≤ lba ∧ lba < range.startLba + range.sectorCount

def rangeOf (k : Nat) : PartitionRange :=
  ⟨(extent disk k).firstLba, (extent disk k).lastLba - (extent disk k).firstLba + 1⟩

def Single (guid : List UInt8) (k : Nat) : Prop :=
  k < entryCount ∧ typeOf disk k = guid ∧ ∀ j < entryCount, typeOf disk j = guid → j = k

theorem meets_readSector (lba : Nat) :
    Checks.Meets Fault.Reported (fun bytes => bytes = disk.content lba) (disk.readSector lba) := by
  exact .ite ⟨.read, rfl⟩ fun _ => .ok rfl

structure Tally (guid : List UInt8) (done : Nat) (noted : Noted) : Prop where
  count : noted.count = count (fun k => typeOf disk k = guid) done
  absent : noted.count = 0 → noted.range = none
  present : 0 < noted.count → ∃ k < done, typeOf disk k = guid ∧ noted.range = some (rangeOf disk k)

theorem Tally.start (guid : List UInt8) : Tally disk guid 0 ⟨none, 0⟩ where
  count := by simp
  absent _ := rfl
  present positive := absurd positive (lt_irrefl 0)

variable {disk} {done : Nat} {noted : Noted}

theorem Tally.skip (tally : Tally disk guid done noted) (other : typeOf disk done ≠ guid) :
    Tally disk guid (done + 1) noted where
  count := by rw [count_succ, if_neg other, tally.count, add_zero]
  absent := tally.absent
  present positive := by
    obtain ⟨k, below, typed, range⟩ := tally.present positive
    exact ⟨k, lt_succ_of_lt below, typed, range⟩

theorem partitionRange_meets (extent : Extent) :
    Checks.Meets Fault.Reported (fun range => range = ⟨extent.firstLba, extent.lastLba - extent.firstLba + 1⟩)
      (partitionRange extent) := by
  refine (meets_okOr _ _).bind fun sectors computed => .ok ?_
  split at computed
  · obtain ⟨_, rfl⟩ := checkedAdd_eq_some_iff.mp computed
    rfl
  · cases computed

theorem Tally.note (tally : Tally disk guid done noted) (typed : typeOf disk done = guid) (inside : done < entryCount) :
    Checks.Meets Fault.Reported (Tally disk guid (done + 1)) (noted.note (extent disk done)) := by
  have small : noted.count ≤ done := tally.count ▸ count_le _
  have fits : noted.count + 1 < 2 ^ 64 := by
    unfold entryCount at inside
    omega
  refine (meets_add fits).bind fun count counted => ?_
  refine (partitionRange_meets (extent disk done)).bind fun range same => .ok ?_
  constructor
  · rw [count_succ, if_pos typed, ← tally.count]
    exact counted
  · intro zero
    dsimp only at zero
    omega
  · intro _
    exact ⟨done, lt_succ_self done, typed, congrArg some same⟩

theorem count_eq_one_iff : count (fun k => typeOf disk k = guid) entryCount = 1 ↔ ∃ k, Single disk guid k := by
  simp only [count_eq_card_filter_range, Finset.card_eq_one, Finset.ext_iff, Finset.mem_filter, Finset.mem_range,
    Finset.mem_singleton]
  refine exists_congr fun k => ⟨fun only => ?_, ?_⟩
  · obtain ⟨inside, typed⟩ := (only k).mpr rfl
    exact ⟨inside, typed, fun j below same => (only j).mp ⟨below, same⟩⟩
  · rintro ⟨inside, typed, only⟩ j
    exact ⟨fun both => only j both.1 both.2, fun same => same ▸ ⟨inside, typed⟩⟩

theorem Tally.single (tally : Tally disk guid entryCount noted) (one : noted.count = 1) :
    ∃ k, Single disk guid k ∧ noted.range = some (rangeOf disk k) := by
  obtain ⟨k, single⟩ := count_eq_one_iff.mp (tally.count ▸ one)
  obtain ⟨j, below, typed, range⟩ := tally.present (by omega)
  have same := single.2.2 j below typed
  exact ⟨k, single, same ▸ range⟩

def Extent.Apart (first second : Extent) : Prop := first.lastLba < second.firstLba ∨ second.lastLba < first.firstLba

structure Tallies (disk : Disk) (done : Nat) (scan : Scan) : Prop where
  userData : Tally disk userDataTypeGuid done scan.userData
  modelStore : Tally disk modelStoreTypeGuid done scan.modelStore
  systemA : Tally disk systemATypeGuid done (scan.systemSlots .a)
  systemB : Tally disk systemBTypeGuid done (scan.systemSlots .b)

structure Scanned (disk : Disk) (primary : Header) (done : Nat) (scan : Scan) : Prop where
  used : ∀ k : Fin entryCount, k.val < done → Used disk k → scan.extents k = some (extent disk k)
  within : ∀ k < done, Used disk k → primary.firstUsableLba ≤ (extent disk k).firstLba ∧
    (extent disk k).firstLba ≤ (extent disk k).lastLba ∧ (extent disk k).lastLba ≤ primary.lastUsableLba
  apart : ∀ j k, j < k → k < done → Used disk j → Used disk k → (extent disk j).Apart (extent disk k)
  tallies : Tallies disk done scan

variable {scan : Scan}

theorem Tallies.noteType (tallies : Tallies disk done scan) (inside : done < entryCount) :
    Checks.Meets Fault.Reported (fun next => next.extents = scan.extents ∧ Tallies disk (done + 1) next)
      (scan.noteType (typeOf disk done) (extent disk done)) := by
  unfold Scan.noteType
  simp only [bytesEqual_iff, systemSlot]
  obtain ⟨userData, modelStore, systemA, systemB⟩ := tallies
  by_cases isUser : typeOf disk done = userDataTypeGuid
  · rw [if_pos isUser]
    refine (userData.note isUser inside).bind fun noted tally => .ok ⟨rfl, tally, ?_, ?_, ?_⟩
    · exact modelStore.skip (isUser ▸ by decide)
    · exact systemA.skip (isUser ▸ by decide)
    · exact systemB.skip (isUser ▸ by decide)
  rw [if_neg isUser]
  replace userData := userData.skip isUser
  by_cases isA : typeOf disk done = systemATypeGuid
  · rw [if_pos isA]
    refine (systemA.note isA inside).bind fun noted tally => .ok ⟨rfl, userData, ?_, tally, ?_⟩
    · exact modelStore.skip (isA ▸ by decide)
    · exact systemB.skip (isA ▸ by decide)
  rw [if_neg isA]
  replace systemA := systemA.skip isA
  by_cases isB : typeOf disk done = systemBTypeGuid
  · rw [if_pos isB]
    refine (systemB.note isB inside).bind fun noted tally => .ok ⟨rfl, userData, ?_, systemA, tally⟩
    exact modelStore.skip (isB ▸ by decide)
  rw [if_neg isB]
  replace systemB := systemB.skip isB
  by_cases isModel : typeOf disk done = modelStoreTypeGuid
  · rw [if_pos isModel]
    exact (modelStore.note isModel inside).bind fun noted tally => .ok ⟨rfl, userData, tally, systemA, systemB⟩
  · rw [if_neg isModel]
    exact .ok ⟨rfl, userData, modelStore.skip isModel, systemA, systemB⟩

theorem checkAgainst_meets (extent : Extent) (previous : Option Extent) :
    Checks.Meets Fault.Reported (fun _ => ∀ other, previous = some other → other.Apart extent)
      (checkAgainst extent previous) := by
  cases previous with
  | none => exact .ok (by simp)
  | some previous =>
    refine .ite ⟨_, rfl⟩ fun _ => .ite ⟨_, rfl⟩ fun clear => .ok ?_
    intro other same
    cases same
    unfold Extent.Apart
    omega

variable {k : Nat}

theorem typeOf_of_unused (inside : k < entryCount) (unused : ¬Used disk k) : ∀ byte ∈ typeOf disk k, byte = 0 := by
  intro byte member
  by_contra nonzero
  exact unused ⟨inside, byte, member, nonzero⟩

variable {last : UInt8}

theorem ne_of_unused (inside : k < entryCount) (unused : ¬Used disk k) : typeOf disk k ≠ typeGuid last := by
  intro same
  have zero := typeOf_of_unused inside unused 0x47 (by rw [same]; simp [typeGuid])
  exact absurd zero (by decide)

variable {primary : Header}

theorem Scanned.free (scanned : Scanned disk primary done scan) (inside : done < entryCount)
    (unused : ¬Used disk done) : Scanned disk primary (done + 1) scan where
  used k below isUsed := by
    have other : k.val ≠ done := fun same => unused (same ▸ isUsed)
    exact scanned.used k (by omega) isUsed
  within k below isUsed := by
    have other : k ≠ done := fun same => unused (same ▸ isUsed)
    exact scanned.within k (by omega) isUsed
  apart j k order below usedJ usedK := by
    have other : k ≠ done := fun same => unused (same ▸ usedK)
    exact scanned.apart j k order (by omega) usedJ usedK
  tallies := ⟨scanned.tallies.userData.skip (ne_of_unused inside unused),
    scanned.tallies.modelStore.skip (ne_of_unused inside unused),
    scanned.tallies.systemA.skip (ne_of_unused inside unused),
    scanned.tallies.systemB.skip (ne_of_unused inside unused)⟩

theorem Scanned.entry (scanned : Scanned disk primary done scan) (inside : done < entryCount) :
    Checks.Meets Fault.Reported (Scanned disk primary (done + 1)) (scanEntry primary scan done (entry disk done)) := by
  unfold scanEntry
  by_cases zero : guidIsZero ((Gpt.entry disk done).slice 0 16) = true
  · rw [if_pos zero]
    have unused : ¬Used disk done := by
      rintro ⟨_, byte, member, nonzero⟩
      exact nonzero (guidIsZero_iff.mp zero byte member)
    exact .ite ⟨_, rfl⟩ fun _ => .ok (scanned.free inside unused)
  · rw [if_neg zero]
    refine .ite ⟨_, rfl⟩ fun _ => .ite ⟨_, rfl⟩ fun bounds => ?_
    refine (Checks.Meets.forM (finRange entryCount) fun other _ => checkAgainst_meets _ _).bind fun _ clear => ?_
    rw [dif_pos inside]
    have kept : Tallies disk done
        { scan with extents := update scan.extents ⟨done, inside⟩ (some (extent disk done)) } :=
      ⟨scanned.tallies.userData, scanned.tallies.modelStore, scanned.tallies.systemA, scanned.tallies.systemB⟩
    refine (kept.noteType inside).mono fun next after => ?_
    obtain ⟨extents, tallies⟩ := after
    dsimp only at extents
    refine ⟨fun k below isUsed => ?_, fun k below isUsed => ?_, fun j k order below usedJ usedK => ?_, tallies⟩
    · rw [extents]
      by_cases last : k = ⟨done, inside⟩
      · subst last
        exact update_self ..
      · rw [update_of_ne last]
        have earlier : k.val ≠ done := fun same => last (Fin.ext same)
        exact scanned.used k (by omega) isUsed
    · rcases Nat.lt_succ_iff_lt_or_eq.mp below with earlier | rfl
      · exact scanned.within k earlier isUsed
      · unfold extent
        omega
    · rcases Nat.lt_succ_iff_lt_or_eq.mp below with earlier | rfl
      · exact scanned.apart j k order earlier usedJ usedK
      · exact clear ⟨j, usedJ.1⟩ (mem_finRange _) _ (scanned.used ⟨j, usedJ.1⟩ order usedJ)

theorem scanSector_meets (entries : primary.entriesLba = 2) {index : Nat} (inside : index < entryArraySectors)
    (scanned : Scanned disk primary (index * slotsPerSector) scan) :
    Checks.Meets Fault.Reported (Scanned disk primary ((index + 1) * slotsPerSector))
      (scanSector disk primary scan index) := by
  have four : slotsPerSector = 4 := rfl
  have sectors : entryArraySectors = 32 := rfl
  refine (meets_add (by omega)).bind fun lba located => ?_
  refine (meets_readSector disk lba).bind fun bytes content => ?_
  rw [add_mul, one_mul]
  refine Checks.Meets.foldlM_range (P := fun slot => Scanned disk primary (index * slotsPerSector + slot)) ?_
    slotsPerSector fun slot below scan scanned => ?_
  · exact ⟨scanned.used, scanned.within, scanned.apart,
      ⟨scanned.tallies.userData, scanned.tallies.modelStore, scanned.tallies.systemA, scanned.tallies.systemB⟩⟩
  -- The entry in this slot is the one that its index names.
  have same : entryAt bytes slot = entry disk (index * slotsPerSector + slot) := by
    have sector : (index * slotsPerSector + slot) / slotsPerSector = index := by
      rw [four]
      omega
    have position : (index * slotsPerSector + slot) % slotsPerSector = slot := by
      rw [four]
      omega
    rw [entry, sector, position, content, located, entries]
  rw [same]
  refine scanned.entry ?_
  have total : entryCount = 128 := rfl
  rw [four, total]
  omega

theorem scanArray_meets (entries : primary.entriesLba = 2) :
    Checks.Meets Fault.Reported (Scanned disk primary entryCount) (scanArray disk primary) := by
  have start : Scanned disk primary 0 .start :=
    ⟨fun k below => absurd below (not_lt_zero _), fun k below => absurd below (not_lt_zero _),
      fun j k _ below => absurd below (not_lt_zero _), ⟨.start .., .start .., .start .., .start ..⟩⟩
  have loop := Checks.Meets.foldlM_range (P := fun index => Scanned disk primary (index * slotsPerSector))
    (by simpa using start) entryArraySectors fun index inside scan scanned => scanSector_meets entries inside scanned
  exact loop.bind fun scan scanned => .ite ⟨_, rfl⟩ fun _ => .ok scanned

theorem parseHeader_meets (bytes : Sector) :
    Checks.Meets Fault.Reported (fun header => parseHeader bytes = .ok header) (parseHeader bytes) := by
  have reported : Checks.Meets Fault.Reported (fun _ => True) (parseHeader bytes) :=
    .ite ⟨_, rfl⟩ fun _ => .ite ⟨_, rfl⟩ fun _ => .ite ⟨_, rfl⟩ fun _ => .ok trivial
  exact reported.self

structure Primary (disk : Disk) (backupLba : Nat) (primary : Header) : Prop where
  parsed : parseHeader (disk.content 1) = .ok primary
  entries : primary.entriesLba = 2
  first : 2 + entryArraySectors ≤ primary.firstUsableLba
  last : primary.lastUsableLba < backupLba - entryArraySectors

section
variable {backupLba : Nat} (large : entryArraySectors ≤ backupLba)
include large

theorem readPrimary_meets : Checks.Meets Fault.Reported (Primary disk backupLba) (readPrimary disk backupLba) := by
  refine (meets_readSector disk 1).bind fun bytes content => ?_
  refine (parseHeader_meets bytes).bind fun primary parsed => ?_
  refine (meets_sub large).bind fun backupEntries located => .ite ⟨_, rfl⟩ fun valid => .ok ?_
  exact ⟨content ▸ parsed, by omega, by omega, by omega⟩

theorem readBackup_meets : Checks.Meets Fault.Reported (fun backup => backup.entriesLba = backupLba - entryArraySectors)
      (readBackup disk backupLba primary) := by
  refine (meets_readSector disk backupLba).bind fun bytes content => ?_
  refine (parseHeader_meets bytes).bind fun backup parsed => ?_
  refine (meets_sub large).bind fun backupEntries located => .ite ⟨_, rfl⟩ fun valid => .ok ?_
  omega

end

theorem validateProtectiveMbr_meets (mbr : Sector) {diskSectors : Nat} (large : 1 ≤ diskSectors) :
    Checks.Meets Fault.Reported (fun _ => True) (validateProtectiveMbr mbr diskSectors) := by
  refine .ite ⟨_, rfl⟩ fun _ => ?_
  refine (Checks.Meets.forM (Q := fun _ => True) (range 4) fun index _ => ?_).mono fun _ _ => trivial
  split
  · refine (meets_sub large).bind fun backupLba _ => .ite ⟨_, rfl⟩ fun _ => .ok trivial
  · exact .ite ⟨_, rfl⟩ fun _ => .ok trivial

theorem compareSector_meets {backup : Header} (entries : primary.entriesLba = 2) {index : Nat}
    (inside : index < entryArraySectors) (fits : backup.entriesLba + entryArraySectors < 2 ^ 64) (crc : BitVec 32) :
    Checks.Meets Fault.Reported (fun _ => disk.content (backup.entriesLba + index) = disk.content (2 + index))
      (compareSector disk primary backup crc index) := by
  have sectors : entryArraySectors = 32 := rfl
  refine (meets_add (by omega)).bind fun lba located => ?_
  refine (meets_readSector disk lba).bind fun bytes content => ?_
  refine (meets_add (by omega)).bind fun primaryLba primaryLocated => ?_
  refine (meets_readSector disk primaryLba).bind fun copy primaryContent => .ite ⟨_, rfl⟩ fun equal => .ok ?_
  have slices : bytes.slice 0 sectorSize = copy.slice 0 sectorSize :=
    bytesEqual_iff.mp (by simpa using equal)
  rw [← located, ← entries, ← primaryLocated, ← content, ← primaryContent]
  apply ByteBlock.ext_byte
  intro i below
  have left : (bytes.slice 0 sectorSize).getD i 0 = bytes.byte (0 + i) := ByteBlock.getD_slice below
  have right : (copy.slice 0 sectorSize).getD i 0 = copy.byte (0 + i) := ByteBlock.getD_slice below
  rw [slices, right] at left
  simpa using left.symm

theorem compareArrays_meets {backup : Header} (entries : primary.entriesLba = 2)
    (fits : backup.entriesLba + entryArraySectors < 2 ^ 64) : Checks.Meets Fault.Reported
      (fun _ => ∀ i < entryArraySectors, disk.content (backup.entriesLba + i) = disk.content (2 + i))
      (compareArrays disk primary backup) := by
  have loop : Checks.Meets Fault.Reported
      (fun _ => ∀ i < entryArraySectors, disk.content (backup.entriesLba + i) = disk.content (2 + i))
      ((range entryArraySectors).foldlM (compareSector disk primary backup) (BitVec.allOnes 32)) := by
    refine Checks.Meets.foldlM_range
      (P := fun index _ => ∀ i < index, disk.content (backup.entriesLba + i) = disk.content (2 + i))
      (fun i below => absurd below (not_lt_zero i)) entryArraySectors fun index inside crc equal => ?_
    refine (compareSector_meets entries inside fits crc).mono fun _ here i below => ?_
    rcases Nat.lt_succ_iff_lt_or_eq.mp below with earlier | rfl
    · exact equal i earlier
    · exact here
  exact loop.bind fun crc equal => .ite ⟨_, rfl⟩ fun _ => .ok equal

def PartitionLayout.ranges (layout : PartitionLayout) : List PartitionRange :=
  layout.userData :: (layout.modelStore.toList ++ layout.systemA.toList ++ layout.systemB.toList)

def PartitionRange.Disjoint (first second : PartitionRange) : Prop := ∀ lba, first.Covers lba → ¬second.Covers lba

/-- A range is given exactly if one entry has the type, and is then the range of that entry. -/
structure Present (disk : Disk) (guid : List UInt8) (slot : Option PartitionRange) : Prop where
  iff : slot.isSome = true ↔ ∃ k, Single disk guid k
  range : ∀ range, slot = some range → ∃ k, Single disk guid k ∧ range = rangeOf disk k

structure Sound (disk : Disk) (diskSectors : Nat) (layout : PartitionLayout) : Prop where
  usable : ∃ header, parseHeader (disk.content 1) = .ok header ∧ ∀ range ∈ layout.ranges, ∀ lba, range.Covers lba →
    header.firstUsableLba ≤ lba ∧ lba ≤ header.lastUsableLba
  /-- The boot record, the headers and the entry arrays. -/
  unreserved : ∀ range ∈ layout.ranges, ∀ lba, range.Covers lba → lba ≠ 0 ∧ lba ≠ 1 ∧ lba ≠ diskSectors - 1 ∧
    ¬(2 ≤ lba ∧ lba < 2 + entryArraySectors) ∧ ¬(diskSectors - 1 - entryArraySectors ≤ lba ∧ lba < diskSectors - 1)
  disjoint : layout.ranges.Pairwise PartitionRange.Disjoint
  others : ∀ range ∈ layout.ranges, ∃ k, Used disk k ∧ range = rangeOf disk k ∧
    ∀ j, Used disk j → j ≠ k → range.Disjoint (rangeOf disk j)
  userData : ∃ k, Single disk userDataTypeGuid k ∧ layout.userData = rangeOf disk k
  modelStore : Present disk modelStoreTypeGuid layout.modelStore
  systemA : Present disk systemATypeGuid layout.systemA
  systemB : Present disk systemBTypeGuid layout.systemB
  copies : ∀ i < entryArraySectors, disk.content (2 + i) = disk.content (diskSectors - 1 - entryArraySectors + i)

section
variable (tally : Tally disk guid entryCount noted)
include tally

theorem Tally.present_iff : noted.count = 1 ↔ ∃ k, Single disk guid k := by
  rw [tally.count]
  exact count_eq_one_iff

theorem Tally.of_single : Present disk guid noted.single := by
  unfold Noted.single
  by_cases one : noted.count = 1
  · obtain ⟨k, single, range⟩ := tally.single one
    rw [if_pos one, range]
    refine ⟨⟨fun _ => ⟨k, single⟩, fun _ => rfl⟩, fun other same => ⟨k, single, ?_⟩⟩
    exact (Option.some.inj same).symm
  · rw [if_neg one]
    exact ⟨⟨by simp, fun found => absurd (tally.present_iff.mpr found) one⟩, by simp⟩

theorem Tally.of_few (few : ¬noted.count > 1) : Present disk guid noted.range := by
  have same : noted.range = noted.single := by
    unfold Noted.single
    split
    · rfl
    · exact tally.absent (by omega)
  rw [same]
  exact tally.of_single

end

theorem Scan.layout_meets (tallies : Tallies disk entryCount scan) :
    Checks.Meets Fault.Reported (fun layout =>
      (∃ k, Single disk userDataTypeGuid k ∧ layout.userData = rangeOf disk k) ∧
      Present disk modelStoreTypeGuid layout.modelStore ∧ Present disk systemATypeGuid layout.systemA ∧
      Present disk systemBTypeGuid layout.systemB) scan.layout := by
  refine .ite ⟨_, rfl⟩ fun some => .ite ⟨_, rfl⟩ fun one => .ite ⟨_, rfl⟩ fun few => ?_
  refine (meets_okOr _ _).bind fun userData found => .ok ?_
  refine ⟨?_, tallies.modelStore.of_few few, tallies.systemA.of_single, tallies.systemB.of_single⟩
  obtain ⟨k, single, range⟩ := tallies.userData.single (not_not.mp one)
  exact ⟨k, single, Option.some.inj (found.symm.trans range)⟩

theorem used_of_type (single : Single disk (typeGuid last) k) : Used disk k := by
  refine ⟨single.1, 0x47, ?_, by decide⟩
  rw [single.2.1]
  simp [typeGuid]

/-- Where the ranges of different types come from: distinct used entries of the array. -/
theorem entries_of_present {slots : List (UInt8 × Option PartitionRange)}
    (distinct : slots.Pairwise fun first second => first.1 ≠ second.1)
    (present : ∀ slot ∈ slots, Present disk (typeGuid slot.1) slot.2) :
    ∃ entries : List Nat, slots.flatMap (·.2.toList) = entries.map (rangeOf disk) ∧ entries.Nodup ∧
      ∀ k ∈ entries, Used disk k ∧ ∃ slot ∈ slots, typeOf disk k = typeGuid slot.1 := by
  induction distinct with
  | nil => exact ⟨[], rfl, nodup_nil, by simp⟩
  | @cons slot rest apart _ ih =>
    obtain ⟨here, later⟩ := forall_mem_cons.mp present
    obtain ⟨entries, ranges, nodup, used⟩ := ih later
    simp only [flatMap_cons, ranges, exists_mem_cons_iff]
    cases given : slot.2 with
    | none => exact ⟨entries, rfl, nodup, fun k member => ⟨(used k member).1, .inr (used k member).2⟩⟩
    | some range =>
      obtain ⟨k, single, same⟩ := here.range range given
      refine ⟨k :: entries, by simp [same], nodup_cons.mpr ⟨fun member => ?_, nodup⟩, ?_⟩
      · obtain ⟨other, inRest, typed⟩ := (used k member).2
        exact apart other inRest (by simpa [typeGuid] using single.2.1.symm.trans typed)
      · refine forall_mem_cons.mpr ⟨⟨used_of_type single, .inl single.2.1⟩, fun j member => ?_⟩
        exact ⟨(used j member).1, .inr (used j member).2⟩

theorem Scanned.covers (scanned : Scanned disk primary entryCount scan) {lba : Nat} (used : Used disk k) :
    (rangeOf disk k).Covers lba ↔ (extent disk k).firstLba ≤ lba ∧ lba ≤ (extent disk k).lastLba := by
  have order := (scanned.within k used.1 used).2.1
  unfold PartitionRange.Covers rangeOf
  dsimp only
  omega

theorem Scanned.disjoint (scanned : Scanned disk primary entryCount scan) {j : Nat} (different : j ≠ k)
    (usedJ : Used disk j) (usedK : Used disk k) : (rangeOf disk j).Disjoint (rangeOf disk k) := by
  have apart : (extent disk j).Apart (extent disk k) := by
    rcases lt_or_gt_of_ne different with before | after
    · exact scanned.apart j k before usedK.1 usedJ usedK
    · exact (scanned.apart k j after usedJ.1 usedK usedJ).symm
  intro lba inJ inK
  rw [scanned.covers usedJ] at inJ
  rw [scanned.covers usedK] at inK
  unfold Extent.Apart at apart
  omega

theorem findPartitions_meets (disk : Disk) (diskSectors : UInt64) :
    Checks.Meets Fault.Reported (Sound disk diskSectors.toNat) (findPartitions disk diskSectors) := by
  have word := diskSectors.toNat_lt
  refine .ite ⟨_, rfl⟩ fun large => ?_
  refine (meets_readSector disk 0).bind fun mbr _ => ?_
  refine (validateProtectiveMbr_meets mbr (by omega)).bind fun _ _ => ?_
  refine (meets_sub (by omega)).bind fun backupLba last => ?_
  subst last
  refine (readPrimary_meets (by omega)).bind fun primary header => ?_
  refine (readBackup_meets (by omega)).bind fun backup located => ?_
  refine (scanArray_meets header.entries).bind fun scan scanned => ?_
  refine (compareArrays_meets header.entries (by omega)).bind fun _ copies => ?_
  refine (Scan.layout_meets scanned.tallies).mono fun layout found => ?_
  obtain ⟨⟨user, single, given⟩, modelStore, systemA, systemB⟩ := found
  have userData : Present disk userDataTypeGuid (some layout.userData) :=
    ⟨⟨fun _ => ⟨user, single⟩, fun _ => rfl⟩, fun range same => ⟨user, single, Option.some.inj same ▸ given⟩⟩
  have present : ∀ slot ∈ [(3, some layout.userData), (5, layout.modelStore), (1, layout.systemA), (2, layout.systemB)],
      Present disk (typeGuid slot.1) slot.2 := by
    simpa using ⟨userData, modelStore, systemA, systemB⟩
  obtain ⟨entries, all, distinct, used⟩ := entries_of_present (by simp) present
  have ranges : layout.ranges = entries.map (rangeOf disk) := by simpa [PartitionLayout.ranges] using all
  -- Every range belongs to an entry, and the scan has bounded and separated the entries.
  have inside : ∀ range ∈ layout.ranges, ∀ lba, range.Covers lba →
      primary.firstUsableLba ≤ lba ∧ lba ≤ primary.lastUsableLba := by
    intro range member lba covers
    rw [ranges] at member
    obtain ⟨k, inEntries, rfl⟩ := mem_map.mp member
    have bounds := scanned.within k (used k inEntries).1.1 (used k inEntries).1
    rw [scanned.covers (used k inEntries).1] at covers
    omega
  have first := header.first
  have last := header.last
  refine ⟨⟨primary, header.parsed, inside⟩, ?_, ?_, ?_, ⟨user, single, given⟩, modelStore, systemA, systemB, ?_⟩
  · intro range member lba covers
    have bounds := inside range member lba covers
    omega
  · rw [ranges, pairwise_map]
    exact distinct.imp_of_mem fun inFirst inSecond different =>
      scanned.disjoint different (used _ inFirst).1 (used _ inSecond).1
  · intro range member
    rw [ranges] at member
    obtain ⟨k, inEntries, rfl⟩ := mem_map.mp member
    exact ⟨k, (used k inEntries).1, rfl, fun j usedJ different =>
      scanned.disjoint different.symm (used k inEntries).1 usedJ⟩
  · intro i below
    rw [← located]
    exact (copies i below).symm

/-- For every disk, `find_partitions` ends without an arithmetic fault, and the layout it accepts is sound. -/
theorem find_partitions_sound (disk : Disk) (diskSectors : UInt64) :
    (∀ fault, findPartitions disk diskSectors = .error fault → ∃ reason, fault = .error reason) ∧
      ∀ layout, findPartitions disk diskSectors = .ok layout → Sound disk diskSectors.toNat layout :=
  ⟨(findPartitions_meets disk diskSectors).failed, (findPartitions_meets disk diskSectors).passed⟩

end Nagi.Kernel.Gpt
