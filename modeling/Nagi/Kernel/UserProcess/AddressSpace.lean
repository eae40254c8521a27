import Nagi.Kernel.UserChild.Isolation
import Nagi.Kernel.UserProcess.Bootstrap

/-! The tables of the init process.

An entry is only made where there is none. What has been linked in front of the
image stays linked, and the tables of the image are still empty. -/

namespace Nagi.Kernel

open Lib UserElf Function

namespace Bootstrap

open UserMmap (Window)
open UserChild (hierarchy leaf)

section
variable {window : Window}

abbrev Key := BootstrapTable × Nat

namespace Boot

def cell (boot : Boot window) (key : Key) : BitVec 64 := (boot.storage.tables key.1).entries key.2

def place (boot : Boot window) (key : Key) (raw : BitVec 64) : Boot window :=
  { boot with storage := boot.storage.setTable key.1 ((boot.storage.tables key.1).set key.2 raw) }

theorem cell_place (boot : Boot window) (key : Key) (raw : BitVec 64) :
    (boot.place key raw).cell = update boot.cell key raw := by
  funext other
  simp only [cell, place, BootstrapStorage.setTable, PageTable.set, update_apply, Prod.ext_iff]
  by_cases table : other.1 = key.1
  · simp [table, update_apply]
  · simp [table]

end Boot

structure Beside (before after : Boot window) : Prop where
  address : after.storage.address = before.storage.address
  allocator : after.allocator = before.allocator
  memory : after.memory = before.memory

theorem Beside.trans {first second third : Boot window} (one : Beside first second) (two : Beside second third) :
    Beside first third :=
  ⟨two.address.trans one.address, two.allocator.trans one.allocator, two.memory.trans one.memory⟩

def BootstrapTable.Stands (window : Window) : BootstrapTable → Prop
  | .mmapExtraPd index => index < mmapExtraPdCount window
  | .imagePt index => index < userImagePageTableCount
  | .mmapPt index => index < window.pageTables
  | _ => True

variable {table : BootstrapTable}

theorem BootstrapTable.Stands.position_lt (stands : table.Stands window) :
    table.position window < storagePages window := by
  unfold storagePages tableCount
  cases table <;> simp only [BootstrapTable.Stands, BootstrapTable.position] at stands ⊢ <;> omega

/-- Entries have been made where there were none, and none for a page of the image. -/
structure Maps (before after : Boot window) : Prop extends Beside before after where
  kept : ∀ key, before.cell key ≠ 0 → after.cell key = before.cell key
  image : ∀ tableIndex index, after.cell (.imagePt tableIndex, index) = before.cell (.imagePt tableIndex, index)

variable {boot between after : Boot window}

theorem Maps.refl (boot : Boot window) : Maps boot boot := ⟨⟨rfl, rfl, rfl⟩, fun _ _ => rfl, fun _ _ => rfl⟩

theorem Maps.trans (one : Maps boot between) (two : Maps between after) : Maps boot after where
  toBeside := one.toBeside.trans two.toBeside
  kept key used := (two.kept key (by rwa [one.kept key used])).trans (one.kept key used)
  image tableIndex index := (two.image tableIndex index).trans (one.image tableIndex index)

def Links (boot : Boot window) (key : Key) (table : BootstrapTable) : Prop :=
  boot.cell key = leaf (boot.storage.tableAddress table) hierarchy

theorem Maps.links (maps : Maps boot after) {key : Key} (links : Links boot key table) : Links after key table := by
  have used : boot.cell key ≠ 0 := by
    rw [links]
    exact fun zero => absurd (BitVec.or_eq_zero_iff.mp zero).2 (by decide)
  rw [Links, maps.kept key used, links, BootstrapStorage.tableAddress, BootstrapStorage.tableAddress, maps.address]

theorem maps_place {key : Key} (free : boot.cell key = 0) (other : ∀ tableIndex, key.1 ≠ .imagePt tableIndex)
    (raw : BitVec 64) : Maps boot (boot.place key raw) where
  toBeside := ⟨rfl, rfl, rfl⟩
  kept known used := by
    rw [Boot.cell_place, update_of_ne]
    rintro rfl
    exact used free
  image tableIndex index := by
    rw [Boot.cell_place, update_of_ne]
    exact fun same => other tableIndex (congrArg Prod.fst same).symm

theorem replaceEmpty_placed {table entries : PageTable} {index : Nat} {raw : BitVec 64}
    (replaced : table.replaceEmpty index raw = some entries) :
    table.entries index = 0 ∧ entries = table.set index raw := by
  unfold PageTable.replaceEmpty at replaced
  split_ifs at replaced with unusable
  push Not at unusable
  cases replaced
  exact ⟨unusable.2.1, rfl⟩

theorem mapLeaf_placed {index physical : Nat} {flags : BitVec 64}
    (ran : mapLeaf table index physical flags boot = .ok () after) :
    (physical % pageSize = 0 ∧ physical < 2 ^ 52) ∧ boot.cell (table, index) = 0 ∧
      after = boot.place (table, index) (leaf physical flags) := by
  simp only [mapLeaf, UserProcess.mapLeaf, bind_eq_ok_iff, demand_eq_ok_iff, Checks.bind_ok_iff,
    Words.okOr_ok_iff] at ran
  obtain ⟨_, _, got, entries, _, ⟨⟨entry, made, replaced⟩, rfl⟩, stored⟩ := ran
  cases got
  unfold PageTableEntry.new at made
  split_ifs at made with unusable
  cases made
  obtain ⟨free, rfl⟩ := replaceEmpty_placed replaced
  cases stored
  push Not at unusable
  exact ⟨unusable, free, rfl⟩

theorem maps_mapLeaf {index physical : Nat} {flags : BitVec 64}
    (ran : mapLeaf table index physical flags boot = .ok () after) (other : ∀ tableIndex, table ≠ .imagePt tableIndex) :
    Maps boot after ∧ after.cell (table, index) = leaf physical flags := by
  obtain ⟨_, free, rfl⟩ := mapLeaf_placed ran
  refine ⟨maps_place free other _, ?_⟩
  rw [Boot.cell_place, update_self]

theorem addressOf_eq {place : BootstrapStorage window → Nat} {address : Nat}
    (ran : addressOf place boot = .ok address after) : address = place boot.storage ∧ boot = after := by
  obtain ⟨_, _, got, ran⟩ := bind_eq_ok_iff.mp ran
  cases got
  obtain ⟨answered, same⟩ := demand_eq_ok_iff.mp ran
  unfold UserProcess.alignedAddress at answered
  split at answered <;> cases answered
  exact ⟨rfl, same⟩

theorem links_mapLeaf {table target : BootstrapTable} {index address : Nat}
    (ran : mapLeaf table index (address + target.position window * pageSize) hierarchy boot = .ok () after)
    (other : ∀ tableIndex, table ≠ .imagePt tableIndex) (same : boot.storage.address = address) :
    Maps boot after ∧ Links after (table, index) target := by
  obtain ⟨maps, made⟩ := maps_mapLeaf ran other
  refine ⟨maps, ?_⟩
  rw [Links, made, BootstrapStorage.tableAddress, maps.address, same]

theorem maps_addressed {place : BootstrapStorage window → Nat} {index : Nat} {flags : BitVec 64}
    (ran : (addressOf place >>= fun address => mapLeaf table index address flags) boot = .ok () after)
    (other : ∀ tableIndex, table ≠ .imagePt tableIndex) : Maps boot after := by
  obtain ⟨_, _, found, mapped⟩ := bind_eq_ok_iff.mp ran
  obtain ⟨_, rfl⟩ := addressOf_eq found
  exact (maps_mapLeaf mapped other).1

theorem maps_forM {items : List Nat} {body : Nat → Build window Unit} (ran : items.forM body boot = .ok () after)
    (step : ∀ item state next, body item state = .ok () next → Maps state next) : Maps boot after :=
  forM_invariant ran (P := fun _ state => Maps boot state)
    (fun _ item _ state next _ maps done => maps.trans (step item state next done)) (.refl boot)

theorem maps_mapImageTables {count : Nat} (ran : (List.range count).forM mapImageTable boot = .ok () after) :
    Maps boot after ∧
      ∀ tableIndex < count, Links after (.pd, userImageFirstPdIndex + tableIndex) (.imagePt tableIndex) := by
  have rounds := forM_invariant ran
    (P := fun done state => Maps boot state ∧
      ∀ tableIndex ∈ done, Links state (.pd, userImageFirstPdIndex + tableIndex) (.imagePt tableIndex))
    ?_ ⟨.refl boot, nofun⟩
  · exact ⟨rounds.1, fun tableIndex inside => rounds.2 tableIndex (List.mem_range.mpr inside)⟩
  · rintro done tableIndex _ state next _ ⟨maps, links⟩ mapped
    simp only [mapImageTable, bind_eq_ok_iff, demand_eq_ok_iff] at mapped
    obtain ⟨table, _, ⟨known, rfl⟩, address, _, found, mapped⟩ := mapped
    unfold imagePageTable at known
    split at known <;> cases known
    obtain ⟨rfl, rfl⟩ := addressOf_eq found
    obtain ⟨later, linked⟩ := links_mapLeaf mapped nofun rfl
    refine ⟨maps.trans later, fun other member => ?_⟩
    rcases List.mem_append.mp member with earlier | last
    · exact later.links (links other earlier)
    · rw [List.mem_singleton.mp last]
      exact linked

/-- The tables in front of the image stand, and those of the image are empty. -/
structure Prepared (before after : Boot window) : Prop where
  beside : Beside before after
  root : Links after (.pml4, userPml4Index) .pdpt
  pdpt : Links after (.pdpt, userPdptIndex) .pd
  pd : ∀ tableIndex < userImagePageTableCount,
    Links after (.pd, userImageFirstPdIndex + tableIndex) (.imagePt tableIndex)
  image : ∀ tableIndex index, after.cell (.imagePt tableIndex, index) = 0

theorem Prepared.maps (prepared : Prepared boot between) (maps : Maps between after) : Prepared boot after where
  beside := prepared.beside.trans maps.toBeside
  root := maps.links prepared.root
  pdpt := maps.links prepared.pdpt
  pd tableIndex inside := maps.links (prepared.pd tableIndex inside)
  image tableIndex index := (maps.image tableIndex index).trans (prepared.image tableIndex index)

theorem mapHierarchy_prepared (empty : ∀ tableIndex index, boot.cell (.imagePt tableIndex, index) = 0)
    (ran : mapHierarchy boot = .ok () after) : Prepared boot after := by
  simp only [mapHierarchy, bind_eq_ok_iff] at ran
  obtain ⟨_, _, pdpt, _, _, pd, _, _, stack, _, _, tls, _, _, surface, _, _, rooted, _, _, linked, _, _, extended,
    _, _, imaged, _, _, stacked, _, _, threaded, _, _, shown, ran⟩ := ran
  obtain ⟨rfl, rfl⟩ := addressOf_eq pdpt
  obtain ⟨rfl, rfl⟩ := addressOf_eq pd
  -- the addresses of the other tables are not needed
  obtain ⟨_, rfl⟩ := addressOf_eq stack
  obtain ⟨_, rfl⟩ := addressOf_eq tls
  obtain ⟨_, rfl⟩ := addressOf_eq surface
  obtain ⟨first, root⟩ := links_mapLeaf rooted nofun rfl
  obtain ⟨second, directory⟩ := links_mapLeaf linked nofun first.address
  have third := maps_forM extended fun _ _ _ mapped => maps_addressed mapped nofun
  obtain ⟨fourth, images⟩ := maps_mapImageTables imaged
  have rest := (maps_mapLeaf stacked nofun).1.trans <| (maps_mapLeaf threaded nofun).1.trans <|
    (maps_mapLeaf shown nofun).1.trans <| maps_forM ran fun tableIndex state next mapped => by
      obtain ⟨_, _, found, mapped⟩ := bind_eq_ok_iff.mp mapped
      obtain ⟨_, rfl⟩ := addressOf_eq found
      dsimp only at mapped
      split_ifs at mapped
      · exact (maps_mapLeaf mapped nofun).1
      · exact (maps_mapLeaf mapped nofun).1
      · cases mapped
  have upper := second.trans (third.trans fourth)
  refine Prepared.maps
    ⟨(first.trans upper).toBeside, upper.links root, (third.trans fourth).links directory, images, ?_⟩ rest
  exact fun tableIndex index => ((first.trans upper).image tableIndex index).trans (empty tableIndex index)

theorem maps_onStorage {change : BootstrapStorage window → BootstrapStorage window}
    (ran : onStorage change boot = .ok () after)
    (keeps : ∀ storage, (change storage).address = storage.address ∧ (change storage).tables = storage.tables) :
    Maps boot after := by
  cases ran
  have same (key : Key) : Boot.cell { boot with storage := change boot.storage } key = boot.cell key := by
    rw [Boot.cell, (keeps boot.storage).2, Boot.cell]
  exact ⟨⟨(keeps boot.storage).1, rfl, rfl⟩, fun key _ => same key, fun _ _ => same _⟩

theorem resetChildTlsPages_keeps (storage : BootstrapStorage window) :
    (resetChildTlsPages storage).address = storage.address ∧ (resetChildTlsPages storage).tables = storage.tables := by
  unfold resetChildTlsPages
  generalize List.range' 1 (window.threadSlots - 1) = threads
  induction threads generalizing storage with
  | nil => exact ⟨rfl, rfl⟩
  | cons threadId rest ih => exact ih (resetThreadTlsPages threadId storage)

variable {plan : UserLoadPlan} {image : List UInt8}

theorem maps_initializeTls (ran : initializeTls plan image boot = .ok () after) : Maps boot after := by
  simp only [initializeTls, bind_eq_ok_iff] at ran
  obtain ⟨_, _, first, _, _, second, rest⟩ := ran
  have controls := (maps_onStorage first fun _ => ⟨rfl, rfl⟩).trans (maps_onStorage second fun _ => ⟨rfl, rfl⟩)
  cases found : plan.tls with
  | none =>
    rw [found] at rest
    cases rest
    exact controls
  | some tls =>
    rw [found] at rest
    simp only [bind_eq_ok_iff, demand_eq_ok_iff] at rest
    obtain ⟨_, _, ⟨_, rfl⟩, _, _, initial, _, _, own, children⟩ := rest
    exact controls.trans (maps_onStorage initial fun _ => ⟨rfl, rfl⟩)
      |>.trans (maps_onStorage own fun _ => ⟨rfl, rfl⟩)
      |>.trans (maps_onStorage children resetChildTlsPages_keeps)

variable {kernelPml4 : PageTable}

theorem maps_copyKernelEntry {index : Nat} (ran : copyKernelEntry kernelPml4 index boot = .ok () after) :
    Maps boot after := by
  unfold copyKernelEntry at ran
  split at ran
  · cases ran
    exact .refl boot
  cases found : kernelPml4.rawEntry index with
  | none =>
    rw [found] at ran
    cases ran
    exact .refl boot
  | some raw =>
    rw [found] at ran
    simp only [bind_eq_ok_iff, demand_eq_ok_iff, Words.okOr_ok_iff] at ran
    obtain ⟨_, _, got, entries, _, ⟨replaced, rfl⟩, stored⟩ := ran
    cases got
    obtain ⟨free, rfl⟩ := replaceEmpty_placed replaced
    cases stored
    exact @maps_place window boot (.pml4, index) free nofun _

theorem prepare_prepared {environment : Environment}
    (ran : prepareAddressSpaceStorage environment plan image kernelPml4 boot = .ok () after) :
    Prepared boot after := by
  unfold prepareAddressSpaceStorage at ran
  split at ran
  · cases ran
  simp only [bind_eq_ok_iff] at ran
  obtain ⟨_, _, clear, _, _, copied, _, _, linked, _, _, threaded, _, _, stacked, _, _, owned, shown⟩ := ran
  cases clear
  have kernel := maps_forM copied fun _ _ _ => maps_copyKernelEntry
  have hierarchy := mapHierarchy_prepared kernel.image linked
  have stack := maps_forM stacked fun _ _ _ mapped => maps_addressed mapped nofun
  have tls := maps_forM owned fun _ _ _ mapped => maps_addressed mapped nofun
  have surface := maps_forM shown fun index state next mapped => by
    obtain ⟨_, _, found, mapped⟩ := bind_eq_ok_iff.mp mapped
    obtain ⟨_, rfl⟩ := demand_eq_ok_iff.mp found
    exact (maps_mapLeaf mapped nofun).1
  have whole := hierarchy.maps ((maps_initializeTls threaded).trans (stack.trans (tls.trans surface)))
  have beside := kernel.toBeside.trans whole.beside
  exact { whole with beside := ⟨beside.address, beside.allocator, beside.memory⟩ }

end
end Bootstrap
end Nagi.Kernel
