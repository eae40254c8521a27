import Nagi.Kernel.UserChild.Storage
import Nagi.Lib.Paging

/-! What the tables of a child give access to.

Each part of the construction is a loop that fills distinct entries of one
table; the finished tables are then followed level by level. -/

namespace Nagi.Kernel

open Lib UserElf PageTableEntry Function PageTable List BitVec

namespace UserChild

theorem position_inside (table : ChildTable) : table.position < childPages := by
  cases table <;> decide

section Tables
variable (storage : ChildStorage) (table : ChildTable) (entries : PageTable)

@[simp] theorem tables_setTable_self : (storage.setTable table entries).tables table = entries := update_self ..

@[simp] theorem tables_setTable_of_ne {other : ChildTable} (different : other ≠ table) :
    (storage.setTable table entries).tables other = storage.tables other := update_of_ne different ..

theorem setTable_setTable (later : PageTable) :
    (storage.setTable table entries).setTable table later = storage.setTable table later := by
  simp only [ChildStorage.setTable, update_idem]

theorem setTable_same : storage.setTable table (storage.tables table) = storage := by
  simp only [ChildStorage.setTable, update_eq_self]

end Tables

theorem range_next {count index : Nat} {done rest : List Nat} (split : range count = done ++ index :: rest) :
    index < count ∧ ∀ other ∈ done, other ≠ index := by
  have distinct : (done ++ index :: rest).Nodup := split ▸ nodup_range
  constructor
  · rw [← mem_range, split]
    exact mem_append_right _ mem_cons_self
  · intro other member
    exact (nodup_append.mp distinct).2.2 other member index mem_cons_self

def leaf (address : Nat) (flags : BitVec 64) : BitVec 64 := BitVec.ofNat 64 address ||| flags

variable {storage : ChildStorage}

theorem addressOf_ok {place : ChildStorage → Nat} {position : Nat}
    (at_position : place storage = storage.address + position * pageSize) (inside : position < childPages) :
    addressOf place storage = .ok (storage.address + position * pageSize) storage := by
  have asked : addressOf place storage = demand (UserProcess.alignedAddress (place storage)) storage := rfl
  rw [asked, at_position]
  exact demand_ok (if_pos ⟨place_aligned storage.aligned _, place_bounded storage.placed inside⟩) storage

theorem mapLeaf_ok {table : ChildTable} {index position physical : Nat} {flags : BitVec 64}
    (within : index < pageTableEntries) (free : (storage.tables table).entries index = 0)
    (place : physical = storage.address + position * pageSize) (inside : position < childPages) (marked : flags ≠ 0) :
    mapLeaf table index physical flags storage =
      .ok () (storage.setTable table ((storage.tables table).set index (leaf physical flags))) := by
  subst place
  have mapped := UserProcess.mapLeaf_ok within free (place_aligned storage.aligned _)
      (place_bounded storage.placed inside) marked
  exact bind_ok (demand_ok mapped storage) _

section Copying
variable (kernelPml4 : PageTable)

def copied (index : Nat) : BitVec 64 :=
  if index = userPml4Index then 0 else kernelPml4.entries index &&& ~~~PageTableEntry.user

theorem eq_user_of_masked {raw : BitVec 64} (nonzero : raw ≠ 0) (masked : raw &&& ~~~user = 0) :
    raw = user := by
  have split : raw = raw &&& ~~~user ||| raw &&& user := by
    rw [← and_or_distrib_left, BitVec.or_comm, or_not_self, and_allOnes]
  rw [masked, show user = twoPow 64 2 by decide, and_twoPow] at split
  split_ifs at split
  · exact split
  · exact absurd split nonzero

/-- An entry can be copied unless nothing but the user bit is set in it. -/
def Copyable (index : Nat) : Prop := index ≠ userPml4Index → kernelPml4.entries index ≠ PageTableEntry.user

theorem copyKernelEntry_outcome {index : Nat} (within : index < pageTableEntries)
    (free : (storage.tables .pml4).entries index = 0) :
    (Copyable kernelPml4 index ∧ copyKernelEntry kernelPml4 index storage =
        .ok () (storage.setTable .pml4 ((storage.tables .pml4).set index (copied kernelPml4 index)))) ∨
      (¬Copyable kernelPml4 index ∧
        copyKernelEntry kernelPml4 index storage = .error (.error .invalidLoadPlan) storage) := by
  have untouched : storage.setTable .pml4 ((storage.tables .pml4).set index 0) = storage := by
    have same : (storage.tables .pml4).set index 0 = storage.tables .pml4 := by
      rw [← free, PageTable.set, update_eq_self]
    rw [same, setTable_same]
  unfold copyKernelEntry
  by_cases own : index = userPml4Index
  · left
    rw [copied, if_pos own, if_pos own, untouched]
    exact ⟨fun other => absurd own other, rfl⟩
  rw [if_neg own, copied, if_neg own]
  by_cases unused : kernelPml4.entries index = 0
  · left
    have absent : kernelPml4.rawEntry index = none := if_neg fun both => both.2 unused
    have blank : kernelPml4.entries index &&& ~~~user = 0 := by
      rw [unused]
      exact zero_and
    rw [absent, blank, untouched]
    exact ⟨fun _ => by rw [unused]; decide, rfl⟩
  · have read : kernelPml4.rawEntry index = some (kernelPml4.entries index) := if_pos ⟨within, unused⟩
    rw [read]
    by_cases blank : kernelPml4.entries index &&& ~~~user = 0
    · right
      have refused : (storage.tables .pml4).replaceEmpty index
          (kernelPml4.entries index &&& ~~~user) = none := if_pos (.inr (.inr blank))
      refine ⟨fun copyable => copyable own (eq_user_of_masked unused blank), ?_⟩
      exact bind_error (demand_error (by rw [refused]; rfl) storage) _
    · left
      have placed : (storage.tables .pml4).replaceEmpty index (kernelPml4.entries index &&& ~~~user) =
          some ((storage.tables .pml4).set index (kernelPml4.entries index &&& ~~~user)) := by
        simpa [PageTable.replaceEmpty, within, free] using blank
      refine ⟨fun _ same => blank (by rw [same]; decide), ?_⟩
      exact bind_ok (demand_ok (by rw [placed]; rfl) storage) _

/-- The loop over the kernel's table goes through exactly if every entry can be copied. -/
theorem copyKernelEntries_outcome (clean : storage.tables .pml4 = .empty) :
    ((∀ index ∈ range pageTableEntries, Copyable kernelPml4 index) ∧ ∃ cells,
        (range pageTableEntries).forM (copyKernelEntry kernelPml4) storage = .ok () (storage.setTable .pml4 ⟨cells⟩) ∧
          Table.Filled id (copied kernelPml4) (fun _ => 0) (range pageTableEntries) cells) ∨
      ((∃ index ∈ range pageTableEntries, ¬Copyable kernelPml4 index) ∧ ∃ after,
        (range pageTableEntries).forM (copyKernelEntry kernelPml4) storage =
          .error (.error .invalidLoadPlan) after) := by
  have outcome := forM_outcome (range pageTableEntries) (copyKernelEntry kernelPml4) storage
    (P := fun done state => ∃ cells, state = storage.setTable .pml4 ⟨cells⟩ ∧
      Table.Filled id (copied kernelPml4) (fun _ => 0) done cells)
    (G := Copyable kernelPml4) (R := fun fault => fault = .error .invalidLoadPlan) ?_ ?_
  · obtain ⟨good, after, ran, cells, rfl, filled⟩ | ⟨bad, _, after, failed, rfl⟩ := outcome
    · exact .inl ⟨good, cells, ran, filled⟩
    · exact .inr ⟨bad, after, failed⟩
  · rintro done index rest _ split ⟨cells, rfl, filled⟩
    obtain ⟨within, fresh⟩ := range_next split
    have free : ((storage.setTable .pml4 ⟨cells⟩).tables .pml4).entries index = 0 := by
      exact filled.elsewhere index fresh
    obtain ⟨good, ran⟩ | ⟨bad, failed⟩ := copyKernelEntry_outcome kernelPml4 within free
    · refine .inl ⟨good, _, ran, update cells index (copied kernelPml4 index), ?_, filled.snoc fresh⟩
      rw [setTable_setTable, tables_setTable_self]
      rfl
    · exact .inr ⟨bad, _, _, failed, rfl⟩
  · exact ⟨fun _ => 0, by rw [← empty, ← clean, setTable_same], .nil⟩

end Copying

theorem mapTables_ok (free : (storage.tables .pml4).entries userPml4Index = 0) (pdpt : storage.tables .pdpt = .empty)
    (pd : storage.tables .pd = .empty) : mapTables storage = .ok () (((storage.setTable .pml4
        ((storage.tables .pml4).set userPml4Index (leaf (storage.tableAddress .pdpt) hierarchy))).setTable .pdpt
        (empty.set userPdptIndex (leaf (storage.tableAddress .pd) hierarchy))).setTable .pd
        ((empty.set userImageFirstPdIndex (leaf (storage.tableAddress .imagePt) hierarchy)).set
          (userPdIndex userStackBase) (leaf (storage.tableAddress .stackPt) hierarchy))) := by
  have marked : hierarchy ≠ 0 := by decide
  unfold mapTables
  rw [bind_ok (addressOf_ok rfl (position_inside .pdpt)), bind_ok (addressOf_ok rfl (position_inside .pd)),
    bind_ok (addressOf_ok rfl (position_inside .imagePt)), bind_ok (addressOf_ok rfl (position_inside .stackPt))]
  refine (bind_ok (mapLeaf_ok (by decide) free rfl (position_inside .pdpt) marked) _).trans ?_
  have pdptFree (pml4 : PageTable) : ((storage.setTable .pml4 pml4).tables .pdpt).entries userPdptIndex = 0 := by
    simp [pdpt, empty]
  refine (bind_ok (mapLeaf_ok (by decide) (pdptFree _) rfl (position_inside .pd) marked) _).trans ?_
  rw [tables_setTable_of_ne _ _ _ (by decide), pdpt]
  generalize below : (storage.setTable .pml4 _).setTable .pdpt _ = linked
  have address : linked.address = storage.address := by rw [← below]; rfl
  have pdClean : linked.tables .pd = .empty := by
    simp [← below, pd]
  have imageFree : (linked.tables .pd).entries userImageFirstPdIndex = 0 := by rw [pdClean]; rfl
  refine (bind_ok (mapLeaf_ok (by decide) imageFree (by rw [address]) (position_inside .imagePt) marked) _).trans ?_
  rw [pdClean]
  have stackFree (entry : BitVec 64) : ((linked.setTable .pd (empty.set userImageFirstPdIndex entry)).tables
      .pd).entries (userPdIndex userStackBase) = 0 := by
    have apart : userPdIndex userStackBase ≠ userImageFirstPdIndex := by decide
    exact update_of_ne apart entry _
  refine (mapLeaf_ok (by decide) (stackFree _) (by rw [← address]; rfl) (position_inside .stackPt) marked).trans ?_
  rw [setTable_setTable, tables_setTable_self, ← below]
  rfl

theorem mapStack_ok (clean : storage.tables .stackPt = .empty) :
    ∃ cells, (range childStackPages).forM mapStackPage storage = .ok () (storage.setTable .stackPt ⟨cells⟩) ∧
      Table.Filled (pageTableEntries - childStackPages + ·)
        (fun index => leaf (storage.stackPageAddress index) stackFlags)
        (fun _ => 0) (range childStackPages) cells := by
  have loop := forM_ok (range childStackPages) mapStackPage storage
    (P := fun done state => ∃ cells, state = storage.setTable .stackPt ⟨cells⟩ ∧
      Table.Filled (pageTableEntries - childStackPages + ·)
        (fun index => leaf (storage.stackPageAddress index) stackFlags) (fun _ => 0) done cells) ?_ ?_
  · obtain ⟨_, ran, cells, rfl, filled⟩ := loop
    exact ⟨cells, ran, filled⟩
  · rintro done index rest _ split ⟨cells, rfl, filled⟩
    obtain ⟨within, unused⟩ := range_next split
    have fresh : ∀ other ∈ done, pageTableEntries - childStackPages + other ≠
        pageTableEntries - childStackPages + index :=
      fun other member same => unused other member (Nat.add_left_cancel same)
    have inside : 5 + childImagePages + index < childPages := Nat.add_lt_add_left within _
    have below : pageTableEntries - childStackPages + index < pageTableEntries := by
      have fits : childStackPages ≤ pageTableEntries := by decide
      omega
    have free : ((storage.setTable .stackPt ⟨cells⟩).tables .stackPt).entries
        (pageTableEntries - childStackPages + index) = 0 := by
      exact filled.elsewhere _ fresh
    refine ⟨_, (bind_ok (addressOf_ok rfl inside) _).trans (mapLeaf_ok below free rfl inside (by decide)),
      update cells _ (leaf (storage.stackPageAddress index) stackFlags), ?_, filled.snoc fresh⟩
    rw [setTable_setTable, tables_setTable_self]
    rfl
  · exact ⟨fun _ => 0, by rw [← empty, ← clean, setTable_same], .nil⟩

section Loading
variable (image : List UInt8)

def firstPage (segment : UserLoadSegment) : Nat := (segment.virtualAddress - userImageBase) / pageSize

abbrev Piece := UserLoadSegment × Nat

namespace Piece

def page (piece : Piece) : Nat := firstPage piece.1 + piece.2

def content (piece : Piece) : PageBytes := fun offset =>
  if offset < fileBytes piece.1 piece.2 then image.getD (piece.1.fileOffset + piece.2 * pageSize + offset) 0 else 0

end Piece

def pieces (segments : List UserLoadSegment) : List Piece :=
  segments.flatMap fun segment => (range (pageCount segment)).map (segment, ·)

variable {segment : UserLoadSegment}

theorem copyFileBytes_ok (sound : UserProcess.Sound image segment) (relative : Nat) :
    copyFileBytes image segment relative (fun _ => 0) = .ok (Piece.content image (segment, relative)) := by
  by_cases blank : fileBytes segment relative = 0
  · have zeros : Piece.content image (segment, relative) = fun _ => 0 := by
      funext offset
      simp only [Piece.content, blank]
      rfl
    rw [zeros]
    exact if_pos blank
  · have inside : relative * pageSize + fileBytes segment relative ≤ segment.fileSize := by
      unfold fileBytes at blank ⊢
      omega
    have inFile := sound.inFile
    have fits := sound.fits
    have first : segment.fileOffset + relative * pageSize < 2 ^ 64 := by omega
    have last : segment.fileOffset + relative * pageSize + fileBytes segment relative < 2 ^ 64 := by omega
    refine (if_neg blank).trans ?_
    rw [Words.add_bind first, Words.add_bind last]
    exact if_neg (by omega)

variable {image}

theorem loadPage_ok {piece : Piece} (sound : UserProcess.Sound image piece.1) (within : piece.page < childImagePages)
    (free : (storage.tables .imagePt).entries piece.page = 0) (blank : storage.imagePages piece.page = fun _ => 0) :
    loadPage image piece.1 (firstPage piece.1) piece.2 storage =
      .ok () ((storage.setImagePage piece.page (piece.content image)).setTable .imagePt
        ((storage.tables .imagePt).set piece.page
          (leaf (storage.imagePageAddress piece.page) (segmentFlags piece.1)))) := by
  have position : 5 + piece.page < childPages := by
    unfold childPages
    omega
  have wide : piece.page < pageTableEntries := Nat.lt_trans within (by decide)
  have marked : segmentFlags piece.1 ≠ 0 := by
    unfold segmentFlags
    split <;> split <;> decide
  have copy := copyFileBytes_ok image sound piece.2
  rw [← blank] at copy
  have here : firstPage piece.1 + piece.2 = piece.page := rfl
  have got : (get : Build ChildStorage) storage = .ok storage storage := rfl
  unfold loadPage
  rw [here, if_neg (Nat.not_le.mpr within), bind_ok got, bind_ok (demand_ok copy storage)]
  refine (bind_ok rfl _).trans ?_
  exact (bind_ok (addressOf_ok rfl position) _).trans (mapLeaf_ok wide free rfl position marked)

theorem firstPage_spec (sound : UserProcess.Sound image segment) :
    segment.virtualAddress = userImageBase + firstPage segment * pageSize := by
  have above := sound.above
  have aligned := sound.aligned
  have base : userImageBase % pageSize = 0 := by decide
  unfold firstPage
  have whole : (segment.virtualAddress - userImageBase) % pageSize = 0 := by
    rw [Nat.sub_mod_eq_zero_of_mod_eq (by rw [aligned, base])]
  have split := Nat.div_add_mod (segment.virtualAddress - userImageBase) pageSize
  rw [whole, Nat.mul_comm] at split
  omega

theorem lt_pageCount_iff {relative : Nat} :
    relative < pageCount segment ↔ relative * pageSize < segment.memorySize := by
  unfold pageCount pageSize
  omega

variable {segments : List UserLoadSegment}

theorem mem_pieces {piece : Piece} :
    piece ∈ pieces segments ↔ piece.1 ∈ segments ∧ piece.2 * pageSize < piece.1.memorySize := by
  obtain ⟨segment, relative⟩ := piece
  simp [pieces, lt_pageCount_iff]

theorem forM_pieces {ε σ : Type} {load : UserLoadSegment → EStateM ε σ Unit}
    {place : UserLoadSegment → Nat → Nat → EStateM ε σ Unit} (each : ∀ segment ∈ segments,
      load segment = (range (pageCount segment)).forM (place segment (firstPage segment))) :
    segments.forM load = (pieces segments).forM fun piece => place piece.1 (firstPage piece.1) piece.2 := by
  rw [pieces, forM_flatMap]
  refine forM_congr fun segment member => ?_
  rw [each segment member, forM_eq_forM, forM_eq_forM, forM_map]

section
variable (sound : ∀ segment ∈ segments, UserProcess.Sound image segment)
include sound

theorem pieces_distinct (apart : segments.Pairwise UserProcess.Apart) :
    (pieces segments).Pairwise fun first second => first.page ≠ second.page := by
  apply pairwise_flatMap.mpr
  constructor
  · intro segment member
    apply pairwise_map.mpr
    refine nodup_range.imp ?_
    intro first second different same
    exact different (Nat.add_left_cancel same)
  · refine apart.imp_of_mem ?_
    intro first second firstIn secondIn separate one firstPiece two secondPiece same
    obtain ⟨i, inFirst, rfl⟩ := mem_map.mp firstPiece
    obtain ⟨j, inSecond, rfl⟩ := mem_map.mp secondPiece
    have firstAt := firstPage_spec (sound first firstIn)
    have secondAt := firstPage_spec (sound second secondIn)
    have firstInside := lt_pageCount_iff.mp (mem_range.mp inFirst)
    have secondInside := lt_pageCount_iff.mp (mem_range.mp inSecond)
    simp only [Piece.page] at same
    unfold UserProcess.Apart at separate
    unfold pageSize at *
    omega

theorem loadSegments_eq : segments.forM (loadSegment image) =
    (pieces segments).forM fun piece => loadPage image piece.1 (firstPage piece.1) piece.2 :=
  forM_pieces fun segment member => Words.sub_bind (sound segment member).above _

end

def withImage (storage : ChildStorage) (cells : Nat → BitVec 64) (pages : Nat → PageBytes) : ChildStorage :=
  { storage with tables := update storage.tables .imagePt ⟨cells⟩, imagePages := pages }

structure Loaded (image : List UInt8) (storage : ChildStorage) (done : List Piece) (cells : Nat → BitVec 64)
    (pages : Nat → PageBytes) : Prop where
  entries : Table.Filled Piece.page
    (fun piece => leaf (storage.imagePageAddress piece.page) (segmentFlags piece.1)) (fun _ => 0) done cells
  contents : Table.Filled Piece.page (Piece.content image) (fun _ _ => 0) done pages

theorem page_within (sound : UserProcess.Sound image segment)
    (below : segment.virtualAddress + segment.memorySize ≤ childImageLimit) {relative : Nat}
    (inside : relative * pageSize < segment.memorySize) : Piece.page (segment, relative) < childImagePages := by
  have start := firstPage_spec sound
  simp only [Piece.page, childImageLimit, pageSize] at *
  omega

theorem loadSegments_ok (sound : ∀ segment ∈ segments, UserProcess.Sound image segment)
    (apart : segments.Pairwise UserProcess.Apart)
    (below : ∀ segment ∈ segments, segment.virtualAddress + segment.memorySize ≤ childImageLimit)
    (clean : storage.tables .imagePt = .empty) (blank : storage.imagePages = fun _ _ => 0) :
    ∃ cells pages, segments.forM (loadSegment image) storage = .ok () (withImage storage cells pages) ∧
      Loaded image storage (pieces segments) cells pages := by
  rw [loadSegments_eq sound]
  have loop := forM_ok (pieces segments) (fun piece => loadPage image piece.1 (firstPage piece.1) piece.2) storage
    (P := fun done state => ∃ cells pages, state = withImage storage cells pages ∧
      Loaded image storage done cells pages)
    ?_ ?_
  · obtain ⟨_, ran, cells, pages, rfl, loaded⟩ := loop
    exact ⟨cells, pages, ran, loaded⟩
  · rintro done piece rest _ split ⟨cells, pages, rfl, loaded⟩
    obtain ⟨member, inside⟩ : piece.1 ∈ segments ∧ piece.2 * pageSize < piece.1.memorySize := by
      rw [← mem_pieces, split]
      exact mem_append_right _ mem_cons_self
    have fresh : ∀ other ∈ done, other.page ≠ piece.page := by
      have distinct := pieces_distinct sound apart
      rw [split] at distinct
      exact fun other earlier => (pairwise_append.mp distinct).2.2 other earlier piece mem_cons_self
    have free : ((withImage storage cells pages).tables .imagePt).entries piece.page = 0 := by
      exact loaded.entries.elsewhere piece.page fresh
    have empty : (withImage storage cells pages).imagePages piece.page = fun _ => 0 :=
      loaded.contents.elsewhere piece.page fresh
    refine ⟨_, loadPage_ok (sound _ member) (page_within (sound _ member) (below _ member) inside) free empty,
      update cells piece.page (leaf (storage.imagePageAddress piece.page) (segmentFlags piece.1)),
      update pages piece.page (piece.content image), ?_, loaded.entries.snoc fresh, loaded.contents.snoc fresh⟩
    simp only [withImage, ChildStorage.setTable, ChildStorage.setImagePage, update_idem, update_self]
    rfl
  · refine ⟨fun _ => 0, fun _ _ => 0, ?_, .nil, .nil⟩
    rw [withImage, ← empty, ← clean, ← blank, update_eq_self]

end Loading

variable {plan : UserLoadPlan} {image : List UInt8}

theorem validateChildPlan_sound (accepted : validateChildPlan plan image = .ok ()) :
    (∀ segment ∈ plan.segments, UserProcess.Sound image segment) ∧ plan.segments.Pairwise UserProcess.Apart ∧
      ∀ segment ∈ plan.segments, segment.virtualAddress + segment.memorySize ≤ childImageLimit := by
  obtain ⟨_, valid, rest⟩ := Checks.bind_ok_iff.mp accepted
  obtain ⟨sound, apart⟩ := UserProcess.validatePlan_sound valid
  obtain ⟨_, ends⟩ := Checks.unless_bind_ok_iff.mp rest
  refine ⟨sound, apart, ?_⟩
  intro segment member
  have test := (Checks.forM_ok_iff _).mp ends segment member
  simp only [validateEnd, UserProcess.reject, Checks.bind_ok_iff, Words.okOr_ok_iff, Words.checkedAdd_eq_some_iff,
    Checks.unless_ok_iff] at test
  omega

structure Laid (plan : UserLoadPlan) (image : List UInt8) (kernelPml4 : PageTable) (after : ChildStorage) : Prop where
  kernel : ∀ index < pageTableEntries, index ≠ userPml4Index →
    (after.tables .pml4).entries index = kernelPml4.entries index &&& ~~~PageTableEntry.user
  root : (after.tables .pml4).entries userPml4Index = leaf (after.tableAddress .pdpt) hierarchy
  pdpt : after.tables .pdpt = empty.set userPdptIndex (leaf (after.tableAddress .pd) hierarchy)
  pd : after.tables .pd =
    (empty.set userImageFirstPdIndex (leaf (after.tableAddress .imagePt) hierarchy)).set
      (userPdIndex userStackBase) (leaf (after.tableAddress .stackPt) hierarchy)
  stack : Table.Filled (pageTableEntries - childStackPages + ·)
    (fun index => leaf (after.stackPageAddress index) stackFlags) (fun _ => 0) (range childStackPages)
    (after.tables .stackPt).entries
  image : Loaded image after (pieces plan.segments) (after.tables .imagePt).entries after.imagePages
  stackPages : after.stackPages = fun _ _ => 0

/-- An accepted plan is built exactly if the kernel's table can be copied. -/
theorem buildChildAddressSpace_outcome (accepted : validateChildPlan plan image = .ok ()) (kernelPml4 : PageTable)
    (storage : ChildStorage) : ((∀ index ∈ range pageTableEntries, Copyable kernelPml4 index) ∧ ∃ after,
        buildChildAddressSpace plan image kernelPml4 storage =
          .ok ⟨firstIsolatedProcessId, plan.entry, userStackLimit - 8, after.tableAddress .pml4⟩ after ∧
          after.address = storage.address ∧ Laid plan image kernelPml4 after) ∨
      ((∃ index ∈ range pageTableEntries, ¬Copyable kernelPml4 index) ∧ ∃ after,
        buildChildAddressSpace plan image kernelPml4 storage = .error (.error .invalidLoadPlan) after) := by
  obtain ⟨sound, apart, below⟩ := validateChildPlan_sound accepted
  have cleared : (modify ChildStorage.clear : Build Unit) storage = .ok () storage.clear := rfl
  have clean (table : ChildTable) : storage.clear.tables table = .empty := rfl
  unfold buildChildAddressSpace
  rw [bind_ok (demand_ok accepted storage), bind_ok cleared]
  obtain ⟨good, kernelCells, copied, kernel⟩ | ⟨bad, after, failed⟩ :=
    copyKernelEntries_outcome kernelPml4 (clean .pml4)
  · have ownFree : ((storage.clear.setTable .pml4 ⟨kernelCells⟩).tables .pml4).entries userPml4Index = 0 := by
      exact (kernel.at_key userPml4Index (mem_range.mpr (by decide))).trans (if_pos rfl)
    have mapped := mapTables_ok ownFree (by simp [clean]) (by simp [clean])
    rw [bind_ok copied, bind_ok mapped]
    generalize linkedIs : ChildStorage.setTable (ChildStorage.setTable _ .pdpt _) .pd _ = linked
    have others (table : ChildTable) (notRoot : table ≠ .pml4) (notPdpt : table ≠ .pdpt) (notPd : table ≠ .pd) :
        linked.tables table = .empty := by
      simp [← linkedIs, notRoot, notPdpt, notPd, clean]
    have zeros : linked.imagePages = fun _ _ => 0 := by rw [← linkedIs]; rfl
    obtain ⟨stackCells, stacked, stack⟩ := mapStack_ok (others .stackPt (by decide) (by decide) (by decide))
    obtain ⟨cells, pages, loadedAll, loaded⟩ := loadSegments_ok sound apart below
      (show (linked.setTable .stackPt ⟨stackCells⟩).tables .imagePt = .empty by simp [others .imagePt]) zeros
    rw [bind_ok stacked, bind_ok loadedAll, bind_ok (addressOf_ok rfl (position_inside .pml4))]
    left
    refine ⟨good, _, rfl, by rw [← linkedIs]; rfl, ?_⟩
    -- the later parts change neither the upper tables nor the place of the storage
    have rooted : linked.tables .pml4 =
        PageTable.set ⟨kernelCells⟩ userPml4Index (leaf (linked.tableAddress .pdpt) hierarchy) := by
      simp [← linkedIs]
      rfl
    constructor
    · intro index within other
      have kept := kernel.at_key index (mem_range.mpr within)
      change (linked.tables .pml4).entries index = _
      rw [rooted, entries_set_of_ne _ other]
      exact kept.trans (if_neg other)
    · change (linked.tables .pml4).entries userPml4Index = _
      rw [rooted, entries_set_self]
      rfl
    · change linked.tables .pdpt = _
      simp [← linkedIs]
      rfl
    · simp [← linkedIs]
      rfl
    · exact stack
    · exact ⟨loaded.entries, loaded.contents⟩
    · rw [← linkedIs]
      rfl
  · right
    exact ⟨bad, after, bind_error failed _⟩

end UserChild
end Nagi.Kernel
