import Nagi.Kernel.UserChild.AddressSpace

/-! A child reaches its own image and stack and nothing else. -/

namespace Nagi.Kernel

open Lib UserElf Paging PageTableEntry PageTable BitVec

namespace UserChild

/-- Memory holds the tables of the storage where they stand. -/
def Shows (read : Nat → Nat → BitVec 64) (storage : ChildStorage) : Prop :=
  ∀ table, ∀ index < pageTableEntries, read (storage.tableAddress table) index = (storage.tables table).entries index

/-- Some byte of the segment is on the page of the address. -/
def Touches (segment : UserLoadSegment) (address : Nat) : Prop :=
  ∃ byte, segment.virtualAddress ≤ byte ∧ byte < segment.virtualAddress + segment.memorySize ∧
    byte / pageSize = address / pageSize

def OnStack (address : Nat) : Prop := childStackBase ≤ address ∧ address < userStackLimit

def imageIndex (address : Nat) : Nat := (address - userImageBase) / pageSize

def imageAccess (storage : ChildStorage) (segment : UserLoadSegment) (address : Nat) : Paging.Access :=
  ⟨storage.imagePageAddress (imageIndex address), decide (segment.flags &&& pfW ≠ 0#32),
    decide (segment.flags &&& pfX ≠ 0#32)⟩

def stackIndex (address : Nat) : Nat := (address - childStackBase) / pageSize

def stackAccess (storage : ChildStorage) (address : Nat) : Paging.Access :=
  ⟨storage.stackPageAddress (stackIndex address), true, false⟩

theorem leads_leaf {address : Nat} {flags : BitVec 64} (aligned : address % pageSize = 0) (bounded : address < 2 ^ 52)
    (apart : flags &&& pageTableAddressMask = 0#64) (present : flags.getLsbD 0 = true) (user : flags.getLsbD 2 = true)
    (small : flags.getLsbD 7 = false) :
    Paging.Leads (leaf address flags) address (flags.getLsbD 1) (!flags.getLsbD 63) := by
  have kept := ofNat_and_addressMask aligned bounded
  have outside (bit : Nat) (away : ¬(12 ≤ bit ∧ bit < 52)) : (leaf address flags).getLsbD bit = flags.getLsbD bit := by
    have clear : (BitVec.ofNat 64 address).getLsbD bit = false := by
      rw [← kept, getLsbD_and, getLsbD_addressMask, decide_eq_false away, Bool.and_false]
    rw [leaf, getLsbD_or, clear, Bool.false_or]
  constructor
  · rw [outside 0 (by decide), present]
  · rw [outside 2 (by decide), user]
  · rw [outside 7 (by decide), small]
  · change (leaf address flags &&& pageTableAddressMask).toNat = address
    rw [leaf, and_or_distrib_right, kept, apart, or_zero, toNat_ofNat]
    omega
  · rw [outside 1 (by decide)]
  · rw [outside 63 (by decide), Bool.not_not]

variable {storage : ChildStorage}

theorem leads_hierarchy (table : ChildTable) :
    Paging.Leads (leaf (storage.tableAddress table) hierarchy) (storage.tableAddress table) true true :=
  leads_leaf (place_aligned storage.aligned _) (place_bounded storage.placed (position_inside table)) (by decide)
    (by decide) (by decide) (by decide)

theorem leads_stack {index : Nat} (within : index < childStackPages) :
    Paging.Leads (leaf (storage.stackPageAddress index) stackFlags) (storage.stackPageAddress index) true false :=
  leads_leaf (place_aligned storage.aligned _) (place_bounded storage.placed (Nat.add_lt_add_left within _)) (by decide)
    (by decide) (by decide) (by decide)

theorem leads_segment {address : Nat} (aligned : address % pageSize = 0) (bounded : address < 2 ^ 52)
    (segment : UserLoadSegment) :
    Paging.Leads (leaf address (segmentFlags segment)) address
      (decide (segment.flags &&& pfW ≠ 0#32)) (decide (segment.flags &&& pfX ≠ 0#32)) := by
  have flags : segmentFlags segment &&& pageTableAddressMask = 0#64 ∧ (segmentFlags segment).getLsbD 0 = true ∧
      (segmentFlags segment).getLsbD 2 = true ∧ (segmentFlags segment).getLsbD 7 = false ∧
      (segmentFlags segment).getLsbD 1 = decide (segment.flags &&& pfW ≠ 0#32) ∧
      (!(segmentFlags segment).getLsbD 63) = decide (segment.flags &&& pfX ≠ 0#32) := by
    unfold segmentFlags
    by_cases writable : segment.flags &&& pfW = 0#32 <;> by_cases executable : segment.flags &&& pfX = 0#32 <;>
      simp only [writable, executable, ne_eq, not_true, not_false_iff, if_true, if_false, decide_true, decide_false] <;>
      decide
  obtain ⟨apart, present, user, small, writable, executable⟩ := flags
  rw [← writable, ← executable]
  exact leads_leaf aligned bounded apart present user small

theorem leads_image {index : Nat} (within : index < childImagePages) (segment : UserLoadSegment) :
    Paging.Leads (leaf (storage.imagePageAddress index) (segmentFlags segment)) (storage.imagePageAddress index)
      (decide (segment.flags &&& pfW ≠ 0#32)) (decide (segment.flags &&& pfX ≠ 0#32)) := by
  have inside : 5 + index < childPages := by
    unfold childPages
    omega
  exact leads_segment (place_aligned storage.aligned _) (place_bounded storage.placed inside) segment

section Walks
variable {plan : UserLoadPlan} {image : List UInt8} {kernelPml4 : PageTable} {after : ChildStorage}
variable {read : Nat → Nat → BitVec 64} {address shift : Nat} {rest : List Nat} {writable executable : Bool}

theorem index_within (address shift : Nat) : address / 2 ^ shift % 512 < pageTableEntries := Nat.mod_lt _ (by decide)

theorem walk_table (shows : Shows read after) (table : ChildTable) {target : Nat} {writes fetches : Bool}
    (leads : Paging.Leads ((after.tables table).entries (address / 2 ^ shift % 512)) target writes fetches) :
    walk read address (shift :: rest) ⟨after.tableAddress table, writable, executable⟩ =
      walk read address rest ⟨target, writable && writes, executable && fetches⟩ := by
  apply walk_leads
  rwa [shows table _ (index_within address shift)]

theorem walk_empty (shows : Shows read after) (table : ChildTable)
    (empty : (after.tables table).entries (address / 2 ^ shift % 512) = 0) :
    walk read address (shift :: rest) ⟨after.tableAddress table, writable, executable⟩ = none := by
  apply walk_blocked
  left
  rw [shows table _ (index_within address shift), empty]
  exact getLsbD_zero

theorem root_blocked (laid : Laid plan image kernelPml4 after) (shows : Shows read after)
    (other : address / 2 ^ 39 % 512 ≠ userPml4Index) : userAccess read address (after.tableAddress .pml4) = none := by
  have within := index_within address 39
  have masked : (~~~user).getLsbD 2 = false := by decide
  apply walk_blocked
  right
  rw [shows .pml4 _ within, laid.kernel _ within other, getLsbD_and, masked, Bool.and_false]

/-- The table that an address gets to: that of the image, that of the stack, or none. -/
theorem userAccess_eq (laid : Laid plan image kernelPml4 after) (shows : Shows read after)
    (canonical : address < 2 ^ 48) :
    userAccess read address (after.tableAddress .pml4) =
      if address / 2 ^ 21 = userImageBase / 2 ^ 21 then
        walk read address [12] ⟨after.tableAddress .imagePt, true, true⟩
      else if address / 2 ^ 21 = userStackBase / 2 ^ 21 then
        walk read address [12] ⟨after.tableAddress .stackPt, true, true⟩
      else none := by
  have pml4Index : userPml4Index = 128 := rfl
  have pdptIndex : userPdptIndex = 0 := by decide
  have imageIndex : userImageFirstPdIndex = 0 := by decide
  have stackIndex : userPdIndex userStackBase = 256 := by decide
  have imageAt : userImageBase / 2 ^ 21 = 128 * 512 * 512 := by decide
  have stackAt : userStackBase / 2 ^ 21 = 128 * 512 * 512 + 256 := by decide
  by_cases own : address / 2 ^ 39 % 512 = userPml4Index
  swap
  · rw [root_blocked laid shows own, if_neg (by omega), if_neg (by omega)]
  have root : Paging.Leads ((after.tables .pml4).entries (address / 2 ^ 39 % 512))
      (after.tableAddress .pdpt) true true := by
    rw [own, laid.root]
    exact leads_hierarchy .pdpt
  refine (walk_table shows .pml4 root).trans ?_
  by_cases low : address / 2 ^ 30 % 512 = userPdptIndex
  swap
  · rw [if_neg (by omega), if_neg (by omega)]
    refine walk_empty shows .pdpt ?_
    rw [laid.pdpt, entries_set_of_ne _ low]
    rfl
  have second : Paging.Leads ((after.tables .pdpt).entries (address / 2 ^ 30 % 512))
      (after.tableAddress .pd) true true := by
    rw [low, laid.pdpt, entries_set_self]
    exact leads_hierarchy .pd
  refine (walk_table shows .pdpt second).trans ?_
  by_cases stack : address / 2 ^ 21 % 512 = userPdIndex userStackBase
  · rw [if_neg (by omega), if_pos (by omega)]
    refine walk_table shows .pd ?_
    rw [stack, laid.pd, entries_set_self]
    exact leads_hierarchy .stackPt
  by_cases first : address / 2 ^ 21 % 512 = userImageFirstPdIndex
  · rw [if_pos (by omega)]
    refine walk_table shows .pd ?_
    rw [laid.pd, entries_set_of_ne _ stack, first, entries_set_self]
    exact leads_hierarchy .imagePt
  · rw [if_neg (by omega), if_neg (by omega)]
    refine walk_empty shows .pd ?_
    rw [laid.pd, entries_set_of_ne _ stack, entries_set_of_ne _ first]
    rfl

section
variable {segment : UserLoadSegment} (sound : UserProcess.Sound image segment)
include sound

theorem touches_iff : Touches segment address ↔ userImageBase ≤ address ∧
      ∃ relative, relative * pageSize < segment.memorySize ∧ Piece.page (segment, relative) = imageIndex address := by
  have start := firstPage_spec sound
  simp only [Touches, Piece.page, imageIndex, pageSize, userImageBase] at start ⊢
  constructor
  · rintro ⟨byte, above, below, same⟩
    refine ⟨by omega, (byte - segment.virtualAddress) / 4096, by omega, by omega⟩
  · rintro ⟨above, relative, inside, same⟩
    exact ⟨segment.virtualAddress + relative * 4096, by omega, by omega, by omega⟩

theorem touches_below
    (below : segment.virtualAddress + segment.memorySize ≤ childImageLimit) (touches : Touches segment address) :
    userImageBase ≤ address ∧ imageIndex address < childImagePages := by
  obtain ⟨above, relative, inside, same⟩ := (touches_iff sound).mp touches
  exact ⟨above, same ▸ page_within sound below inside⟩

end

theorem walk_image (laid : Laid plan image kernelPml4 after) (shows : Shows read after)
    (sound : ∀ segment ∈ plan.segments, UserProcess.Sound image segment)
    (below : ∀ segment ∈ plan.segments, segment.virtualAddress + segment.memorySize ≤ childImageLimit)
    (here : address / 2 ^ 21 = userImageBase / 2 ^ 21) (access : Paging.Access) :
    walk read address [12] ⟨after.tableAddress .imagePt, true, true⟩ = some access ↔
      ∃ segment ∈ plan.segments, Touches segment address ∧ access = imageAccess after segment address := by
  have index : address / 2 ^ 12 % 512 = imageIndex address := by
    simp only [imageIndex, pageSize, userImageBase] at here ⊢
    omega
  have above : userImageBase ≤ address := by
    unfold userImageBase at here ⊢
    omega
  simp only [← and_assoc (b := Touches _ _)]
  apply walk_leaf_iff <;> rw [shows .imagePt _ (index_within address 12), index]
  · rintro segment ⟨member, touches⟩
    obtain ⟨_, relative, inside, same⟩ := (touches_iff (sound segment member)).mp touches
    rw [imageAccess, ← same, laid.image.entries.at_key (segment, relative) (mem_pieces.mpr ⟨member, inside⟩)]
    exact leads_image (page_within (sound segment member) (below segment member) inside) segment
  · intro none
    apply laid.image.entries.elsewhere
    intro piece member same
    obtain ⟨known, inside⟩ := mem_pieces.mp member
    exact none piece.1 ⟨known, (touches_iff (sound _ known)).mpr ⟨above, piece.2, inside, same⟩⟩

theorem stackIndex_lt (inside : OnStack address) : stackIndex address < childStackPages := by
  have size : userStackLimit = childStackBase + childStackPages * pageSize := by decide
  obtain ⟨above, below⟩ := inside
  apply Nat.div_lt_of_lt_mul
  rw [Nat.mul_comm]
  omega

theorem stack_bounds : userStackBase = 0x400020000000 ∧ childStackBase = 0x400020000000 + 496 * 4096 ∧
    userStackLimit = 0x400020000000 + 512 * 4096 := by decide

theorem walk_stack (laid : Laid plan image kernelPml4 after) (shows : Shows read after)
    (here : address / 2 ^ 21 = userStackBase / 2 ^ 21) (access : Paging.Access) :
    walk read address [12] ⟨after.tableAddress .stackPt, true, true⟩ = some access ↔
      OnStack address ∧ access = stackAccess after address := by
  obtain ⟨base, first, limit⟩ := stack_bounds
  have free : pageTableEntries - childStackPages = 496 := by decide
  refine Iff.trans ?_ (exists_const Unit)
  apply walk_leaf_iff <;> rw [shows .stackPt _ (index_within address 12)]
  · intro _ inside
    have ⟨above, below⟩ := inside
    have within := stackIndex_lt inside
    have slot : stackIndex address = (address - (0x400020000000 + 496 * 4096)) / 4096 := by
      rfl
    have index : address / 2 ^ 12 % 512 = pageTableEntries - childStackPages + stackIndex address := by
      omega
    rw [index, laid.stack.at_key (stackIndex address) (List.mem_range.mpr within)]
    exact leads_stack within
  · intro outside
    apply laid.stack.elsewhere
    intro index member same
    have within := List.mem_range.mp member
    apply outside ()
    unfold OnStack
    omega

end Walks

/-- What a child may do with an address, as its tables are followed. -/
def Reaches (after : ChildStorage) (address : Nat) (access : Paging.Access) : Prop :=
  ∃ read, Shows read after ∧ Paging.userAccess read address (after.tableAddress .pml4) = some access

/-- The address space of a child. Addresses are taken by their low 48 bits. -/
structure Isolated (plan : UserLoadPlan) (image : List UInt8) (after : ChildStorage) : Prop where
  exactly : ∀ read, Shows read after → ∀ address < 2 ^ 48, ∀ access,
    Paging.userAccess read address (after.tableAddress .pml4) = some access ↔
      (∃ segment ∈ plan.segments, Touches segment address ∧ access = imageAccess after segment address) ∨
        (OnStack address ∧ access = stackAccess after address)
  exclusive : ∀ address < 2 ^ 48, ∀ access, Reaches after address access → ¬(access.writable ∧ access.executable)
  own : ∀ address < 2 ^ 48, ∀ access, Reaches after address access →
    ∃ position < childImagePages + childStackPages, access.page = after.address + (5 + position) * pageSize
  distinct : ∀ first < 2 ^ 48, ∀ second < 2 ^ 48, ∀ one two, Reaches after first one → Reaches after second two →
    one.page = two.page → first / pageSize = second / pageSize
  contents : ∀ segment ∈ plan.segments, ∀ address, Touches segment address →
    after.imagePages (imageIndex address) (address % pageSize) =
      if address < segment.virtualAddress + segment.fileSize then
        image.getD (segment.fileOffset + (address - segment.virtualAddress)) 0
      else 0
  stackZero : ∀ index offset, after.stackPages index offset = 0
  supervisor : ∀ index < pageTableEntries, index ≠ userPml4Index →
    (after.tables .pml4).entries index &&& PageTableEntry.user = 0

theorem not_writable_executable {segment : UserLoadSegment} {image : List UInt8}
    (sound : UserProcess.Sound image segment) :
    ¬(segment.flags &&& pfW ≠ 0#32 ∧ segment.flags &&& pfX ≠ 0#32) := by
  rintro ⟨writable, executable⟩
  have single (bit : Nat) (some : segment.flags &&& twoPow 32 bit ≠ 0#32) :
      segment.flags &&& twoPow 32 bit = twoPow 32 bit := by
    rw [and_twoPow] at some ⊢
    exact if_pos (by_contra fun unset => some (if_neg unset))
  apply sound.exclusive
  have both := single 1 writable
  have first := single 0 executable
  rw [and_or_distrib_left]
  exact congrArg₂ (· ||| ·) both first

section Isolation
variable {plan : UserLoadPlan} {image : List UInt8} {kernelPml4 : PageTable} {after : ChildStorage}

section
variable {address : Nat} (laid : Laid plan image kernelPml4 after)
include laid
variable (sound : ∀ segment ∈ plan.segments, UserProcess.Sound image segment)
include sound

theorem Laid.contents {segment : UserLoadSegment}
    (member : segment ∈ plan.segments) (touches : Touches segment address) :
    after.imagePages (imageIndex address) (address % pageSize) =
      if address < segment.virtualAddress + segment.fileSize then
        image.getD (segment.fileOffset + (address - segment.virtualAddress)) 0
      else 0 := by
  obtain ⟨above, relative, inside, same⟩ := (touches_iff (sound segment member)).mp touches
  have loaded := laid.image.contents.at_key (segment, relative) (mem_pieces.mpr ⟨member, inside⟩)
  have start := firstPage_spec (sound segment member)
  have offset : address = segment.virtualAddress + relative * pageSize + address % pageSize := by
    simp only [Piece.page, imageIndex, pageSize, userImageBase] at above same start ⊢
    omega
  have small : address % pageSize < pageSize := Nat.mod_lt _ (by decide)
  have inFile : address % pageSize < fileBytes segment relative ↔
      address < segment.virtualAddress + segment.fileSize := by
    unfold fileBytes
    omega
  have place : segment.fileOffset + relative * pageSize + address % pageSize =
      segment.fileOffset + (address - segment.virtualAddress) := by omega
  rw [← same, loaded]
  simp only [Piece.content, inFile, place]

variable (below : ∀ segment ∈ plan.segments, segment.virtualAddress + segment.memorySize ≤ childImageLimit)
include below

theorem Laid.exactly {read : Nat → Nat → BitVec 64} (shows : Shows read after) (canonical : address < 2 ^ 48)
    (access : Paging.Access) :
    userAccess read address (after.tableAddress .pml4) = some access ↔
      (∃ segment ∈ plan.segments, Touches segment address ∧ access = imageAccess after segment address) ∨
        (OnStack address ∧ access = stackAccess after address) := by
  have imageOnly : ∀ segment ∈ plan.segments, Touches segment address → address / 2 ^ 21 = userImageBase / 2 ^ 21 := by
    intro segment member touches
    obtain ⟨above, index⟩ := touches_below (sound segment member) (below segment member) touches
    simp only [imageIndex, childImagePages, pageSize, userImageBase] at above index ⊢
    omega
  have stackOnly : OnStack address → address / 2 ^ 21 = userStackBase / 2 ^ 21 := by
    obtain ⟨base, first, limit⟩ := stack_bounds
    rw [OnStack, base, first, limit]
    omega
  have apart : userImageBase / 2 ^ 21 ≠ userStackBase / 2 ^ 21 := by decide
  rw [userAccess_eq laid shows canonical]
  split
  · next atImage =>
    rw [walk_image laid shows sound below atImage]
    exact ⟨.inl, fun either => either.resolve_right fun both => apart (atImage.symm.trans (stackOnly both.1))⟩
  next notImage =>
  have noImage : ¬∃ segment ∈ plan.segments, Touches segment address ∧ access = imageAccess after segment address := by
    rintro ⟨segment, member, touches, _⟩
    exact notImage (imageOnly segment member touches)
  rw [or_iff_right noImage]
  split
  · next atStack => exact walk_stack laid shows atStack access
  · next notStack => exact ⟨by simp, fun both => absurd (stackOnly both.1) notStack⟩

def virtualPage (position : Nat) : Nat :=
  if position < childImagePages then userImageBase / pageSize + position
  else childStackBase / pageSize + (position - childImagePages)

theorem Laid.position (canonical : address < 2 ^ 48) {access : Paging.Access} (reaches : Reaches after address access) :
    ∃ position < childImagePages + childStackPages, access.page = after.address + (5 + position) * pageSize ∧
      address / pageSize = virtualPage position := by
  obtain ⟨read, shows, reached⟩ := reaches
  obtain ⟨segment, member, touches, rfl⟩ | ⟨onStack, rfl⟩ :=
    (laid.exactly sound below shows canonical access).mp reached
  · obtain ⟨above, index⟩ := touches_below (sound segment member) (below segment member) touches
    refine ⟨imageIndex address, Nat.lt_of_lt_of_le index (Nat.le_add_right _ _), rfl, ?_⟩
    rw [virtualPage, if_pos index]
    simp only [imageIndex, pageSize, userImageBase] at above ⊢
    omega
  · refine ⟨childImagePages + stackIndex address, Nat.add_lt_add_left (stackIndex_lt onStack) _, ?_, ?_⟩
    · rw [← Nat.add_assoc]
      rfl
    · have first := stack_bounds.2.1
      have above := onStack.1
      rw [virtualPage, if_neg (Nat.not_lt.mpr (Nat.le_add_right _ _)), Nat.add_sub_cancel_left, stackIndex]
      unfold pageSize
      omega

theorem Laid.isolated : Isolated plan image after where
  exactly _ shows _ canonical := laid.exactly sound below shows canonical
  exclusive := by
    rintro address canonical access ⟨read, shows, reached⟩
    obtain ⟨segment, member, _, rfl⟩ | ⟨_, rfl⟩ := (laid.exactly sound below shows canonical access).mp reached
    · simpa [imageAccess] using not_writable_executable (sound segment member)
    · simp [stackAccess]
  own := by
    intro address canonical access reaches
    obtain ⟨position, within, page, _⟩ := laid.position sound below canonical reaches
    exact ⟨position, within, page⟩
  distinct := by
    intro first firstCanonical second secondCanonical one two firstReaches secondReaches same
    obtain ⟨i, _, firstPage, firstVirtual⟩ := laid.position sound below firstCanonical firstReaches
    obtain ⟨j, _, secondPage, secondVirtual⟩ := laid.position sound below secondCanonical secondReaches
    have samePosition : i = j := by
      rw [firstPage, secondPage] at same
      have whole := Nat.mul_right_cancel (by decide) (Nat.add_left_cancel same)
      exact Nat.add_left_cancel whole
    rw [firstVirtual, secondVirtual, samePosition]
  contents _ member _ touches := laid.contents sound member touches
  stackZero _ _ := by rw [laid.stackPages]
  supervisor index within other := by
    rw [laid.kernel index within other, BitVec.and_assoc, BitVec.and_comm _ user, BitVec.and_not_self]
    exact BitVec.and_zero

end

end Isolation

/-- An accepted image gets an address space of its own, unless an entry of the kernel's table outside the user slot is
the user bit alone: without the bit nothing is left to copy, and the kernel refuses. -/
theorem child_isolated {bytes : List UInt8} {plan : UserLoadPlan} (_parsed : parse bytes = .ok plan)
    (accepted : validateChildPlan plan bytes = .ok ()) (kernelPml4 : PageTable) (storage : ChildStorage) :
    ((∀ index < pageTableEntries, index ≠ userPml4Index → kernelPml4.entries index ≠ PageTableEntry.user) →
      ∃ context after, buildChildAddressSpace plan bytes kernelPml4 storage = .ok context after ∧
        after.address = storage.address ∧ context.cr3 = after.tableAddress .pml4 ∧ Isolated plan bytes after) ∧
    ((∃ index < pageTableEntries, index ≠ userPml4Index ∧ kernelPml4.entries index = PageTableEntry.user) →
      ∃ after, buildChildAddressSpace plan bytes kernelPml4 storage = .error (.error .invalidLoadPlan) after) := by
  obtain ⟨sound, _, below⟩ := validateChildPlan_sound accepted
  obtain ⟨good, after, built, address, laid⟩ | ⟨⟨index, member, bad⟩, after, failed⟩ :=
    buildChildAddressSpace_outcome accepted kernelPml4 storage
  · refine ⟨fun _ => ⟨_, after, built, address, rfl, laid.isolated sound below⟩, ?_⟩
    rintro ⟨index, within, other, same⟩
    exact absurd same (good index (List.mem_range.mpr within) other)
  · refine ⟨fun every => absurd (every index (List.mem_range.mp member)) bad, fun _ => ⟨after, failed⟩⟩

/-- An image of two headers whose only segment is the file itself. -/
def tinyElf : List UInt8 :=
  [0x7f, 0x45, 0x4c, 0x46, 2, 1, 1, 0, 0, 0, 0, 0, 0, 0, 0, 0] ++
    leBytes 2 2 ++ leBytes 2 62 ++ leBytes 4 1 ++ leBytes 8 (userImageBase + 120) ++ leBytes 8 64 ++ leBytes 8 0 ++
    leBytes 4 0 ++ leBytes 2 64 ++ leBytes 2 56 ++ leBytes 2 1 ++ leBytes 6 0 ++
    leBytes 4 1 ++ leBytes 4 5 ++ leBytes 8 0 ++ leBytes 8 userImageBase ++ leBytes 8 userImageBase ++ leBytes 8 122 ++
    leBytes 8 8192 ++ leBytes 8 4096 ++ [0xeb, 0xfe]

def tinyPlan : UserLoadPlan := ⟨userImageBase + 120, [⟨0, userImageBase, 122, 8192, 5#32⟩], none⟩

def usedStorage : ChildStorage :=
  ⟨0x100000, fun _ => ⟨fun _ => 0xffff⟩, fun _ _ => 0xaa, fun _ _ => 0xaa, by decide, by decide⟩

def sharedPml4 : PageTable := PageTable.empty.set 0 0x2007#64

theorem tiny_child_isolated :
    parse tinyElf = .ok tinyPlan ∧ ∃ context after,
      buildChildAddressSpace tinyPlan tinyElf sharedPml4 usedStorage = .ok context after ∧ after.address = 0x100000 ∧
        context.cr3 = after.tableAddress .pml4 ∧ Isolated tinyPlan tinyElf after := by
  have parsed : parse tinyElf = .ok tinyPlan := by decide +kernel
  refine ⟨parsed, (child_isolated parsed (by decide +kernel) sharedPml4 usedStorage).1 ?_⟩
  intro index _ _
  have blank : (0 : BitVec 64) ≠ user := by decide
  by_cases first : index = 0
  · rw [first]
    decide
  · rw [sharedPml4, entries_set_of_ne _ first]
    exact blank

def bareUserPml4 : PageTable := PageTable.empty.set 1 PageTableEntry.user

theorem bare_user_entry_refused :
    parse tinyElf = .ok tinyPlan ∧ validateChildPlan tinyPlan tinyElf = .ok () ∧
      ∃ after,
        buildChildAddressSpace tinyPlan tinyElf bareUserPml4 usedStorage =
          .error (.error .invalidLoadPlan) after := by
  have accepted : validateChildPlan tinyPlan tinyElf = .ok () := by decide +kernel
  refine ⟨by decide +kernel, accepted, ?_⟩
  obtain ⟨good, _⟩ | ⟨_, refused⟩ := buildChildAddressSpace_outcome accepted bareUserPml4 usedStorage
  · exact absurd rfl (good 1 (List.mem_range.mpr (by decide)) (by decide))
  · exact refused

end UserChild
end Nagi.Kernel
