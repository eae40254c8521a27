import Nagi.Kernel.UserProcess.AddressSpace

/-! Pages that the init process sees at two places of its image.

A whole page of the file is mapped once for each segment that has it. The check of
the plan keeps it from being seen under two sets of rights, but not two writable
segments from sharing it. -/

namespace Nagi.Kernel

open Lib UserElf UserProcess List

namespace Bootstrap

open UserMmap (Window)
open UserChild (hierarchy segmentFlags pageCount fileBytes leaf Piece pieces firstPage mem_pieces pieces_distinct
  forM_pieces firstPage_spec lt_pageCount_iff leads_segment leads_leaf)

section
variable {window : Window}

variable {flags : BitVec 64} {boot after : Boot window}

def imageKey (page : Nat) : Key := (.imagePt (page / pageTableEntries), page % pageTableEntries)

theorem imageKey_injective {first second : Nat} (same : imageKey first = imageKey second) : first = second := by
  have tables : first / pageTableEntries = second / pageTableEntries :=
    BootstrapTable.imagePt.inj (congrArg Prod.fst same)
  have indices : first % pageTableEntries = second % pageTableEntries := congrArg Prod.snd same
  rw [← Nat.div_add_mod first pageTableEntries, tables, indices, Nat.div_add_mod]

variable {page : Nat}

theorem mapImageLeaf_placed {physical : Nat} (ran : mapImageLeaf page physical flags boot = .ok () after) :
    physical % pageSize = 0 ∧ physical < 2 ^ 52 ∧ after = boot.place (imageKey page) (leaf physical flags) := by
  obtain ⟨table, _, known, placed⟩ := bind_eq_ok_iff.mp ran
  unfold imagePageTable at known
  split at known <;> cases known
  obtain ⟨⟨aligned, bounded⟩, _, same⟩ := mapLeaf_placed placed
  exact ⟨aligned, bounded, same⟩

def Takes (page : Nat) (boot after : Boot window) : Prop :=
  boot.allocator.allocatePageBelow maxIdentityMappedAddress = (some page, after.allocator) ∧
    after.storage = boot.storage

variable {environment : Environment}

theorem allocateZeroedPage_takes (ran : allocateZeroedPage environment boot = .ok page after) :
    Takes page boot after := by
  have got : (get : Build window (Boot window)) boot = .ok boot boot := rfl
  unfold allocateZeroedPage at ran
  rw [bind_ok got] at ran
  rcases taken : boot.allocator.allocatePageBelow maxIdentityMappedAddress with ⟨answer, allocator⟩
  rw [taken] at ran
  cases answer with
  | none => cases ran
  | some other =>
    dsimp only at ran
    split at ran
    · cases ran
      exact ⟨taken, rfl⟩
    · cases ran

variable {image : List UInt8} {segment : UserLoadSegment} {relativePage : Nat}

theorem copiedPage_takes (ran : copiedPage environment image segment relativePage boot = .ok page after) :
    Takes page boot after := by
  obtain ⟨other, taken, allocated, rest⟩ := bind_eq_ok_iff.mp ran
  have takes := allocateZeroedPage_takes allocated
  split at rest
  · cases rest
    exact takes
  · obtain ⟨bytes, _, answered, rest⟩ := bind_eq_ok_iff.mp rest
    obtain ⟨_, rfl⟩ := demand_eq_ok_iff.mp answered
    cases rest
    exact takes

abbrev Backed := Piece × Nat

/-- What the page behind a piece is: a page of the file, or one from the allocator. -/
def IsDirect (imagePhysicalBase : Nat) (backed : Backed) : Prop :=
  backed.2 = imagePhysicalBase + backed.1.1.fileOffset + backed.1.2 * pageSize

variable {base : Nat} {piece : Piece}

theorem mapSegmentPage_placed
    (ran : mapSegmentPage environment image base piece.1 (firstPage piece.1) piece.2 boot = .ok () after) :
    ∃ physical between, physical % pageSize = 0 ∧ physical < 2 ^ 52 ∧
      after = between.place (imageKey piece.page) (leaf physical (segmentFlags piece.1)) ∧
      (isWhole piece.1 piece.2 = true ∧ IsDirect base (piece, physical) ∧ between = boot ∨
        isWhole piece.1 piece.2 = false ∧ Takes physical boot between) := by
  obtain ⟨physical, between, found, placed⟩ := bind_eq_ok_iff.mp ran
  obtain ⟨aligned, bounded, same⟩ := mapImageLeaf_placed placed
  refine ⟨physical, between, aligned, bounded, same, ?_⟩
  unfold physicalPage at found
  cases whole : isWhole piece.1 piece.2 with
  | true =>
    rw [if_pos whole] at found
    obtain ⟨direct, rfl⟩ := demand_eq_ok_iff.mp found
    obtain ⟨address, one, two⟩ := Option.bind_eq_some_iff.mp (Words.okOr_ok_iff.mp direct)
    obtain ⟨_, rfl⟩ := Words.checkedAdd_eq_some_iff.mp one
    obtain ⟨_, two⟩ := Words.checkedAdd_eq_some_iff.mp two
    exact .inl ⟨rfl, two.symm, rfl⟩
  | false =>
    rw [if_neg (by simp [whole])] at found
    exact .inr ⟨rfl, copiedPage_takes found⟩

def takenPages (done : List Backed) : List Nat :=
  ((done.filter fun backed => !isWhole backed.1.1 backed.1.2).map Prod.snd).reverse

structure Loaded (base : Nat) (outstanding : List Nat) (boot : Boot window) (done : List Backed) (now : Boot window) :
    Prop where
  address : now.storage.address = boot.storage.address
  filled : Table.Filled (fun backed : Backed => imageKey backed.1.page)
    (fun backed => leaf backed.2 (segmentFlags backed.1.1)) boot.cell done now.cell
  direct : ∀ backed ∈ done, isWhole backed.1.1 backed.1.2 = true → IsDirect base backed
  aligned : ∀ backed ∈ done, backed.2 % pageSize = 0
  bounded : ∀ backed ∈ done, backed.2 < 2 ^ 52
  accounts : now.allocator.Accounts (takenPages done ++ outstanding)
  spans : now.allocator.ranges.map PageRange.span = boot.allocator.ranges.map PageRange.span

variable {done : List Backed} {outstanding : List Nat}

theorem Loaded.step {now : Boot window} (loaded : Loaded base outstanding boot done now)
    (fresh : ∀ backed ∈ done, backed.1.page ≠ piece.page)
    (ran : mapSegmentPage environment image base piece.1 (firstPage piece.1) piece.2 now = .ok () after) :
    ∃ physical, Loaded base outstanding boot (done ++ [(piece, physical)]) after := by
  obtain ⟨physical, between, aligned, bounded, rfl, origin⟩ := mapSegmentPage_placed ran
  have unused : ∀ backed ∈ done, imageKey backed.1.page ≠ imageKey piece.page :=
    fun backed member same => fresh backed member (imageKey_injective same)
  have alone {P : Backed → Prop} (before : ∀ backed ∈ done, P backed) (last : P (piece, physical)) :
      ∀ backed ∈ done ++ [(piece, physical)], P backed := by
    intro backed member
    rcases mem_append.mp member with earlier | here
    · exact before backed earlier
    · exact mem_singleton.mp here ▸ last
  -- Where the page comes from decides what becomes of the allocator; nothing else is touched.
  have found : between.cell = now.cell ∧ between.storage.address = now.storage.address ∧
      (isWhole piece.1 piece.2 = true → IsDirect base (piece, physical)) ∧
      between.allocator.Accounts (takenPages (done ++ [(piece, physical)]) ++ outstanding) ∧
      between.allocator.ranges.map PageRange.span = now.allocator.ranges.map PageRange.span := by
    rcases origin with ⟨whole, direct, rfl⟩ | ⟨part, takes, same⟩
    · exact ⟨rfl, rfl, fun _ => direct, by simpa [takenPages, whole] using loaded.accounts, rfl⟩
    · have next := loaded.accounts.allocatePageBelow maxIdentityMappedAddress
      rw [takes] at next
      exact ⟨funext fun key => by rw [Boot.cell, same, Boot.cell], by rw [same], by simp [part],
        by simpa [takenPages, part] using next.accounts, next.spans⟩
  obtain ⟨cells, address, direct, accounts, spans⟩ := found
  refine ⟨physical, address.trans loaded.address, ?_, alone loaded.direct direct, alone loaded.aligned aligned,
    alone loaded.bounded bounded, accounts, spans.trans loaded.spans⟩
  rw [Boot.cell_place, cells]
  exact loaded.filled.snoc unused

variable {segments : List UserLoadSegment}

theorem mapSegments_eq (environment : Environment) (base : Nat)
    (sound : ∀ segment ∈ segments, UserProcess.Sound image segment) :
    segments.forM (@mapSegmentFromImage window environment image base) =
      (pieces segments).forM fun piece =>
        mapSegmentPage environment image base piece.1 (firstPage piece.1) piece.2 :=
  forM_pieces fun segment member => Words.sub_bind (sound segment member).above _

theorem mapSegments_loaded (sound : ∀ segment ∈ segments, UserProcess.Sound image segment)
    (apart : segments.Pairwise UserProcess.Apart) (accounts : boot.allocator.Accounts outstanding)
    (ran : segments.forM (mapSegmentFromImage environment image base) boot = .ok () after) :
    ∃ done : List Backed, done.map Prod.fst = pieces segments ∧ Loaded base outstanding boot done after := by
  rw [mapSegments_eq environment base sound] at ran
  refine forM_invariant ran (P := fun earlier state =>
    ∃ done : List Backed, done.map Prod.fst = earlier ∧ Loaded base outstanding boot done state) ?_ ?_
  · rintro _ piece later state next split ⟨done, rfl, loaded⟩ mapped
    have fresh : ∀ backed ∈ done, backed.1.page ≠ piece.page := by
      have distinct := pieces_distinct sound apart
      rw [split] at distinct
      intro backed member
      exact (pairwise_append.mp distinct).2.2 backed.1 (mem_map_of_mem member) piece mem_cons_self
    obtain ⟨physical, loaded⟩ := loaded.step fresh mapped
    exact ⟨_, by rw [map_append]; rfl, loaded⟩
  · exact ⟨[], rfl, rfl, .nil, by simp, by simp, by simp, accounts, rfl⟩

def Shows (read : Nat → Nat → BitVec 64) (boot : Boot window) : Prop :=
  ∀ table : BootstrapTable, table.Stands window → ∀ index < pageTableEntries,
    read (boot.storage.tableAddress table) index = boot.cell (table, index)

theorem position_injective {first second : BootstrapTable} (one : first.Stands window) (two : second.Stands window)
    (same : first.position window = second.position window) : first = second := by
  cases first <;> cases second <;>
    simp only [BootstrapTable.Stands, BootstrapTable.position, BootstrapTable.mmapExtraPd.injEq,
      BootstrapTable.imagePt.injEq, BootstrapTable.mmapPt.injEq, reduceCtorEq] at one two same ⊢ <;>
    omega

theorem exists_shows (boot : Boot window) : ∃ read, Shows read boot := by
  classical
  refine ⟨fun address index => if known : ∃ table : BootstrapTable, table.Stands window ∧
    boot.storage.tableAddress table = address then boot.cell (known.choose, index) else 0, ?_⟩
  intro table stands index _
  have known : ∃ other : BootstrapTable, other.Stands window ∧
      boot.storage.tableAddress other = boot.storage.tableAddress table := ⟨table, stands, rfl⟩
  have same : known.choose = table := by
    obtain ⟨others, address⟩ := known.choose_spec
    apply position_injective others stands
    exact Nat.eq_of_mul_eq_mul_right (by decide) (Nat.add_left_cancel address)
  dsimp only
  rw [dif_pos known, same]

def Reaches (boot : Boot window) (address : Nat) (access : Paging.Access) : Prop :=
  ∃ read, Shows read boot ∧ Paging.userAccess read address (boot.storage.tableAddress .pml4) = some access

def InImage (address : Nat) : Prop := userImageBase ≤ address ∧ address < userImageLimit

def imagePage (address : Nat) : Nat := (address - userImageBase) / pageSize

structure Laid (boot : Boot window) (done : List Backed) : Prop where
  root : boot.cell (.pml4, userPml4Index) = leaf (boot.storage.tableAddress .pdpt) hierarchy
  pdpt : boot.cell (.pdpt, userPdptIndex) = leaf (boot.storage.tableAddress .pd) hierarchy
  pd : ∀ tableIndex < userImagePageTableCount, boot.cell (.pd, userImageFirstPdIndex + tableIndex) =
    leaf (boot.storage.tableAddress (.imagePt tableIndex)) hierarchy
  mapped : ∀ backed ∈ done, boot.cell (imageKey backed.1.page) = leaf backed.2 (segmentFlags backed.1.1)
  unmapped : ∀ page, (∀ backed ∈ done, backed.1.page ≠ page) → boot.cell (imageKey page) = 0
  aligned : ∀ backed ∈ done, backed.2 % pageSize = 0
  bounded : ∀ backed ∈ done, backed.2 < 2 ^ 52

theorem Loaded.laid {prepared : Boot window} (before : Prepared boot prepared)
    (loaded : Loaded base outstanding prepared done after) : Laid after done := by
  have place (table : BootstrapTable) : after.storage.tableAddress table = prepared.storage.tableAddress table := by
    rw [BootstrapStorage.tableAddress, loaded.address, BootstrapStorage.tableAddress]
  have kept {key : Key} (other : ∀ tableIndex, key.1 ≠ .imagePt tableIndex) : after.cell key = prepared.cell key :=
    loaded.filled.elsewhere key fun backed _ same => other _ (congrArg Prod.fst same).symm
  constructor
  · rw [kept (by simp), before.root, place]
  · rw [kept (by simp), before.pdpt, place]
  · intro tableIndex inside
    rw [kept (by simp), before.pd tableIndex inside, place]
  · exact loaded.filled.at_key
  · intro page away
    rw [loaded.filled.elsewhere]
    · exact before.image _ _
    · exact fun backed member same => away backed member (imageKey_injective same)
  · exact loaded.aligned
  · exact loaded.bounded

section Walks
variable {read : Nat → Nat → BitVec 64} {address shift : Nat} {rest : List Nat}
variable {writable executable : Bool}

theorem walk_table (shows : Shows read boot) (table : BootstrapTable) (stands : table.Stands window) {target : Nat}
    {writes fetches : Bool}
    (leads : Paging.Leads (boot.cell (table, address / 2 ^ shift % 512)) target writes fetches) :
    Paging.walk read address (shift :: rest) ⟨boot.storage.tableAddress table, writable, executable⟩ =
      Paging.walk read address rest ⟨target, writable && writes, executable && fetches⟩ := by
  apply Paging.walk_leads
  rwa [shows table stands _ (UserChild.index_within address shift)]

theorem leads_table (boot : Boot window) {table : BootstrapTable} (stands : table.Stands window) :
    Paging.Leads (leaf (boot.storage.tableAddress table) hierarchy) (boot.storage.tableAddress table) true true :=
  leads_leaf (place_aligned boot.storage.aligned _) (place_bounded boot.storage.placed stands.position_lt) (by decide)
    (by decide) (by decide) (by decide)

theorem imageTable_lt (inside : InImage address) : imagePage address / pageTableEntries < userImagePageTableCount := by
  have limit : userImageLimit = userImageBase + 2 ^ 29 := by decide
  have count : userImagePageTableCount = 256 := by decide
  obtain ⟨above, below⟩ := inside
  simp only [imagePage, pageTableEntries, pageSize]
  omega

theorem userAccess_image (laid : Laid boot done) (shows : Shows read boot) (inside : InImage address) :
    Paging.userAccess read address (boot.storage.tableAddress .pml4) =
      Paging.walk read address [12]
        ⟨boot.storage.tableAddress (.imagePt (imagePage address / pageTableEntries)), true, true⟩ := by
  have few := imageTable_lt inside
  obtain ⟨above, below⟩ := inside
  have base : userImageBase = 2 ^ 46 := by decide
  have limit : userImageLimit = 2 ^ 46 + 2 ^ 29 := by decide
  have number : imagePage address / pageTableEntries = (address - 2 ^ 46) / 2 ^ 21 := by
    rw [imagePage, base, Nat.div_div_eq_div_mul]
    rfl
  have pml4Index : address / 2 ^ 39 % 512 = userPml4Index := by
    have own : userPml4Index = 128 := rfl
    omega
  have pdptIndex : address / 2 ^ 30 % 512 = userPdptIndex := by
    have first : userPdptIndex = 0 := by decide
    omega
  have pdIndex : address / 2 ^ 21 % 512 = userImageFirstPdIndex + imagePage address / pageTableEntries := by
    have first : userImageFirstPdIndex = 0 := by decide
    omega
  have root : Paging.Leads (boot.cell (.pml4, address / 2 ^ 39 % 512)) (boot.storage.tableAddress .pdpt) true true := by
    rw [pml4Index, laid.root]
    exact leads_table boot trivial
  have second : Paging.Leads (boot.cell (.pdpt, address / 2 ^ 30 % 512)) (boot.storage.tableAddress .pd) true true := by
    rw [pdptIndex, laid.pdpt]
    exact leads_table boot trivial
  have third : Paging.Leads (boot.cell (.pd, address / 2 ^ 21 % 512))
      (boot.storage.tableAddress (.imagePt (imagePage address / pageTableEntries))) true true := by
    rw [pdIndex, laid.pd _ few]
    exact leads_table boot few
  refine (walk_table shows .pml4 trivial root).trans ?_
  refine (walk_table shows .pdpt trivial second).trans ?_
  exact walk_table shows .pd trivial third

def backedAccess (backed : Backed) : Paging.Access :=
  ⟨backed.2, decide (backed.1.1.flags &&& pfW ≠ 0#32), decide (backed.1.1.flags &&& pfX ≠ 0#32)⟩

theorem reaches_iff (laid : Laid boot done) (inside : InImage address) {access : Paging.Access} :
    Reaches boot address access ↔
      ∃ backed ∈ done, backed.1.page = imagePage address ∧ access = backedAccess backed := by
  have stands : (BootstrapTable.imagePt (imagePage address / pageTableEntries)).Stands window := imageTable_lt inside
  have key : (.imagePt (imagePage address / pageTableEntries), address / 2 ^ 12 % 512) =
      imageKey (imagePage address) := by
    have index : address / 2 ^ 12 % 512 = imagePage address % pageTableEntries := by
      have above := inside.1
      simp only [imagePage, userImageBase, pageSize, pageTableEntries] at *
      omega
    rw [index]
    rfl
  simp only [← and_assoc]
  have found {read : Nat → Nat → BitVec 64} (shows : Shows read boot) :
      Paging.userAccess read address (boot.storage.tableAddress .pml4) = some access ↔
        ∃ backed, (backed ∈ done ∧ backed.1.page = imagePage address) ∧ access = backedAccess backed := by
    rw [userAccess_image laid shows inside]
    apply Paging.walk_leaf_iff <;> rw [shows _ stands _ (UserChild.index_within address 12), key]
    · rintro backed ⟨member, same⟩
      rw [← same, laid.mapped backed member]
      exact leads_segment (laid.aligned backed member) (laid.bounded backed member) backed.1.1
    · intro none
      exact laid.unmapped _ fun backed member same => none backed ⟨member, same⟩
  constructor
  · rintro ⟨read, shows, reached⟩
    exact (found shows).mp reached
  · intro behind
    obtain ⟨read, shows⟩ := exists_shows boot
    exact ⟨read, shows, (found shows).mpr behind⟩

end Walks

/-- No page that can be written is seen at two places of the image, so that a store at one place is
not seen at another. -/
structure StoresApart (boot : Boot window) : Prop where
  pages : ∀ first second one two, InImage first → InImage second → Reaches boot first one → Reaches boot second two →
    one.writable ∨ two.writable → one.page = two.page → first / pageSize = second / pageSize
  stores : ∀ first second one two, InImage first → InImage second → Reaches boot first one → Reaches boot second two →
    one.writable → first / pageSize ≠ second / pageSize → ∀ (memory : Nat → UInt8) (byte : UInt8),
      Function.update memory (one.page + first % pageSize) byte (two.page + second % pageSize) =
        memory (two.page + second % pageSize)

def Writable (segment : UserLoadSegment) : Prop := segment.flags &&& pfW ≠ 0#32

instance : DecidablePred Writable := fun _ => inferInstanceAs (Decidable (_ ≠ _))

/-- A whole page of the file belongs to both segments. -/
def SharesWholePage (first second : UserLoadSegment) : Prop :=
  max first.fileOffset second.fileOffset <
    min (first.fileOffset + first.fileSize / pageSize * pageSize)
      (second.fileOffset + second.fileSize / pageSize * pageSize)

/-- No whole page of the file belongs to two writable segments. -/
def WritesOwnPages (plan : UserLoadPlan) : Prop :=
  plan.segments.Pairwise fun first second => ¬(Writable first ∧ Writable second ∧ SharesWholePage first second)

def Outside (allocator : PageAllocator) (base length : Nat) : Prop :=
  ∀ range ∈ allocator.ranges, base + length ≤ range.start ∨ range.limit ≤ base

theorem whole_iff (filed : segment.fileSize ≤ segment.memorySize) :
    isWhole segment relativePage = true ↔ relativePage * pageSize + pageSize ≤ segment.fileSize := by
  unfold isWhole fileBytes pageSize
  rw [decide_eq_true_iff]
  omega

variable {first second : UserLoadSegment}

theorem alike_writable (alike : UserProcess.Alike first second) (shared : SharesWholePage first second) :
    Writable first ↔ Writable second := by
  have overlap : UserProcess.SharesPages first second := by
    unfold SharesWholePage at shared
    unfold UserProcess.SharesPages
    omega
  have bit : ((second.flags ^^^ first.flags) &&& (pfW ||| pfX)).getLsbD 1 = false := by
    rw [alike overlap]
    rfl
  have marks : (pfW ||| pfX).getLsbD 1 = true := by decide
  have tested (segment : UserLoadSegment) : Writable segment ↔ segment.flags.getLsbD 1 = true := by
    rw [Writable, show pfW = BitVec.twoPow 32 1 by decide, BitVec.and_twoPow, ite_ne_right_iff]
    exact and_iff_left (by decide)
  rw [BitVec.getLsbD_and, BitVec.getLsbD_xor, marks, Bool.and_true] at bit
  cases one : first.flags.getLsbD 1 <;> cases two : second.flags.getLsbD 1 <;> simp_all

section Sharing
variable {plan : UserLoadPlan}
variable {one two : Backed}

section
variable (loaded : Loaded base outstanding boot done after)
include loaded

theorem Loaded.taken_once (oneIn : one ∈ done) (twoIn : two ∈ done)
    (oneCopied : isWhole one.1.1 one.1.2 = false) (twoCopied : isWhole two.1.1 two.1.2 = false) (same : one.2 = two.2) :
    one = two := by
  have once := loaded.accounts.once
  rw [append_assoc] at once
  have taken : ((done.filter fun backed => !isWhole backed.1.1 backed.1.2).map Prod.snd).Nodup :=
    nodup_reverse.mp (nodup_append.mp once).1
  apply inj_on_of_nodup_map taken _ _ same
  · exact mem_filter.mpr ⟨oneIn, by simp [oneCopied]⟩
  · exact mem_filter.mpr ⟨twoIn, by simp [twoCopied]⟩

theorem Loaded.taken_outside
    (outside : Outside boot.allocator base image.length) (oneIn : one ∈ done) (twoIn : two ∈ done)
    (oneCopied : isWhole one.1.1 one.1.2 = false) (twoWhole : isWhole two.1.1 two.1.2 = true)
    (sound : UserProcess.Sound image two.1.1) : one.2 ≠ two.2 := by
  have passed : after.allocator.Passed one.2 := by
    apply (loaded.accounts.passed one.2).mp
    apply mem_append_left
    apply mem_append_left
    apply mem_reverse.mpr
    exact mem_map_of_mem (mem_filter.mpr ⟨oneIn, by simp [oneCopied]⟩)
  obtain ⟨range, member, inRange⟩ := passed
  obtain ⟨low, high⟩ := inRange.within
  have span : range.span ∈ boot.allocator.ranges.map PageRange.span := loaded.spans ▸ mem_map_of_mem member
  obtain ⟨first, known, sameSpan⟩ := mem_map.mp span
  have start : first.start = range.start := congrArg Prod.fst sameSpan
  have limit : first.limit = range.limit := congrArg Prod.snd sameSpan
  have away := outside first known
  have direct := loaded.direct two twoIn twoWhole
  unfold IsDirect at direct
  have inFile := sound.inFile
  have filled := (whole_iff sound.filed).mp twoWhole
  have positive : 0 < pageSize := by decide
  omega

/-- Two pieces behind which one page lies are the same, or their segments share pages of the file. -/
theorem Loaded.shared (outside : Outside boot.allocator base image.length)
    (sound : ∀ segment ∈ plan.segments, UserProcess.Sound image segment) (oneIn : one ∈ done) (twoIn : two ∈ done)
    (oneKnown : one.1.1 ∈ plan.segments) (twoKnown : two.1.1 ∈ plan.segments) (same : one.2 = two.2) :
    one.1.page = two.1.page ∨ one.1.1 ≠ two.1.1 ∧ SharesWholePage one.1.1 two.1.1 := by
  cases oneWhole : isWhole one.1.1 one.1.2 with
  | false =>
    cases twoWhole : isWhole two.1.1 two.1.2 with
    | false =>
      left
      rw [loaded.taken_once oneIn twoIn oneWhole twoWhole same]
    | true => exact absurd same (loaded.taken_outside outside oneIn twoIn oneWhole twoWhole (sound _ twoKnown))
  | true =>
    cases twoWhole : isWhole two.1.1 two.1.2 with
    | false => exact absurd same.symm (loaded.taken_outside outside twoIn oneIn twoWhole oneWhole (sound _ oneKnown))
    | true =>
      have oneDirect := loaded.direct one oneIn oneWhole
      have twoDirect := loaded.direct two twoIn twoWhole
      have oneFilled := (whole_iff (sound _ oneKnown).filed).mp oneWhole
      have twoFilled := (whole_iff (sound _ twoKnown).filed).mp twoWhole
      unfold IsDirect at oneDirect twoDirect
      by_cases segments : one.1.1 = two.1.1
      · unfold Piece.page
        rw [segments] at oneDirect ⊢
        unfold pageSize at oneDirect twoDirect
        omega
      · refine .inr ⟨segments, ?_⟩
        unfold SharesWholePage
        unfold pageSize at *
        omega

end

end Sharing

theorem build_loaded {plan : UserLoadPlan} {kernelPml4 : PageTable} {context : UserContext}
    (accounts : boot.allocator.Accounts outstanding)
    (built : buildAddressSpaceWithAllocator environment plan image base kernelPml4 boot = .ok context after) :
    validatePlan plan image = .ok () ∧ ∃ prepared done, Prepared boot prepared ∧
      done.map Prod.fst = pieces plan.segments ∧ Loaded base outstanding prepared done after := by
  obtain ⟨_, _, checked, rest⟩ := bind_eq_ok_iff.mp built
  obtain ⟨accepted, rfl⟩ := demand_eq_ok_iff.mp checked
  obtain ⟨_, prepared, made, rest⟩ := bind_eq_ok_iff.mp rest
  obtain ⟨_, mapped, loads, rest⟩ := bind_eq_ok_iff.mp rest
  obtain ⟨cr3, _, located, rest⟩ := bind_eq_ok_iff.mp rest
  have still : mapped = after := by
    obtain ⟨_, _, got, aligned⟩ := bind_eq_ok_iff.mp located
    cases got
    obtain ⟨_, rfl⟩ := demand_eq_ok_iff.mp aligned
    cases rest
    rfl
  subst still
  have before := prepare_prepared made
  obtain ⟨sound, apart⟩ := validatePlan_sound accepted
  have ready : prepared.allocator.Accounts outstanding := before.beside.allocator ▸ accounts
  obtain ⟨done, pieced, loaded⟩ := mapSegments_loaded sound apart ready loads
  exact ⟨accepted, prepared, done, before, pieced, loaded⟩

theorem imagePage_eq_iff {first second : Nat} (one : InImage first) (two : InImage second) :
    imagePage first = imagePage second ↔ first / pageSize = second / pageSize := by
  obtain ⟨one, _⟩ := one
  obtain ⟨two, _⟩ := two
  simp only [imagePage, userImageBase, pageSize] at *
  omega

theorem sharesWholePage_symm (shared : SharesWholePage first second) : SharesWholePage second first := by
  unfold SharesWholePage at shared ⊢
  rwa [max_comm, min_comm]

instance : Std.Symm UserProcess.Alike where
  symm first second alike shared := by
    rw [BitVec.xor_comm]
    exact alike ⟨shared.2, shared.1⟩

theorem exists_shared_page (one : UserProcess.Sound image first) (two : UserProcess.Sound image second)
    (shared : SharesWholePage first second) : ∃ i j, isWhole first i = true ∧ isWhole second j = true ∧
      first.fileOffset + i * pageSize = second.fileOffset + j * pageSize := by
  have firstAligned := one.fileAligned
  have secondAligned := two.fileAligned
  unfold SharesWholePage at shared
  refine ⟨(max first.fileOffset second.fileOffset - first.fileOffset) / pageSize,
    (max first.fileOffset second.fileOffset - second.fileOffset) / pageSize,
    (whole_iff one.filed).mpr ?_, (whole_iff two.filed).mpr ?_, ?_⟩
  all_goals
    unfold pageSize at *
    omega

def pieceAddress (piece : Piece) : Nat := userImageBase + piece.page * pageSize

theorem inImage_pieceAddress (sound : UserProcess.Sound image piece.1)
    (inside : piece.2 * pageSize < piece.1.memorySize) :
    InImage (pieceAddress piece) ∧ imagePage (pieceAddress piece) = piece.page := by
  have start := firstPage_spec sound
  have below := sound.below
  simp only [InImage, pieceAddress, imagePage, Piece.page, pageSize] at *
  omega

section Stores
variable {plan : UserLoadPlan} {boot prepared after : Boot window}
section
variable (before : Prepared boot prepared)
include before
variable (loaded : Loaded base outstanding prepared done after)
include loaded

theorem Loaded.reaches (sound : ∀ segment ∈ plan.segments, UserProcess.Sound image segment)
    (pieced : done.map Prod.fst = pieces plan.segments) {segment : UserLoadSegment} (member : segment ∈ plan.segments)
    (relative : Nat) (whole : isWhole segment relative = true) :
    InImage (pieceAddress (segment, relative)) ∧ Reaches after (pieceAddress (segment, relative))
      (backedAccess ((segment, relative), base + segment.fileOffset + relative * pageSize)) := by
  have filled := (whole_iff (sound segment member).filed).mp whole
  have inside : relative * pageSize < segment.memorySize := by
    have filed := (sound segment member).filed
    have positive : 0 < pageSize := by decide
    omega
  obtain ⟨inImage, page⟩ := @inImage_pieceAddress image (segment, relative) (sound segment member) inside
  have listed : (segment, relative) ∈ done.map Prod.fst := pieced ▸ mem_pieces.mpr ⟨member, inside⟩
  obtain ⟨⟨piece, physical⟩, backedIn, same⟩ := mem_map.mp listed
  obtain rfl : piece = (segment, relative) := same
  have direct : physical = base + segment.fileOffset + relative * pageSize := loaded.direct _ backedIn whole
  subst direct
  exact ⟨inImage, (reaches_iff (loaded.laid before) inImage).mpr ⟨_, backedIn, page.symm, rfl⟩⟩

theorem Loaded.writesOwnPages
    (accepted : validatePlan plan image = .ok ()) (pieced : done.map Prod.fst = pieces plan.segments)
    (separate : StoresApart after) : WritesOwnPages plan := by
  obtain ⟨sound, apart⟩ := validatePlan_sound accepted
  refine apart.imp_of_mem ?_
  rintro first second firstIn secondIn apartHere ⟨firstWrites, _, shared⟩
  obtain ⟨i, j, firstWhole, secondWhole, same⟩ :=
    exists_shared_page (sound first firstIn) (sound second secondIn) shared
  obtain ⟨firstImage, firstReach⟩ := loaded.reaches before sound pieced firstIn i firstWhole
  obtain ⟨secondImage, secondReach⟩ := loaded.reaches before sound pieced secondIn j secondWhole
  have onePage := separate.pages _ _ _ _ firstImage secondImage firstReach secondReach
    (.inl (decide_eq_true firstWrites)) (by simp only [backedAccess]; omega)
  -- but the two segments are apart in memory
  have firstAt := firstPage_spec (sound first firstIn)
  have secondAt := firstPage_spec (sound second secondIn)
  have firstFilled := (whole_iff (sound first firstIn).filed).mp firstWhole
  have secondFilled := (whole_iff (sound second secondIn).filed).mp secondWhole
  have firstFiled := (sound first firstIn).filed
  have secondFiled := (sound second secondIn).filed
  simp only [pieceAddress, Piece.page, userImageBase, pageSize, UserProcess.Apart] at *
  omega

theorem Loaded.storesApart
    (accepted : validatePlan plan image = .ok ()) (pieced : done.map Prod.fst = pieces plan.segments)
    (outside : Outside prepared.allocator base image.length) (own : WritesOwnPages plan) : StoresApart after := by
  obtain ⟨sound, _⟩ := validatePlan_sound accepted
  have alike := validatePlan_alike accepted
  have laid := loaded.laid before
  have symmetric : Std.Symm fun first second => ¬(Writable first ∧ Writable second ∧ SharesWholePage first second) :=
    ⟨fun _ _ free both => free ⟨both.2.1, both.1, sharesWholePage_symm both.2.2⟩⟩
  have known {backed : Backed} (member : backed ∈ done) : backed.1.1 ∈ plan.segments :=
    (mem_pieces.mp (pieced ▸ mem_map_of_mem member)).1
  have pages : ∀ first second one two, InImage first → InImage second → Reaches after first one →
      Reaches after second two → one.writable ∨ two.writable → one.page = two.page →
        first / pageSize = second / pageSize := by
    rintro first second _ _ firstIn secondIn firstReach secondReach writes same
    obtain ⟨one, oneIn, oneAt, rfl⟩ := (reaches_iff laid firstIn).mp firstReach
    obtain ⟨two, twoIn, twoAt, rfl⟩ := (reaches_iff laid secondIn).mp secondReach
    rw [← imagePage_eq_iff firstIn secondIn, ← oneAt, ← twoAt]
    apply (loaded.shared outside sound oneIn twoIn (known oneIn) (known twoIn) same).resolve_right
    rintro ⟨different, shared⟩
    have agree := alike_writable (alike.forall (known oneIn) (known twoIn) different) shared
    have either : Writable one.1.1 ∨ Writable two.1.1 := writes.imp of_decide_eq_true of_decide_eq_true
    have both : Writable one.1.1 ∧ Writable two.1.1 := ⟨either.elim id agree.mpr, either.elim agree.mp id⟩
    exact own.forall (known oneIn) (known twoIn) different ⟨both.1, both.2, shared⟩
  refine ⟨pages, ?_⟩
  intro first second one two firstIn secondIn firstReach secondReach writes different memory byte
  apply Function.update_of_ne
  intro same
  apply different
  refine pages first second one two firstIn secondIn firstReach secondReach (.inl writes) ?_
  obtain ⟨oneBacked, oneIn, _, rfl⟩ := (reaches_iff laid firstIn).mp firstReach
  obtain ⟨twoBacked, twoIn, _, rfl⟩ := (reaches_iff laid secondIn).mp secondReach
  have oneAligned := laid.aligned oneBacked oneIn
  have twoAligned := laid.aligned twoBacked twoIn
  simp only [backedAccess, pageSize] at *
  omega

end

end Stores

/-- A store in the image of the init process is seen at one place, exactly if no page of the file
belongs to two writable segments. -/
theorem stores_apart_iff {environment : Environment} {plan : UserLoadPlan} {image : List UInt8} {base : Nat}
    {kernelPml4 : PageTable} {boot after : Boot window} {context : UserContext} {outstanding : List Nat}
    (accounts : boot.allocator.Accounts outstanding) (outside : Outside boot.allocator base image.length)
    (built : buildAddressSpaceWithAllocator environment plan image base kernelPml4 boot = .ok context after) :
    StoresApart after ↔ WritesOwnPages plan := by
  obtain ⟨accepted, prepared, done, before, pieced, loaded⟩ := build_loaded accounts built
  have away : Outside prepared.allocator base image.length := before.beside.allocator ▸ outside
  constructor
  · intro separate
    exact loaded.writesOwnPages before accepted pieced separate
  · intro own
    exact loaded.storesApart before accepted pieced away own

theorem plain_tables : 128 ≤ 2048 := by decide

theorem plain_positive : 0 < 32 := by decide

theorem plain_slots : 32 ≤ 64 := by decide

def plainWindow : Window := ⟨128, 32, plain_tables, plain_positive, plain_slots⟩

def plainEnvironment : Environment where
  readPageTableEntry _ _ := 0
  activeCr3 := 0
  surface := ⟨0x200000, rfl, by decide⟩
  capabilities := ⟨0, 0, 0, 0, 0, 0⟩

def plainBoot : Boot plainWindow where
  storage := ⟨0x400000, fun _ => .empty, fun _ _ => 0, fun _ _ => 0, fun _ => 0, rfl, by decide⟩
  allocator := .empty
  memory _ := 0

def codeSegment : UserLoadSegment := ⟨0, userImageBase, 4096, 4096, 5#32⟩

def dataSegment (filePage page : Nat) : UserLoadSegment :=
  ⟨filePage * 4096, userImageBase + page * 4096, 4096, 4096, 6#32⟩

def threePages : List UInt8 := replicate 12288 0

def sharingPlan : UserLoadPlan := ⟨userImageBase, [codeSegment, dataSegment 1 1, dataSegment 1 2], none⟩

def apartPlan : UserLoadPlan := ⟨userImageBase, [codeSegment, dataSegment 1 1, dataSegment 2 2], none⟩

theorem plainBoot_accounts : plainBoot.allocator.Accounts [] where
  disjoint := List.Pairwise.nil
  once := nodup_nil
  passed page := by simp [PageAllocator.Passed, plainBoot, PageAllocator.empty]

def succeeds {ε σ α : Type} : EStateM.Result ε σ α → Bool
  | .ok _ _ => true
  | .error _ _ => false

theorem exists_of_succeeds {ε σ α : Type} {result : EStateM.Result ε σ α} (went : succeeds result = true) :
    ∃ value after, result = .ok value after := by
  cases result with
  | ok value after => exact ⟨value, after, rfl⟩
  | error error after => cases went

/-- Two writable segments are accepted on one page of the file, and a store through one is seen through the other. -/
theorem writable_page_is_shared :
    UserProcess.validatePlan sharingPlan threePages = .ok () ∧ ∃ context after,
      buildAddressSpaceWithAllocator plainEnvironment sharingPlan threePages 0x1000000 .empty plainBoot =
        .ok context after ∧
        Reaches after (userImageBase + 4096) ⟨0x1001000, true, false⟩ ∧
        Reaches after (userImageBase + 8192) ⟨0x1001000, true, false⟩ ∧ ¬StoresApart after := by
  have accepted : validatePlan sharingPlan threePages = .ok () := by decide +kernel
  obtain ⟨context, after, built⟩ : ∃ context after, buildAddressSpaceWithAllocator plainEnvironment sharingPlan
      threePages 0x1000000 .empty plainBoot = .ok context after := exists_of_succeeds (by decide +kernel)
  obtain ⟨_, prepared, done, before, pieced, loaded⟩ := build_loaded plainBoot_accounts built
  have sound := (validatePlan_sound accepted).1
  have seen (page : Nat) (member : dataSegment 1 page ∈ sharingPlan.segments) :=
    loaded.reaches before sound pieced member 0 rfl
  have first := seen 1 (by decide)
  have second := seen 2 (by decide)
  refine ⟨accepted, context, after, built, first.2, second.2, ?_⟩
  intro separate
  have same := separate.pages _ _ _ _ first.1 second.1 first.2 second.2 (.inl rfl) rfl
  exact absurd same (by decide)

theorem apart_plan_stores_apart : ∃ context after,
    buildAddressSpaceWithAllocator plainEnvironment apartPlan threePages 0x1000000 .empty plainBoot =
      .ok context after ∧
      StoresApart after := by
  obtain ⟨context, after, built⟩ : ∃ context after, buildAddressSpaceWithAllocator plainEnvironment apartPlan
      threePages 0x1000000 .empty plainBoot = .ok context after := exists_of_succeeds (by decide +kernel)
  have outside : Outside plainBoot.allocator 0x1000000 threePages.length := by
    intro range member
    cases member
  refine ⟨context, after, built, (stores_apart_iff plainBoot_accounts outside built).mpr ?_⟩
  have own : apartPlan.segments.Pairwise fun first second => ¬SharesWholePage first second := by
    simp [apartPlan, SharesWholePage, codeSegment, dataSegment, pageSize]
  exact own.imp fun free both => free both.2.2

end
end Bootstrap
end Nagi.Kernel
