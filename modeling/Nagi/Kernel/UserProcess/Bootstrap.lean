import Nagi.Kernel.UserChild.Storage
import Nagi.Kernel.UserMmap.Storage

/-! The address space of the init process, as `kernel/src/user_process.rs` builds it.

The storage is one static block: the page tables, then the pages of the stack
and of the thread-local storage. The pages of the image are not in it. Whole
pages of the loaded file are mapped where they lie, the others come from the
boot allocator. -/

namespace Nagi.Kernel

open Lib UserElf Words List

namespace Bootstrap

open UserMmap (Window)
open UserChild (PageBytes hierarchy stackFlags segmentFlags pageCount fileBytes)

def userTlsBase : Nat := userImageLimit + 0x400000
def userTlsPagesPerThread : Nat := 2
def userTlsControlBase : Nat := userTlsBase + pageSize
def userTlsChildBase : Nat := userTlsBase + userTlsPagesPerThread * pageSize
def userTlsChildControlBase : Nat := userTlsChildBase + pageSize
def userSurfaceBase : Nat := userImageLimit + 0x600000
def surfaceBytes : Nat := 320 * 200 * 4
def surfacePageCount : Nat := (surfaceBytes + pageSize - 1) / pageSize
def userImagePageTableCount : Nat := (userImageLimit - userImageBase) / (pageTableEntries * pageSize)
def maxIdentityMappedAddress : Nat := 2 ^ 32

variable (window : Window)

def mmapExtraPdCount : Nat :=
  (userPdIndex UserMmap.userMmapBase + window.pageTables - 1) / pageTableEntries

def userTlsPageCount : Nat := window.threadSlots * userTlsPagesPerThread

/-- The tables of the storage; `imagePt 0` is the source's `image_pt`, the others are its `image_extra_pts`. -/
inductive BootstrapTable where
  | pml4
  | pdpt
  | pd
  | mmapExtraPd (index : Nat)
  | imagePt (index : Nat)
  | stackPt
  | tlsPt
  | mmapPt (index : Nat)
  | surfacePt
  deriving DecidableEq

def BootstrapTable.position : BootstrapTable → Nat
  | .pml4 => 0
  | .pdpt => 1
  | .pd => 2
  | .mmapExtraPd index => 3 + index
  | .imagePt index => 3 + mmapExtraPdCount window + index
  | .stackPt => 3 + mmapExtraPdCount window + userImagePageTableCount
  | .tlsPt => 3 + mmapExtraPdCount window + userImagePageTableCount + 1
  | .mmapPt index => 3 + mmapExtraPdCount window + userImagePageTableCount + 2 + index
  | .surfacePt => 3 + mmapExtraPdCount window + userImagePageTableCount + 2 + window.pageTables

def tableCount : Nat :=
  3 + mmapExtraPdCount window + userImagePageTableCount + 2 + window.pageTables + 1

def storagePages : Nat :=
  tableCount window + userStackPages + userTlsPageCount window + 1

structure BootstrapStorage where
  address : Nat
  tables : BootstrapTable → PageTable
  stackPages : Nat → PageBytes
  tlsPages : Nat → PageBytes
  tlsInitialPage : PageBytes
  aligned : address % pageSize = 0
  placed : address + storagePages window * pageSize ≤ 2 ^ 52

structure Surface where
  address : Nat
  aligned : address % pageSize = 0
  placed : address + surfacePageCount * pageSize ≤ 2 ^ 52

def Surface.pageAddress (surface : Surface) (index : Nat) : Option Nat :=
  if index < surfacePageCount then some (surface.address + index * pageSize) else none

structure Capabilities where
  block : Nat
  display : Nat
  input : Nat
  net : Nat
  audio : Nat
  modelStore : Nat
  deriving DecidableEq

/-- What the construction finds: the active tables, as memory holds them, and other parts of the kernel. -/
structure Environment where
  readPageTableEntry : Nat → Nat → BitVec 64
  activeCr3 : Nat
  surface : Surface
  capabilities : Capabilities

structure UserContext where
  entry : Nat
  userStackTop : Nat
  userTlsBase : Nat
  cr3 : Nat
  capabilities : Capabilities
  deriving DecidableEq

section
variable {window}

namespace BootstrapStorage

variable (storage : BootstrapStorage window)

def tableAddress (table : BootstrapTable) : Nat :=
  storage.address + table.position window * pageSize

def stackPageAddress (index : Nat) : Nat :=
  storage.address + (tableCount window + index) * pageSize

def tlsPageAddress (index : Nat) : Nat :=
  storage.address + (tableCount window + userStackPages + index) * pageSize

def clear : BootstrapStorage window :=
  { storage with
    tables := fun _ => .empty
    stackPages := fun _ _ => 0
    tlsPages := fun _ _ => 0
    tlsInitialPage := fun _ => 0 }

def setTable (table : BootstrapTable) (entries : PageTable) : BootstrapStorage window :=
  { storage with tables := Function.update storage.tables table entries }

def setTlsPage (index : Nat) (page : PageBytes) : BootstrapStorage window :=
  { storage with tlsPages := Function.update storage.tlsPages index page }

end BootstrapStorage

/-- The storage, the boot allocator, and the memory that the allocator hands out. -/
structure Boot (window : Window) where
  storage : BootstrapStorage window
  allocator : PageAllocator
  memory : Nat → UInt8

/-- What changes them; on an error the changes so far stay. -/
abbrev Build (window : Window) (α : Type) := EStateM (Fault UserProcessError) (Boot window) α

def reject {α : Type} (reason : UserProcessError) : Build window α := throw (.error reason)

def onStorage (change : BootstrapStorage window → BootstrapStorage window) : Build window Unit :=
  modify fun boot => { boot with storage := change boot.storage }

def mapLeaf (table : BootstrapTable) (index physicalAddress : Nat) (flags : BitVec 64) : Build window Unit := do
  let boot ← get
  let entries ← demand (UserProcess.mapLeaf (boot.storage.tables table) index physicalAddress flags)
  onStorage (·.setTable table entries)

def addressOf (place : BootstrapStorage window → Nat) : Build window Nat := do
  demand (UserProcess.alignedAddress (place (← get).storage))

/-- An entry of the kernel's own table, without the user bit. -/
def copyKernelEntry (kernelPml4 : PageTable) (index : Nat) : Build window Unit :=
  if index = userPml4Index then return ()
  else
    match kernelPml4.rawEntry index with
    | none => return ()
    | some raw => do
      let boot ← get
      let replaced := (boot.storage.tables .pml4).replaceEmpty index (raw &&& ~~~PageTableEntry.user)
      let entries ← demand (okOr replaced .invalidLoadPlan)
      onStorage (·.setTable .pml4 entries)

def imagePageTable (tableIndex : Nat) : UserProcess.Prepare BootstrapTable :=
  if tableIndex < userImagePageTableCount then .ok (.imagePt tableIndex) else UserProcess.reject .invalidLoadPlan

def mapExtraPd (extra : Nat) : Build window Unit := do
  let extraPd ← addressOf (·.tableAddress (.mmapExtraPd extra))
  mapLeaf .pdpt (userPdptIndex + 1 + extra) extraPd hierarchy

def mapImageTable (tableIndex : Nat) : Build window Unit := do
  let table ← demand (imagePageTable tableIndex)
  let imagePt ← addressOf (·.tableAddress table)
  mapLeaf .pd (userImageFirstPdIndex + tableIndex) imagePt hierarchy

def mapMmapTable (tableIndex : Nat) : Build window Unit := do
  let mmapPt ← addressOf (·.tableAddress (.mmapPt tableIndex))
  let pdIndex := userPdIndex UserMmap.userMmapBase + tableIndex
  if pdIndex < pageTableEntries then mapLeaf .pd pdIndex mmapPt hierarchy
  else
    let extra := pdIndex / pageTableEntries - 1
    if extra < mmapExtraPdCount window then mapLeaf (.mmapExtraPd extra) (pdIndex % pageTableEntries) mmapPt hierarchy
    else reject .invalidLoadPlan

def mapHierarchy : Build window Unit := do
  let pdpt ← addressOf (·.tableAddress .pdpt)
  let pd ← addressOf (·.tableAddress .pd)
  let stackPt ← addressOf (·.tableAddress .stackPt)
  let tlsPt ← addressOf (·.tableAddress .tlsPt)
  let surfacePt ← addressOf (·.tableAddress .surfacePt)
  mapLeaf .pml4 userPml4Index pdpt hierarchy
  mapLeaf .pdpt userPdptIndex pd hierarchy
  (range (mmapExtraPdCount window)).forM mapExtraPd
  (range userImagePageTableCount).forM mapImageTable
  mapLeaf .pd (userPdIndex userStackBase) stackPt hierarchy
  mapLeaf .pd (userPdIndex userTlsBase) tlsPt hierarchy
  mapLeaf .pd (userPdIndex userSurfaceBase) surfacePt hierarchy
  (range window.pageTables).forM mapMmapTable

def withBytes (page : PageBytes) (start : Nat) (bytes : List UInt8) : PageBytes := fun offset =>
  if start ≤ offset ∧ offset < start + bytes.length then bytes.getD (offset - start) 0 else page offset

def userTlsControlBaseOf (threadId : Nat) : Nat :=
  userTlsBase + (threadId * userTlsPagesPerThread + 1) * pageSize

def resetThreadTlsPages (threadId : Nat) (storage : BootstrapStorage window) : BootstrapStorage window :=
  let firstPage := threadId * userTlsPagesPerThread
  (storage.setTlsPage firstPage storage.tlsInitialPage).setTlsPage (firstPage + 1)
    (withBytes (fun _ => 0) 0 (leBytes 8 (userTlsControlBaseOf threadId)))

def resetChildTlsPages (storage : BootstrapStorage window) : BootstrapStorage window :=
  (range' 1 (window.threadSlots - 1)).foldl (fun storage threadId => resetThreadTlsPages threadId storage) storage

/-- Where the bytes of the template go in its page, and the bytes. -/
def tlsTemplate (tls : UserTlsSegment) (image : List UInt8) : UserProcess.Prepare (Nat × List UInt8) := do
  let alignment := max tls.alignment 1
  let aligned ← okOr (alignedSize tls.memorySize alignment) .invalidLoadPlan
  let start ← sub pageSize aligned
  let fileEnd ← okOr (checkedAdd 64 tls.fileOffset tls.fileSize) .imageOutOfBounds
  let initializedEnd ← okOr (checkedAdd 64 start tls.fileSize) .invalidLoadPlan
  if initializedEnd > pageSize ∨ fileEnd > image.length then
    UserProcess.reject .imageOutOfBounds
  return (start, (image.drop tls.fileOffset).take tls.fileSize)

def initializeTls (plan : UserLoadPlan) (image : List UInt8) : Build window Unit := do
  onStorage fun storage =>
    storage.setTlsPage 1 (withBytes (storage.tlsPages 1) 0 (leBytes 8 userTlsControlBase))
  onStorage fun storage =>
    storage.setTlsPage 3 (withBytes (storage.tlsPages 3) 0 (leBytes 8 userTlsChildControlBase))
  match plan.tls with
  | none => return ()
  | some tls => do
    let (start, bytes) ← demand (tlsTemplate tls image)
    onStorage fun storage => { storage with tlsInitialPage := withBytes storage.tlsInitialPage start bytes }
    onStorage fun storage => storage.setTlsPage 0 storage.tlsInitialPage
    onStorage resetChildTlsPages

def mapStackPage (index : Nat) : Build window Unit := do
  let physical ← addressOf (·.stackPageAddress index)
  mapLeaf .stackPt index physical stackFlags

def mapTlsPage (index : Nat) : Build window Unit := do
  let physical ← addressOf (·.tlsPageAddress index)
  mapLeaf .tlsPt index physical stackFlags

def mapSurfacePage (surface : Surface) (index : Nat) : Build window Unit := do
  let physical ← demand (okOr (surface.pageAddress index) .invalidPhysicalAddress)
  mapLeaf .surfacePt index physical stackFlags

variable (environment : Environment)

def prepareAddressSpaceStorage (plan : UserLoadPlan) (image : List UInt8)
    (kernelPml4 : PageTable) : Build window Unit :=
  if (kernelPml4.rawEntry userPml4Index).isSome then reject .kernelUserSlotOccupied
  else do
    onStorage (·.clear)
    (range pageTableEntries).forM (copyKernelEntry kernelPml4)
    mapHierarchy
    initializeTls plan image
    (range userStackPages).forM mapStackPage
    (range (userTlsPageCount window)).forM mapTlsPage
    (range surfacePageCount).forM (mapSurfacePage environment.surface)

def allocateZeroedPage : Build window Nat := do
  let boot ← get
  match boot.allocator.allocatePageBelow maxIdentityMappedAddress with
  | (none, allocator) => do
    set { boot with allocator := allocator }
    reject .physicalMemoryExhausted
  | (some page, allocator) =>
    if identityMapped environment.readPageTableEntry environment.activeCr3 page pageSize then do
      set { boot with
        allocator := allocator
        memory := fun address => if page ≤ address ∧ address < page + pageSize then 0 else boot.memory address }
      return page
    else do
      set { boot with allocator := (allocator.freePage page).2 }
      reject .imageNotMapped

def mapImageLeaf (imagePage physicalAddress : Nat) (flags : BitVec 64) : Build window Unit := do
  let table ← demand (imagePageTable (imagePage / pageTableEntries))
  mapLeaf table (imagePage % pageTableEntries) physicalAddress flags

/-- Both the memory and the file fill the page. -/
def isWhole (segment : UserLoadSegment) (relativePage : Nat) : Bool :=
  min (segment.memorySize - relativePage * pageSize) pageSize = pageSize ∧ fileBytes segment relativePage = pageSize

def directAddress (imagePhysicalBase : Nat) (segment : UserLoadSegment) (relativePage : Nat) : Option Nat := do
  let address ← checkedAdd 64 imagePhysicalBase segment.fileOffset
  checkedAdd 64 address (relativePage * pageSize)

variable (image : List UInt8)

def sourceBytes (segment : UserLoadSegment) (relativePage : Nat) : UserProcess.Prepare (List UInt8) := do
  let count := fileBytes segment relativePage
  let start ← okOr (checkedAdd 64 segment.fileOffset (relativePage * pageSize)) .imageOutOfBounds
  let stop ← okOr (checkedAdd 64 start count) .imageOutOfBounds
  if stop > image.length then
    UserProcess.reject .imageOutOfBounds
  return (image.drop start).take count

def copiedPage (segment : UserLoadSegment) (relativePage : Nat) : Build window Nat := do
  let page ← allocateZeroedPage environment
  if fileBytes segment relativePage = 0 then return page
  else do
    let bytes ← demand (sourceBytes image segment relativePage)
    modify fun boot => { boot with memory := fun address =>
      if page ≤ address ∧ address < page + bytes.length then bytes.getD (address - page) 0 else boot.memory address }
    return page

def physicalPage (imagePhysicalBase : Nat) (segment : UserLoadSegment) (relativePage : Nat) : Build window Nat :=
  if isWhole segment relativePage then
    demand (okOr (directAddress imagePhysicalBase segment relativePage) .imageOutOfBounds)
  else
    copiedPage environment image segment relativePage

def mapSegmentPage (imagePhysicalBase : Nat)
    (segment : UserLoadSegment) (firstPage relativePage : Nat) : Build window Unit := do
  let physical ← physicalPage environment image imagePhysicalBase segment relativePage
  mapImageLeaf (firstPage + relativePage) physical (segmentFlags segment)

def mapSegmentFromImage (imagePhysicalBase : Nat) (segment : UserLoadSegment) : Build window Unit := do
  let offset ← sub segment.virtualAddress userImageBase
  (range (pageCount segment)).forM (mapSegmentPage environment image imagePhysicalBase segment (offset / pageSize))

def buildUserContext (plan : UserLoadPlan) : Build window UserContext := do
  let cr3 ← addressOf (·.tableAddress .pml4)
  return ⟨plan.entry, userStackLimit - 8, userTlsControlBase, cr3, environment.capabilities⟩

def buildAddressSpaceWithAllocator (plan : UserLoadPlan) (image : List UInt8)
    (imagePhysicalBase : Nat) (kernelPml4 : PageTable) : Build window UserContext := do
  demand (UserProcess.validatePlan plan image)
  prepareAddressSpaceStorage environment plan image kernelPml4
  plan.segments.forM (mapSegmentFromImage environment image imagePhysicalBase)
  buildUserContext environment plan

end
end Bootstrap
end Nagi.Kernel
