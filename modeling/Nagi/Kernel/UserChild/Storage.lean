import Nagi.Kernel.ProcessExit
import Nagi.Kernel.Scheduler
import Nagi.Kernel.UserProcess.LoadPlan
import Nagi.Lib.Calls

/-! The address space of one isolated process.

The storage of a child is one block of pages: five page tables, then the pages
of its image, then those of its stack. It is identity-mapped, so that the place
of a page in the block is its physical address. -/

namespace Nagi.Kernel

open Lib UserElf PageTableEntry

namespace UserChild

def childImagePages : Nat := 256
def childStackPages : Nat := 16
def childImageLimit : Nat := userImageBase + childImagePages * pageSize
def childStackBase : Nat := userStackLimit - childStackPages * pageSize
def maxChildElfBytes : Nat := 2 * 1024 * 1024

structure ChildContext where
  processId : Nat
  entry : Nat
  userStackTop : Nat
  cr3 : Nat
  deriving DecidableEq

/-- The tables of the storage, in the order they stand in. -/
inductive ChildTable where
  | pml4
  | pdpt
  | pd
  | imagePt
  | stackPt
  deriving DecidableEq

def ChildTable.position : ChildTable → Nat
  | .pml4 => 0
  | .pdpt => 1
  | .pd => 2
  | .imagePt => 3
  | .stackPt => 4

abbrev PageBytes := Nat → UInt8

def childPages : Nat := 5 + childImagePages + childStackPages

structure ChildStorage where
  address : Nat
  tables : ChildTable → PageTable
  imagePages : Nat → PageBytes
  stackPages : Nat → PageBytes
  aligned : address % pageSize = 0
  placed : address + childPages * pageSize ≤ 2 ^ 52

namespace ChildStorage

variable (storage : ChildStorage)

def tableAddress (table : ChildTable) : Nat := storage.address + table.position * pageSize

def imagePageAddress (index : Nat) : Nat := storage.address + (5 + index) * pageSize

def stackPageAddress (index : Nat) : Nat :=
  storage.address + (5 + childImagePages + index) * pageSize

def clear : ChildStorage :=
  { storage with tables := fun _ => .empty, imagePages := fun _ _ => 0, stackPages := fun _ _ => 0 }

def setTable (table : ChildTable) (entries : PageTable) : ChildStorage :=
  { storage with tables := Function.update storage.tables table entries }

def setImagePage (index : Nat) (page : PageBytes) : ChildStorage :=
  { storage with imagePages := Function.update storage.imagePages index page }

end ChildStorage

/-- What changes the storage; on an error the changes so far stay. -/
abbrev Build (α : Type) := EStateM (Fault UserProcessError) ChildStorage α

def reject {α : Type} (reason : UserProcessError) : Build α := throw (.error reason)

def mapLeaf (table : ChildTable) (index physicalAddress : Nat) (flags : BitVec 64) : Build Unit := do
  let storage ← get
  let entries ← demand (UserProcess.mapLeaf (storage.tables table) index physicalAddress flags)
  set (storage.setTable table entries)

variable (segment : UserLoadSegment)

def validateEnd : UserProcess.Prepare Unit := do
  let stop ← Words.okOr (Words.checkedAdd 64 segment.virtualAddress segment.memorySize) .imageTooLarge
  if stop > childImageLimit then
    UserProcess.reject .imageTooLarge

def validateChildPlan (plan : UserLoadPlan) (image : List UInt8) : UserProcess.Prepare Unit := do
  UserProcess.validatePlan plan image
  if plan.tls.isSome then
    UserProcess.reject .invalidLoadPlan
  plan.segments.forM validateEnd

/-- An entry of the kernel's own table, without the user bit. -/
def copyKernelEntry (kernelPml4 : PageTable) (index : Nat) : Build Unit := do
  if index = userPml4Index then
    return ()
  match kernelPml4.rawEntry index with
  | none => return ()
  | some raw =>
    let storage ← get
    let replaced := (storage.tables .pml4).replaceEmpty index (raw &&& ~~~user)
    let entries ← demand (Words.okOr replaced .invalidLoadPlan)
    set (storage.setTable .pml4 entries)

def hierarchy : BitVec 64 := present ||| writable ||| user

def stackFlags : BitVec 64 :=
  present ||| writable ||| user ||| noExecute

def addressOf (place : ChildStorage → Nat) : Build Nat := do
  demand (UserProcess.alignedAddress (place (← get)))

def mapTables : Build Unit := do
  let pdpt ← addressOf (·.tableAddress .pdpt)
  let pd ← addressOf (·.tableAddress .pd)
  let imagePt ← addressOf (·.tableAddress .imagePt)
  let stackPt ← addressOf (·.tableAddress .stackPt)
  mapLeaf .pml4 userPml4Index pdpt hierarchy
  mapLeaf .pdpt userPdptIndex pd hierarchy
  mapLeaf .pd userImageFirstPdIndex imagePt hierarchy
  mapLeaf .pd (userPdIndex userStackBase) stackPt hierarchy

def mapStackPage (index : Nat) : Build Unit := do
  let physical ← addressOf (·.stackPageAddress index)
  mapLeaf .stackPt (pageTableEntries - childStackPages + index) physical stackFlags

def segmentFlags : BitVec 64 :=
  let flags := present ||| user
  let flags := if segment.flags &&& pfW ≠ 0#32 then flags ||| writable else flags
  if segment.flags &&& pfX = 0#32 then flags ||| noExecute else flags

def fileBytes (relative : Nat) : Nat :=
  min (segment.fileSize - relative * pageSize) pageSize

def copyFileBytes (image : List UInt8) (segment : UserLoadSegment) (relative : Nat) (page : PageBytes) :
    UserProcess.Prepare PageBytes := do
  let count := fileBytes segment relative
  if count = 0 then
    return page
  let start ← Words.add 64 segment.fileOffset (relative * pageSize)
  let stop ← Words.add 64 start count
  if stop > image.length then
    UserProcess.reject .imageOutOfBounds
  return fun offset => if offset < count then image.getD (start + offset) 0 else page offset

def loadPage (image : List UInt8) (segment : UserLoadSegment) (firstPage relative : Nat) : Build Unit :=
  let pageIndex := firstPage + relative
  if pageIndex ≥ childImagePages then reject .imageTooLarge
  else do
    let storage ← get
    let page ← demand (copyFileBytes image segment relative (storage.imagePages pageIndex))
    set (storage.setImagePage pageIndex page)
    let physical ← addressOf (·.imagePageAddress pageIndex)
    mapLeaf .imagePt pageIndex physical (segmentFlags segment)

def pageCount : Nat := (segment.memorySize + pageSize - 1) / pageSize

def loadSegment (image : List UInt8) (segment : UserLoadSegment) : Build Unit := do
  let offset ← Words.sub segment.virtualAddress userImageBase
  (List.range (pageCount segment)).forM (loadPage image segment (offset / pageSize))

def buildChildAddressSpace (plan : UserLoadPlan) (image : List UInt8) (kernelPml4 : PageTable) :
    Build ChildContext := do
  demand (validateChildPlan plan image)
  modify ChildStorage.clear
  (List.range pageTableEntries).forM (copyKernelEntry kernelPml4)
  mapTables
  (List.range childStackPages).forM mapStackPage
  plan.segments.forM (loadSegment image)
  let cr3 ← addressOf (·.tableAddress .pml4)
  return ⟨firstIsolatedProcessId, plan.entry, userStackLimit - 8, cr3⟩

end UserChild
end Nagi.Kernel
