import Nagi.Kernel.PageTable
import Nagi.Kernel.UserElf

/-! The anonymous mappings of the bootstrap process, as in `kernel/src/user_process.rs`.

Four arrays describe the window: who owns each page, how many pages each
reservation still has, the frame behind each page, and the page tables. Invalidating
translations has no place in this model. -/

namespace Nagi.Kernel.UserMmap

open Function List

/-- The sizes of the window, which the build features choose. -/
structure Window where
  pageTables : Nat
  threadSlots : Nat
  tables_bound : pageTables ≤ 2048
  slots_positive : 0 < threadSlots
  slots_bound : threadSlots ≤ 64

def userMmapBase : Nat := userImageLimit + 0x800000

namespace Window

def pages (window : Window) : Nat := pageTableEntries * window.pageTables

def maxReservations (window : Window) : Nat := window.threadSlots * 2

def limit (window : Window) : Nat := userMmapBase + window.pages * pageSize

end Window

def protNone : Nat := 0
def protExec : Nat := 1
def protWrite : Nat := 2
def protRead : Nat := 4

structure Storage where
  tables : Nat → PageTable
  /-- The frame of each page of the window, or 0. -/
  frames : Nat → Nat
  /-- The used part of the pool, the next frame to hand out last. -/
  freeFrames : List Nat
  owners : Nat → Nat
  /-- The live pages of each reservation. -/
  reservations : Nat → Option Nat
  /-- Physical memory. -/
  memory : Nat → UInt8

/-- The storage as it is when the process is prepared, with some frames in the pool. -/
def Storage.cleared (freeFrames : List Nat) (memory : Nat → UInt8) : Storage where
  tables _ := .empty
  frames _ := 0
  freeFrames := freeFrames
  owners _ := 0
  reservations _ := none
  memory := memory

inductive FailureKind where
  | invalidRequest
  | reservationTableFull
  | noContiguousRange
  | pageMappingFailure
  | reservationAccountingFailure
  | physicalMemoryExhausted
  deriving DecidableEq

structure Failure where
  kind : FailureKind
  requestedPages : Nat
  protection : Nat
  freeReservationSlots : Nat
  freePages : Nat
  largestFreeRunPages : Nat
  deriving DecidableEq

def largestFreeRun : List Nat → Nat → Nat → Nat
  | [], _, largest => largest
  | owner :: rest, current, largest =>
    if owner = 0 then largestFreeRun rest (current + 1) (max largest (current + 1))
    else largestFreeRun rest 0 largest

section
variable (window : Window)

def mmapUserFailure (kind : FailureKind) (length protection : Nat) (storage : Option Storage) : Failure where
  kind := kind
  requestedPages := length / pageSize + if length % pageSize ≠ 0 then 1 else 0
  protection := protection
  freeReservationSlots := storage.elim 0 fun storage =>
    (range window.maxReservations).countP (storage.reservations · = none)
  freePages := storage.elim 0 fun storage => (range window.pages).countP (storage.owners · = 0)
  largestFreeRunPages := storage.elim 0 fun storage =>
    largestFreeRun ((range window.pages).map storage.owners) 0 0

def validateMmapRequest (length protection : Nat) : Option Nat :=
  if length = 0 ∨ length % pageSize ≠ 0 ∨ protection > 7 ∨ length > window.pages * pageSize then none
  else some (length / pageSize)

def mmapRange (address length protection : Nat) : Option (Nat × Nat) := do
  let pageCount ← validateMmapRequest window length protection
  if address % pageSize ≠ 0 ∨ address < userMmapBase then
    none
  if address + length ≥ 2 ^ 64 then
    none
  if address + length > window.limit then
    none
  some ((address - userMmapBase) / pageSize, pageCount)

/-- The scan over the pages that are left, with the run of free pages in front of them. -/
def findRun (owners : Nat → Nat) (pageCount : Nat) : Nat → Nat → Nat → Nat → Option Nat
  | 0, _, _, _ => none
  | left + 1, page, runStart, runLength =>
    if owners page = 0 then
      let runStart := if runLength = 0 then page else runStart
      if runLength + 1 = pageCount then some runStart
      else findRun owners pageCount left (page + 1) runStart (runLength + 1)
    else
      findRun owners pageCount left (page + 1) runStart 0

def findMmapStartPage (owners : Nat → Nat) (pageCount : Nat) : Option Nat :=
  if pageCount = 0 ∨ pageCount > window.pages then none
  else findRun owners pageCount window.pages 0 0 0

def fill (owners : Nat → Nat) (startPage pageCount owner : Nat) : Nat → Nat := fun page =>
  if startPage ≤ page ∧ page < startPage + pageCount then owner else owners page

variable (storage : Storage)

def registerMmapReservation (slot startPage pageCount : Nat) : Option Storage :=
  if pageCount = 0 ∨ slot ≥ window.maxReservations ∨ startPage + pageCount > window.pages ∨
      (storage.reservations slot).isSome ∨ (range' startPage pageCount).any (storage.owners · ≠ 0) then
    none
  else
    some { storage with
      owners := fill storage.owners startPage pageCount ((slot + 1) % 256)
      reservations := update storage.reservations slot (some pageCount) }

def reservation (slot : Nat) : Option Nat :=
  if slot < window.maxReservations then storage.reservations slot else none

variable (startPage pageCount : Nat)

def mmapRangeIsOwned : Bool :=
  if pageCount = 0 ∨ startPage + pageCount > window.pages then false
  else
    (range' startPage pageCount).all fun page =>
      storage.owners page ≠ 0 ∧ (reservation window storage (storage.owners page - 1)).any (· ≠ 0)

def findExactMmapFragmentOwner : Option Nat :=
  if pageCount = 0 ∨ startPage + pageCount > window.pages then none
  else
    let owner := storage.owners startPage
    if owner = 0 ∨ (range' startPage pageCount).any (storage.owners · ≠ owner) ∨
        (startPage > 0 ∧ storage.owners (startPage - 1) = owner) ∨
        (startPage + pageCount < window.pages ∧ storage.owners (startPage + pageCount) = owner) then
      none
    else if (reservation window storage (owner - 1)).any (· ≠ 0) then some (owner - 1)
    else none

def countReleased (released : Nat → Nat) (page : Nat) : Option (Nat → Nat) := do
  let owner := storage.owners page
  if owner = 0 then
    none
  let live ← reservation window storage (owner - 1)
  let counted := update released (owner - 1) (released (owner - 1) + 1)
  if counted (owner - 1) > live then
    none
  some counted

/-- The reservations of the slots lose the pages that were counted; false if one of them is missing. -/
def settleReleased (released : Nat → Nat) : List Nat → (Nat → Option Nat) → Bool × (Nat → Option Nat)
  | [], reservations => (true, reservations)
  | slot :: rest, reservations =>
    if released slot = 0 then settleReleased released rest reservations
    else
      match reservations slot with
      | none => (false, reservations)
      | some live =>
        let left := live - released slot
        settleReleased released rest (update reservations slot (if left = 0 then none else some left))

def releaseMmapRangeOwners : Bool × Storage :=
  if pageCount = 0 ∨ startPage + pageCount > window.pages then (false, storage)
  else
    match (range' startPage pageCount).foldlM (countReleased window storage) (fun _ => 0) with
    | none => (false, storage)
    | some released =>
      let settled := settleReleased released (range window.maxReservations) storage.reservations
      (settled.1, { storage with owners := fill storage.owners startPage pageCount 0, reservations := settled.2 })

def mmapPageLocation (page : Nat) : Option (Nat × Nat) :=
  if page / pageTableEntries < window.pageTables then some (page / pageTableEntries, page % pageTableEntries) else none

def mmapPageFlags (protection : Nat) : BitVec 64 :=
  PageTableEntry.user ||| (if protection ≠ 0 then PageTableEntry.present else 0) |||
    (if protection &&& protWrite ≠ 0 then PageTableEntry.writable else 0) |||
    (if protection &&& protExec = 0 then PageTableEntry.noExecute else 0)

def putEntry (table : PageTable) (index : Nat) (raw : BitVec 64) : Option PageTable :=
  if (table.rawEntry index).isSome then table.replace index raw else table.replaceEmpty index raw

def remapPage (protection : Nat) (storage : Storage) (page : Nat) : Option Storage := do
  let physical := storage.frames page
  if physical = 0 then
    none
  let entry ← PageTableEntry.new physical (mmapPageFlags protection)
  let (table, index) ← mmapPageLocation window page
  let mapped ← putEntry (storage.tables table) index entry
  some { storage with tables := update storage.tables table mapped }

/-- The pages are mapped one by one, up to the first that cannot be. -/
def remapMmapPages (protection : Nat) : Nat → Nat → Storage → Bool × Storage
  | _, 0, storage => (true, storage)
  | page, left + 1, storage =>
    match remapPage window protection storage page with
    | none => (false, storage)
    | some mapped => remapMmapPages protection (page + 1) left mapped

def unmapPage (page : Nat) : Storage :=
  match mmapPageLocation window page with
  | some (table, index) =>
    { storage with tables := update storage.tables table ((storage.tables table).unmap index) }
  | none => storage

def unmapMmapPages : Storage :=
  (range' startPage pageCount).foldl (unmapPage window) storage

end

variable (storage : Storage)

def assignFrame (page : Nat) : Storage :=
  let frame := storage.freeFrames.getLastD 0
  { storage with
    freeFrames := storage.freeFrames.dropLast
    frames := update storage.frames page frame
    memory := fun address => if frame ≤ address ∧ address < frame + pageSize then 0 else storage.memory address }

def assignMmapFrames (startPage pageCount : Nat) : Option Storage :=
  if storage.freeFrames.length < pageCount then none
  else some ((range' startPage pageCount).foldl assignFrame storage)

def releaseFrame (page : Nat) : Storage :=
  let frame := storage.frames page
  { storage with
    frames := update storage.frames page 0
    freeFrames := if frame ≠ 0 then storage.freeFrames ++ [frame] else storage.freeFrames }

def releaseMmapFrames (startPage pageCount : Nat) : Storage :=
  (range' startPage pageCount).foldl releaseFrame storage

section
variable (window : Window) (storage : Storage)

def giveBack (startPage pageCount : Nat) : Storage :=
  releaseMmapFrames (unmapMmapPages window storage startPage pageCount) startPage pageCount

/-- The range is mapped, unless the protection forbids all access. -/
def mapRange (protection startPage pageCount : Nat) (storage : Storage) : Bool × Storage :=
  if protection = protNone then (true, storage)
  else remapMmapPages window protection startPage pageCount storage

def mmapUserInStorage (length protection : Nat) : Except Failure Nat × Storage :=
  match validateMmapRequest window length protection with
  | none => (.error (mmapUserFailure window .invalidRequest length protection none), storage)
  | some pageCount =>
    match (range window.maxReservations).find? (storage.reservations · = none) with
    | none => (.error (mmapUserFailure window .reservationTableFull length protection (some storage)), storage)
    | some slot =>
      match findMmapStartPage window storage.owners pageCount with
      | none => (.error (mmapUserFailure window .noContiguousRange length protection (some storage)), storage)
      | some startPage =>
        match assignMmapFrames storage startPage pageCount with
        | none =>
          (.error (mmapUserFailure window .physicalMemoryExhausted length protection (some storage)), storage)
        | some assigned =>
          match mapRange window protection startPage pageCount assigned with
          | (false, mapped) =>
            let after := giveBack window mapped startPage pageCount
            (.error (mmapUserFailure window .pageMappingFailure length protection (some after)), after)
          | (true, mapped) =>
            match registerMmapReservation window mapped slot startPage pageCount with
            | none =>
              let after := giveBack window mapped startPage pageCount
              (.error (mmapUserFailure window .reservationAccountingFailure length protection (some after)), after)
            | some registered => (.ok (userMmapBase + startPage * pageSize), registered)

def protectRange (startPage pageCount protection : Nat) : Bool × Storage :=
  if protection = protNone then (true, unmapMmapPages window storage startPage pageCount)
  else remapMmapPages window protection startPage pageCount storage

def mmapUserAt (address length protection : Nat) : Option Nat × Storage :=
  match mmapRange window address length protection with
  | none => (none, storage)
  | some (startPage, pageCount) =>
    match findExactMmapFragmentOwner window storage startPage pageCount with
    | none => (none, storage)
    | some _ =>
      let (done, after) := protectRange window storage startPage pageCount protection
      (if done then some address else none, after)

def munmapMmapRange (startPage pageCount : Nat) : Bool × Storage :=
  if ¬mmapRangeIsOwned window storage startPage pageCount ∨
      ¬(range' startPage pageCount).all fun page => (mmapPageLocation window page).isSome then
    (false, storage)
  else
    match releaseMmapRangeOwners window storage startPage pageCount with
    | (false, released) => (false, released)
    | (true, released) => (true, giveBack window released startPage pageCount)

def munmapUser (address length : Nat) : Bool × Storage :=
  match mmapRange window address length protRead with
  | none => (false, storage)
  | some (startPage, pageCount) => munmapMmapRange window storage startPage pageCount

def mprotectMmapRange (startPage pageCount protection : Nat) : Bool × Storage :=
  if ¬mmapRangeIsOwned window storage startPage pageCount ∨
      ¬(range' startPage pageCount).all fun page => (mmapPageLocation window page).isSome then
    (false, storage)
  else
    protectRange window storage startPage pageCount protection

def mprotectUser (address length protection : Nat) : Bool × Storage :=
  match mmapRange window address length protection with
  | none => (false, storage)
  | some (startPage, pageCount) => mprotectMmapRange window storage startPage pageCount protection

/-- What happens to the window: the four calls, and in between anything that memory may come to hold. -/
inductive Call where
  | mmapUser (length protection : Nat)
  | mmapUserAt (address length protection : Nat)
  | munmapUser (address length : Nat)
  | mprotectUser (address length protection : Nat)
  | memoryBecomes (memory : Nat → UInt8)

inductive Reply where
  | mapped (address : Except Failure Nat)
  | remapped (address : Option Nat)
  | done (ok : Bool)
  | nothing

def perform : Call → Reply × Storage
  | .mmapUser length protection => (mmapUserInStorage window storage length protection).map .mapped id
  | .mmapUserAt address length protection => (mmapUserAt window storage address length protection).map .remapped id
  | .munmapUser address length => (munmapUser window storage address length).map .done id
  | .mprotectUser address length protection => (mprotectUser window storage address length protection).map .done id
  | .memoryBecomes memory => (.nothing, { storage with memory := memory })

end
end Nagi.Kernel.UserMmap
