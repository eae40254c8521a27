import Nagi.Kernel.PageTable
import Nagi.Kernel.UserElf

/-! The kernel's own check of a load plan, and the mapping of single pages. -/

namespace Nagi.Kernel

open Lib UserElf Checks Words

inductive UserProcessError where
  | imageTooLarge
  | imageNotMapped
  | invalidElf (error : UserElfError)
  | invalidLoadPlan
  | imageOutOfBounds
  | kernelUserSlotOccupied
  | invalidPhysicalAddress
  | physicalMemoryExhausted
  deriving DecidableEq

def userStackBase : Nat := userImageLimit
def userStackPages : Nat := pageTableEntries
def userStackLimit : Nat := userStackBase + userStackPages * pageSize
def userPml4Index : Nat := 128
def userPdptIndex : Nat := userImageBase / 2 ^ 30 % 512

def userPdIndex (address : Nat) : Nat := address / 2 ^ 21 % 512

def userImageFirstPdIndex : Nat := userPdIndex userImageBase

namespace UserProcess

abbrev Prepare (α : Type) := Except (Fault UserProcessError) α

def reject {α : Type} (reason : UserProcessError) : Prepare α := .error (.error reason)

def validateApart (segment : UserLoadSegment) (memoryEnd : Nat) (existing : UserLoadSegment) : Prepare Unit := do
  let existingEnd ← okOr (checkedAdd 64 existing.virtualAddress existing.memorySize) .invalidLoadPlan
  if segment.virtualAddress < existingEnd ∧ existing.virtualAddress < memoryEnd then
    reject .invalidLoadPlan
  let segmentDirectEnd ←
    okOr (checkedAdd 64 segment.fileOffset (segment.fileSize / pageSize * pageSize)) .imageOutOfBounds
  let existingDirectEnd ←
    okOr (checkedAdd 64 existing.fileOffset (existing.fileSize / pageSize * pageSize)) .imageOutOfBounds
  let directFilePagesOverlap :=
    segment.fileOffset < existingDirectEnd ∧ existing.fileOffset < segmentDirectEnd
  let aliasedPermissionsDiffer := (segment.flags ^^^ existing.flags) &&& (pfW ||| pfX) ≠ 0#32
  if directFilePagesOverlap ∧ aliasedPermissionsDiffer then
    reject .invalidLoadPlan

def validateSegment (image : List UInt8) (earlier : List UserLoadSegment) (segment : UserLoadSegment) :
    Prepare Unit := do
  if segment.memorySize = 0 ∨ segment.fileSize > segment.memorySize ∨ segment.virtualAddress < userImageBase ∨
      segment.virtualAddress % pageSize ≠ 0 ∨ segment.fileOffset % pageSize ≠ 0 ∨
      segment.flags &&& (pfW ||| pfX) = pfW ||| pfX then
    reject .invalidLoadPlan
  let memoryEnd ← okOr (checkedAdd 64 segment.virtualAddress segment.memorySize) .imageTooLarge
  if memoryEnd > userImageLimit then
    reject .imageTooLarge
  earlier.forM (validateApart segment memoryEnd)
  let fileEnd ← okOr (checkedAdd 64 segment.fileOffset segment.fileSize) .imageOutOfBounds
  if fileEnd > image.length then
    reject .imageOutOfBounds

def validateSegments (image : List UInt8) : List UserLoadSegment → List UserLoadSegment → Prepare Unit
  | _, [] => .ok ()
  | earlier, segment :: rest => do
    validateSegment image earlier segment
    validateSegments image (earlier ++ [segment]) rest

def validateTlsPlan (plan : UserLoadPlan) (image : List UInt8) : Prepare Unit :=
  match plan.tls with
  | none => .ok ()
  | some tls => do
    let alignment := max tls.alignment 1
    if tls.memorySize = 0 ∨ tls.fileSize > tls.memorySize ∨ alignment > pageSize ∨ ¬isPowerOfTwo alignment ∨
        tls.virtualAddress % alignment ≠ tls.fileOffset % alignment then
      reject .invalidLoadPlan
    let aligned ← okOr (alignedSize tls.memorySize alignment) .invalidLoadPlan
    if aligned > pageSize then
      reject .invalidLoadPlan
    let memoryEnd ← okOr (checkedAdd 64 tls.virtualAddress tls.memorySize) .invalidLoadPlan
    if tls.virtualAddress < userImageBase ∨ memoryEnd > userImageLimit then
      reject .invalidLoadPlan
    let fileEnd ← okOr (checkedAdd 64 tls.fileOffset tls.fileSize) .imageOutOfBounds
    if fileEnd > image.length then
      reject .imageOutOfBounds
    if ¬plan.segments.any (covers tls memoryEnd fileEnd) then
      reject .invalidLoadPlan

def validatePlan (plan : UserLoadPlan) (image : List UInt8) : Prepare Unit := do
  if plan.segments.length = 0 ∨ plan.segments.length > maxLoadSegments then
    reject .invalidLoadPlan
  validateSegments image [] plan.segments
  if ¬entryIsExecutable plan then
    reject .invalidLoadPlan
  validateTlsPlan plan image

def alignedAddress (address : Nat) : Prepare Nat :=
  if address % pageSize = 0 ∧ address < 2 ^ 52 then .ok address else reject .invalidPhysicalAddress

def mapLeaf (table : PageTable) (index physicalAddress : Nat) (flags : BitVec 64) : Prepare PageTable := do
  let entry ← okOr (PageTableEntry.new physicalAddress flags) .invalidPhysicalAddress
  okOr (table.replaceEmpty index entry) .invalidLoadPlan

structure Sound (image : List UInt8) (segment : UserLoadSegment) : Prop where
  nonempty : 0 < segment.memorySize
  filed : segment.fileSize ≤ segment.memorySize
  above : userImageBase ≤ segment.virtualAddress
  aligned : segment.virtualAddress % pageSize = 0
  fileAligned : segment.fileOffset % pageSize = 0
  exclusive : ¬segment.flags &&& (pfW ||| pfX) = pfW ||| pfX
  below : segment.virtualAddress + segment.memorySize ≤ userImageLimit
  inFile : segment.fileOffset + segment.fileSize ≤ image.length
  fits : segment.fileOffset + segment.fileSize < 2 ^ 64

def Apart (first second : UserLoadSegment) : Prop :=
  first.virtualAddress + first.memorySize ≤ second.virtualAddress ∨
    second.virtualAddress + second.memorySize ≤ first.virtualAddress

/-- The pages of the file that two segments map as they are overlap. A segment without one counts where it begins. -/
def SharesPages (first second : UserLoadSegment) : Prop :=
  second.fileOffset < first.fileOffset + first.fileSize / pageSize * pageSize ∧
    first.fileOffset < second.fileOffset + second.fileSize / pageSize * pageSize

/-- Segments that share pages of the file have the same rights. -/
def Alike (first second : UserLoadSegment) : Prop :=
  SharesPages first second → (second.flags ^^^ first.flags) &&& (pfW ||| pfX) = 0#32

variable {segment : UserLoadSegment}

theorem Sound.fitsMemory {image : List UInt8} (sound : Sound image segment) :
    segment.virtualAddress + segment.memorySize < 2 ^ 64 :=
  Nat.lt_of_le_of_lt sound.below (by decide)

variable {image : List UInt8} {earlier : List UserLoadSegment}

theorem validateApart_ok_iff {existing : UserLoadSegment} (known : Sound image existing) (sound : Sound image segment) :
    validateApart segment (segment.virtualAddress + segment.memorySize) existing = .ok () ↔
      Apart existing segment ∧ Alike existing segment := by
  have direct {segment : UserLoadSegment} (sound : Sound image segment) :
      segment.fileOffset + segment.fileSize / pageSize * pageSize < 2 ^ 64 :=
    Nat.lt_of_le_of_lt (Nat.add_le_add_left (Nat.div_mul_le_self _ _) _) sound.fits
  simp only [validateApart, reject, bind_ok_iff, unless_bind_ok_iff, unless_ok_iff,
    okOr_ok_iff, checkedAdd_eq_some_iff]
  constructor
  · rintro ⟨_, ⟨_, rfl⟩, apart, _, ⟨_, rfl⟩, _, ⟨_, rfl⟩, alike, _⟩
    exact ⟨by unfold Apart; omega, fun shared => by_contra fun differ => alike ⟨shared, differ⟩⟩
  · rintro ⟨apart, alike⟩
    exact ⟨_, ⟨known.fitsMemory, rfl⟩, by unfold Apart at apart; omega, _, ⟨direct sound, rfl⟩, _, ⟨direct known, rfl⟩,
      fun both => both.2 (alike both.1), rfl⟩

section
variable (known : ∀ existing ∈ earlier, Sound image existing)
include known

theorem validateSegment_ok_iff : validateSegment image earlier segment = .ok () ↔
    Sound image segment ∧ ∀ existing ∈ earlier, Apart existing segment ∧ Alike existing segment := by
  have others (sound : Sound image segment) := (forM_ok_iff earlier).trans
    (forall₂_congr fun existing member => validateApart_ok_iff (known existing member) sound)
  simp only [validateSegment, reject, bind_ok_iff, unless_bind_ok_iff, unless_ok_iff,
    okOr_ok_iff, checkedAdd_eq_some_iff]
  constructor
  · rintro ⟨shape, _, ⟨_, rfl⟩, below, _, apart, _, ⟨fits, rfl⟩, inFile, _⟩
    push Not at shape below inFile
    obtain ⟨nonempty, filed, above, aligned, fileAligned, exclusive⟩ := shape
    have sound : Sound image segment :=
      ⟨Nat.pos_of_ne_zero nonempty, filed, above, aligned, fileAligned, exclusive, below, inFile, fits⟩
    exact ⟨sound, (others sound).mp apart⟩
  · rintro ⟨sound, apart⟩
    refine ⟨?_, _, ⟨sound.fitsMemory, rfl⟩, Nat.not_lt.mpr sound.below, (), (others sound).mpr apart, _,
      ⟨sound.fits, rfl⟩, Nat.not_lt.mpr sound.inFile, rfl⟩
    push Not
    exact ⟨sound.nonempty.ne', sound.filed, sound.above, sound.aligned, sound.fileAligned, sound.exclusive⟩

theorem validateSegments_ok_iff {rest : List UserLoadSegment} : validateSegments image earlier rest = .ok () ↔
    (∀ segment ∈ rest, Sound image segment) ∧
      (∀ first ∈ earlier, ∀ second ∈ rest, Apart first second ∧ Alike first second) ∧
      rest.Pairwise fun first second => Apart first second ∧ Alike first second := by
  induction rest generalizing earlier with
  | nil => simp [validateSegments]
  | cons segment rest ih =>
    -- the later segments are compared with this one too, which is sound if it was accepted
    simp only [validateSegments, bind_ok_iff, validateSegment_ok_iff known]
    grind [List.pairwise_cons]

end

variable {plan : UserLoadPlan}

theorem validatePlan_ok_iff : validatePlan plan image = .ok () ↔
    (plan.segments.length ≠ 0 ∧ plan.segments.length ≤ maxLoadSegments) ∧
      ((∀ segment ∈ plan.segments, Sound image segment) ∧ plan.segments.Pairwise Apart ∧ plan.segments.Pairwise Alike) ∧
      entryIsExecutable plan ∧ validateTlsPlan plan image = .ok () := by
  simp only [validatePlan, reject, bind_ok_iff, unless_bind_ok_iff,
    validateSegments_ok_iff (List.forall_mem_nil _), List.pairwise_and_iff]
  simp

theorem validatePlan_sound (accepted : validatePlan plan image = .ok ()) :
    (∀ segment ∈ plan.segments, Sound image segment) ∧ plan.segments.Pairwise Apart :=
  (validatePlan_ok_iff.mp accepted).2.1.imp_right And.left

theorem validatePlan_alike (accepted : validatePlan plan image = .ok ()) : plan.segments.Pairwise Alike :=
  (validatePlan_ok_iff.mp accepted).2.1.2.2

theorem mapLeaf_ok {table : PageTable} {index physicalAddress : Nat} {flags : BitVec 64}
    (inside : index < pageTableEntries)
    (free : table.entries index = 0) (aligned : physicalAddress % pageSize = 0) (bounded : physicalAddress < 2 ^ 52)
    (marked : flags ≠ 0) :
    mapLeaf table index physicalAddress flags = .ok (table.set index (BitVec.ofNat 64 physicalAddress ||| flags)) := by
  have made : PageTableEntry.new physicalAddress flags = some (BitVec.ofNat 64 physicalAddress ||| flags) := by
    simpa [PageTableEntry.new, aligned] using bounded
  have placed : table.replaceEmpty index (BitVec.ofNat 64 physicalAddress ||| flags) =
      some (table.set index (BitVec.ofNat 64 physicalAddress ||| flags)) := by
    simpa [PageTable.replaceEmpty, inside, free] using fun _ => marked
  unfold mapLeaf
  rw [made]
  change okOr _ _ = _
  rw [placed]
  rfl

end UserProcess
end Nagi.Kernel
