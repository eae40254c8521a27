import Nagi.Kernel.Memory
import Nagi.Lib.Bytes
import Nagi.Lib.Words

/-! The parser of user images.

An image is a list of bytes; sizes and offsets are numbers below `2 ^ 64`. The
parser stops with an error, and the model also stops where the source would
panic. -/

namespace Nagi.Kernel

open Lib Words

def userImageBase : Nat := 0x400000000000
def userImageLimit : Nat := userImageBase + 512 * 1024 * 1024

namespace UserElf

def maxLoadSegments : Nat := 16
def elfHeaderSize : Nat := 64
def programHeaderSize : Nat := 56
def ptLoad : Nat := 1
def ptTls : Nat := 7
def pfX : BitVec 32 := 1#32
def pfW : BitVec 32 := 2#32

end UserElf

structure UserLoadSegment where
  fileOffset : Nat
  virtualAddress : Nat
  fileSize : Nat
  memorySize : Nat
  flags : BitVec 32
  deriving DecidableEq

structure UserTlsSegment where
  fileOffset : Nat
  virtualAddress : Nat
  fileSize : Nat
  memorySize : Nat
  alignment : Nat
  deriving DecidableEq

/-- The load segments are the ones in use, `segments[..segment_count]` of the source. -/
structure UserLoadPlan where
  entry : Nat
  segments : List UserLoadSegment
  tls : Option UserTlsSegment
  deriving DecidableEq

inductive UserElfError where
  | truncated
  | badMagic
  | unsupportedClass
  | unsupportedEncoding
  | unsupportedVersion
  | unsupportedType
  | unsupportedMachine
  | invalidProgramHeaders
  | noLoadSegments
  | tooManyLoadSegments
  | duplicateTlsSegment
  | invalidSegment
  | segmentOutOfRange
  | invalidTlsSegment
  | tlsSegmentOutOfRange
  | tlsSegmentTooLarge
  | writableExecutable
  | overlappingSegments
  | entryNotExecutable
  deriving DecidableEq

namespace UserElf

abbrev Parse (α : Type) := Except (Fault UserElfError) α

def reject {α : Type} (reason : UserElfError) : Parse α := .error (.error reason)

def readNumber (width : Nat) (bytes : List UInt8) (offset : Nat) : Parse Nat := do
  let stop ← add 64 offset width
  if stop ≤ bytes.length then .ok (leValue ((bytes.drop offset).take width)) else reject .truncated

def readU16 : List UInt8 → Nat → Parse Nat := readNumber 2

def readU32 : List UInt8 → Nat → Parse Nat := readNumber 4

def readU64 : List UInt8 → Nat → Parse Nat := readNumber 8

variable (bytes : List UInt8)

def byteAt (index : Nat) : Parse UInt8 :=
  match bytes[index]? with
  | some byte => .ok byte
  | none => .error .panicked

/-- The size rounded up to the alignment, a power of two. -/
def alignedSize (memorySize alignment : Nat) : Option Nat := do
  let padded ← checkedAdd 64 memorySize (alignment - 1)
  return (BitVec.ofNat 64 padded &&& ~~~BitVec.ofNat 64 (alignment - 1)).toNat

def validateTlsSegment (tls : UserTlsSegment) : Parse Unit := do
  let alignment := max tls.alignment 1
  if tls.memorySize = 0 ∨ tls.fileSize > tls.memorySize ∨ tls.alignment > pageSize ∨ ¬isPowerOfTwo alignment ∨
      tls.virtualAddress % alignment ≠ tls.fileOffset % alignment then
    reject .invalidTlsSegment
  let memoryEnd ← okOr (checkedAdd 64 tls.virtualAddress tls.memorySize) .tlsSegmentOutOfRange
  if tls.virtualAddress < userImageBase ∨ memoryEnd > userImageLimit then
    reject .tlsSegmentOutOfRange
  let fileEnd ← okOr (checkedAdd 64 tls.fileOffset tls.fileSize) .tlsSegmentOutOfRange
  if fileEnd > bytes.length then
    reject .tlsSegmentOutOfRange
  let aligned ← okOr (alignedSize tls.memorySize alignment) .tlsSegmentTooLarge
  if aligned > pageSize then
    reject .tlsSegmentTooLarge

def covers (tls : UserTlsSegment) (memoryEnd fileEnd : Nat) (load : UserLoadSegment) : Bool :=
  match checkedAdd 64 load.virtualAddress load.memorySize with
  | none => false
  | some loadMemoryEnd =>
    if tls.virtualAddress < load.virtualAddress ∨ memoryEnd > loadMemoryEnd then false
    else if tls.fileSize = 0 then true
    else
      match checkedAdd 64 load.fileOffset load.fileSize with
      | none => false
      | some loadFileEnd =>
        load.fileOffset ≤ tls.fileOffset ∧ fileEnd ≤ loadFileEnd ∧
          tls.virtualAddress - load.virtualAddress = tls.fileOffset - load.fileOffset

variable (plan : UserLoadPlan)

def validateTlsLoadCoverage (tls : UserTlsSegment) : Parse Unit := do
  let memoryEnd ← okOr (checkedAdd 64 tls.virtualAddress tls.memorySize) .tlsSegmentOutOfRange
  let fileEnd ← okOr (checkedAdd 64 tls.fileOffset tls.fileSize) .tlsSegmentOutOfRange
  if ¬plan.segments.any (covers tls memoryEnd fileEnd) then
    reject .tlsSegmentOutOfRange

/-- The ends of the segments that are in the plan were checked when they were added, so this addition is plain. -/
def validateApart (segment : UserLoadSegment) (memoryEnd : Nat) (existing : UserLoadSegment) : Parse Unit := do
  let existingEnd ← add 64 existing.virtualAddress existing.memorySize
  if segment.virtualAddress < existingEnd ∧ existing.virtualAddress < memoryEnd then
    reject .overlappingSegments

def validateSegment (segment : UserLoadSegment) : Parse Unit := do
  if segment.memorySize = 0 ∨ segment.fileSize > segment.memorySize ∨ segment.virtualAddress % pageSize ≠ 0 ∨
      segment.fileOffset % pageSize ≠ 0 then
    reject .invalidSegment
  if segment.flags &&& (pfW ||| pfX) = pfW ||| pfX then
    reject .writableExecutable
  let fileEnd ← okOr (checkedAdd 64 segment.fileOffset segment.fileSize) .invalidSegment
  if fileEnd > bytes.length then
    reject .invalidSegment
  let memoryEnd ← okOr (checkedAdd 64 segment.virtualAddress segment.memorySize) .segmentOutOfRange
  if segment.virtualAddress < userImageBase ∨ memoryEnd > userImageLimit then
    reject .segmentOutOfRange
  plan.segments.forM (validateApart segment memoryEnd)

def countHeader (phOffset : Nat) (counts : Nat × Nat) (index : Nat) : Parse (Nat × Nat) := do
  let offset ← add 64 phOffset (index * programHeaderSize)
  let kind ← readU32 bytes offset
  if kind = ptLoad then
    if counts.1 + 1 > maxLoadSegments then reject .tooManyLoadSegments else .ok (counts.1 + 1, counts.2)
  else if kind = ptTls then
    if counts.2 + 1 > 1 then reject .duplicateTlsSegment else .ok (counts.1, counts.2 + 1)
  else
    .ok counts

def readLoadSegment (offset : Nat) : Parse UserLoadSegment := do
  let flags ← readU32 bytes (offset + 4)
  let fileOffset ← readU64 bytes (offset + 8)
  let virtualAddress ← readU64 bytes (offset + 16)
  let fileSize ← readU64 bytes (offset + 32)
  let memorySize ← readU64 bytes (offset + 40)
  return ⟨fileOffset, virtualAddress, fileSize, memorySize, BitVec.ofNat 32 flags⟩

def readTlsSegment (offset : Nat) : Parse UserTlsSegment := do
  let fileOffset ← readU64 bytes (offset + 8)
  let virtualAddress ← readU64 bytes (offset + 16)
  let fileSize ← readU64 bytes (offset + 32)
  let memorySize ← readU64 bytes (offset + 40)
  let alignment ← readU64 bytes (offset + 48)
  return ⟨fileOffset, virtualAddress, fileSize, memorySize, alignment⟩

def addSegment (segment : UserLoadSegment) : Parse UserLoadPlan :=
  if plan.segments.length < maxLoadSegments then .ok { plan with segments := plan.segments ++ [segment] }
  else .error .panicked

def addHeader (phOffset : Nat) (plan : UserLoadPlan) (index : Nat) : Parse UserLoadPlan := do
  let offset ← add 64 phOffset (index * programHeaderSize)
  let kind ← readU32 bytes offset
  if kind = ptLoad then
    let segment ← readLoadSegment bytes offset
    validateSegment bytes plan segment
    addSegment plan segment
  else if kind = ptTls then
    let tls ← readTlsSegment bytes offset
    -- a header without memory carries no template
    if tls.fileSize = 0 ∧ tls.memorySize = 0 then
      return plan
    validateTlsSegment bytes tls
    return { plan with tls := some tls }
  else
    return plan

def entryIsExecutable : Bool :=
  plan.segments.any fun segment =>
    match checkedAdd 64 segment.virtualAddress segment.fileSize with
    | none => false
    | some fileEnd => segment.flags &&& pfX ≠ 0#32 ∧ segment.virtualAddress ≤ plan.entry ∧ plan.entry < fileEnd

def validateHeader : Parse Unit := do
  if bytes.length < elfHeaderSize then
    reject .truncated
  if bytes.take 4 ≠ [0x7f, 0x45, 0x4c, 0x46] then
    reject .badMagic
  if (← byteAt bytes 4) ≠ 2 then
    reject .unsupportedClass
  if (← byteAt bytes 5) ≠ 1 then
    reject .unsupportedEncoding
  if (← byteAt bytes 6) ≠ 1 then
    reject .unsupportedVersion
  if (← readU32 bytes 20) ≠ 1 then
    reject .unsupportedVersion
  if (← readU16 bytes 16) ≠ 2 then
    reject .unsupportedType
  if (← readU16 bytes 18) ≠ 62 then
    reject .unsupportedMachine
  if (← readU16 bytes 52) ≠ elfHeaderSize then
    reject .invalidProgramHeaders
  if (← readU16 bytes 54) ≠ programHeaderSize then
    reject .invalidProgramHeaders

def programHeaders : Parse (Nat × Nat) := do
  let phOffset ← readU64 bytes 32
  let phCount ← readU16 bytes 56
  let phEnd ← okOr (checkedAdd 64 phOffset (phCount * programHeaderSize)) .invalidProgramHeaders
  if phCount = 0 ∨ phEnd > bytes.length then
    reject .invalidProgramHeaders
  return (phOffset, phCount)

def parse : Parse UserLoadPlan := do
  validateHeader bytes
  let entry ← readU64 bytes 24
  let (phOffset, phCount) ← programHeaders bytes
  let _ ← (List.range phCount).foldlM (countHeader bytes phOffset) (0, 0)
  let plan ← (List.range phCount).foldlM (addHeader bytes phOffset) ⟨entry, [], none⟩
  if plan.segments = [] then
    reject .noLoadSegments
  if ¬entryIsExecutable plan then
    reject .entryNotExecutable
  if let some tls := plan.tls then
    validateTlsLoadCoverage plan tls
  return plan

end UserElf
end Nagi.Kernel
