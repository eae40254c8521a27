import Mathlib.Data.Nat.Notation

/-! What the loader hands to the kernel: the boot information and its checks.

The firmware's memory map is a buffer of descriptors, `entrySize` bytes apart. -/

namespace Nagi.BootInfo

def bootInfoMagic : Nat := 0x4E414749424F4F54
def bootInfoVersion : Nat := 5
def bootInfoSize : Nat := 136
def memoryMapEntrySize : Nat := 40
def bootControlUpdateStageable : Nat := 1

structure MemoryMapInfo where
  address : Nat
  entryCount : Nat
  entrySize : Nat

structure MemoryMapEntry where
  memoryType : Nat
  physicalStart : Nat
  pageCount : Nat

structure FramebufferInfo where
  address : Nat
  byteSize : Nat
  width : Nat
  height : Nat
  pixelsPerScanline : Nat

structure BootControlInfo where
  setVariableAddress : Nat := 0
  journalGeneration : Nat := 0
  slot : Nat := 0
  attempt : Nat := 0
  flags : Nat := 0
  reserved : List Nat := [0, 0, 0, 0, 0]
  deriving DecidableEq

namespace BootControlInfo

variable (info : BootControlInfo)

def isEmpty : Bool :=
  info.setVariableAddress = 0 ∧ info.journalGeneration = 0 ∧ info.slot = 0 ∧ info.attempt = 0 ∧ info.flags = 0 ∧
    info.reserved = [0, 0, 0, 0, 0]

def isTrial : Bool :=
  info.setVariableAddress ≠ 0 ∧ info.journalGeneration ≠ 0 ∧ info.slot ≤ 1 ∧ 1 ≤ info.attempt ∧ info.attempt ≤ 3 ∧
    info.flags = 0 ∧ info.reserved = [0, 0, 0, 0, 0]

def isUpdateStageable : Bool :=
  info.setVariableAddress ≠ 0 ∧ info.slot ≤ 1 ∧ info.attempt = 0 ∧ info.flags = bootControlUpdateStageable ∧
    info.reserved = [0, 0, 0, 0, 0]

def isValid : Bool := info.isEmpty || info.isTrial || info.isUpdateStageable

end BootControlInfo

structure Info where
  magic : Nat
  version : Nat
  size : Nat
  memoryMap : MemoryMapInfo
  framebuffer : FramebufferInfo
  acpiRsdp : Nat
  bootControl : BootControlInfo

inductive BootInfoError where
  | badMagic
  | unsupportedVersion
  | badSize
  | missingMemoryMap
  | badMemoryMapStride
  | missingFramebuffer
  | missingAcpi
  | invalidBootControl
  deriving DecidableEq

def Info.validate (info : Info) : Except BootInfoError Unit := do
  if info.magic ≠ bootInfoMagic then
    throw .badMagic
  if info.version ≠ bootInfoVersion then
    throw .unsupportedVersion
  if info.size ≠ bootInfoSize then
    throw .badSize
  if info.memoryMap.address = 0 ∨ info.memoryMap.entryCount = 0 then
    throw .missingMemoryMap
  if info.memoryMap.entrySize < memoryMapEntrySize ∨ info.memoryMap.entrySize % 8 ≠ 0 then
    throw .badMemoryMapStride
  let screen := info.framebuffer
  if screen.address = 0 ∨ screen.byteSize = 0 ∨ screen.width = 0 ∨ screen.height = 0 ∨
      screen.pixelsPerScanline < screen.width then
    throw .missingFramebuffer
  if info.acpiRsdp = 0 then
    throw .missingAcpi
  if ¬info.bootControl.isValid then
    throw .invalidBootControl

end Nagi.BootInfo
