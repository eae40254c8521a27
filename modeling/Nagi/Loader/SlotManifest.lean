import Mathlib.Algebra.GroupWithZero.Nat
import Nagi.Lib.Text

/-! The signed manifest of a system slot. The signature scheme is a parameter. -/

namespace Nagi.Loader

open Lib.Text

def signatureBytes : Nat := 64
def maxManifestText : Nat := 512
def maxSlotManifestBytes : Nat := maxManifestText + signatureBytes
def maxVersionBytes : Nat := 32

def signatureDomain : List UInt8 := asciiBytes "nagi-slot-manifest-v1" ++ [0]

def header : List UInt8 := asciiBytes "nagi-slot-manifest 1"

inductive ManifestError where
  | invalidLength
  | signature
  | malformed
  deriving DecidableEq

structure PayloadDigest where
  size : Nat
  sha256 : List UInt8
  deriving DecidableEq

structure SlotManifest where
  version : List UInt8
  rollbackIndex : Nat
  kernel : PayloadDigest
  init : PayloadDigest
  deriving DecidableEq

def permitsTrial (confirmed candidate : SlotManifest) : Bool := candidate.rollbackIndex ≥ confirmed.rollbackIndex

def isAsciiDigit (byte : UInt8) : Bool := 0x30 ≤ byte ∧ byte ≤ 0x39

def isAsciiAlphanumeric (byte : UInt8) : Bool :=
  isAsciiDigit byte ∨ (0x41 ≤ byte ∧ byte ≤ 0x5a) ∨ (0x61 ≤ byte ∧ byte ≤ 0x7a)

/-- Letters, digits, and the three marks `.`, `-` and `+`. -/
def validVersion (version : List UInt8) : Bool :=
  version ≠ [] ∧ version.length ≤ maxVersionBytes ∧
    version.all fun byte => isAsciiAlphanumeric byte ∨ byte ∈ [0x2e, 0x2d, 0x2b]

/-- A decimal of 64 bits, without leading zeros. -/
def parseDecimal (digits : List UInt8) : Option Nat :=
  if digits = [] ∨ digits.length > 20 ∨ (digits.length > 1 ∧ digits.head? = some 0x30) then none
  else
    digits.foldlM (fun value digit =>
      if isAsciiDigit digit then
        let next := value * 10 + (digit - 0x30).toNat
        if next < 2 ^ 64 then some next else none
      else none) 0

def nibble (digit : UInt8) : Option UInt8 :=
  if 0x30 ≤ digit ∧ digit ≤ 0x39 then some (digit - 0x30)
  else if 0x61 ≤ digit ∧ digit ≤ 0x66 then some (digit - 0x61 + 10)
  else none

def parsePairs : List UInt8 → Option (List UInt8)
  | high :: low :: rest => do
    let high ← nibble high
    let low ← nibble low
    return (high <<< 4 ||| low) :: (← parsePairs rest)
  | _ => some []

def parseDigest (digits : List UInt8) : Option (List UInt8) :=
  if digits.length ≠ 64 then none else parsePairs digits

def manifestField (key : String) (line : Option (List UInt8)) : Option (List UInt8) := do
  let line ← line
  let name := asciiBytes key ++ [0x3d]
  if line.take name.length = name then some (line.drop name.length) else none

namespace SlotManifest

def new (version : List UInt8) (rollbackIndex : Nat) (kernel init : PayloadDigest) : Option SlotManifest :=
  if validVersion version then some ⟨version, rollbackIndex, kernel, init⟩ else none

def parseText (text : List UInt8) : Option SlotManifest := do
  if text.getLast? ≠ some 0x0a then
    none
  let lines := text.dropLast.splitOn 0x0a
  if lines[0]? ≠ some header then
    none
  let version ← manifestField "version" lines[1]?
  let rollbackIndex ← (manifestField "rollback-index" lines[2]?).bind parseDecimal
  let kernelSha256 ← (manifestField "kernel-sha256" lines[3]?).bind parseDigest
  let kernelSize ← (manifestField "kernel-size" lines[4]?).bind parseDecimal
  let initSha256 ← (manifestField "init-sha256" lines[5]?).bind parseDigest
  let initSize ← (manifestField "init-size" lines[6]?).bind parseDecimal
  if lines[7]?.isSome ∨ kernelSize = 0 ∨ initSize = 0 then
    none
  new version rollbackIndex ⟨kernelSize, kernelSha256⟩ ⟨initSize, initSha256⟩

/-- The text is looked at only when its signature is good. -/
def verify (verifyStrict : List UInt8 → List UInt8 → Bool) (file : List UInt8) : Except ManifestError SlotManifest := do
  if file.length ≤ signatureBytes ∨ file.length > maxSlotManifestBytes then
    throw .invalidLength
  let text := file.take (file.length - signatureBytes)
  let signature := file.drop (file.length - signatureBytes)
  if ¬verifyStrict (signatureDomain ++ text) signature then
    throw .signature
  match parseText text with
  | some manifest => return manifest
  | none => throw .malformed

end SlotManifest
end Nagi.Loader
