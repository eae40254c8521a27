import Nagi.BootInfo.Handoff
import Nagi.BootInfo.Records
import Nagi.Loader.Recovery
import Nagi.Loader.SlotManifest

/-! One boot: what the loader makes of the journal and of the two one-shot variables.

The loader deletes both variables when it has read them. As they may hold anything
at the next boot, also an old record once more, a boot takes them as inputs. -/

namespace Nagi.Loader

open Nagi.BootInfo Lib

inductive BootImageSelection where
  | default
  | systemA
  | systemB
  | recovery
  deriving DecidableEq

namespace BootImageSelection

def systemSlot : BootImageSelection → Option SystemSlot
  | systemA => some .a
  | systemB => some .b
  | default | recovery => none

def ofSlot : SystemSlot → BootImageSelection
  | .a => systemA
  | .b => systemB

end BootImageSelection

structure FirmwareVariable where
  value : List UInt8
  attributes : BitVec 32

/-- Non-volatile, and accessible to boot services and at run time. -/
def requiredAttributes : BitVec 32 := 0x7#32

/-- The value of a variable that fits the buffer and has exactly the required attributes. -/
def getVariable (capacity : Nat) (found : FirmwareVariable) : Option (List UInt8) :=
  if found.value.length ≤ capacity ∧ found.attributes = requiredAttributes then some found.value else none

/-- What a boot finds, apart from the records of the journal. -/
structure BootInput where
  /-- False if a journal variable is too long or lacks an attribute. -/
  journalReadable : Bool
  ready : Option FirmwareVariable
  stage : Option FirmwareVariable
  /-- The keys that the boot menu reads, one for each time it asks. -/
  keys : List (Option Char)
  /-- The manifest file on the volume of a slot, or why it cannot be read. -/
  slotFile : SystemSlot → Except String (List UInt8)
  /-- The signature check against the pinned key. -/
  verifyStrict : List UInt8 → List UInt8 → Bool
  /-- The system table, and in it the address of `SetVariable` if there are runtime services. -/
  systemTable : Option (Option Nat)

abbrev Boot := EStateM String Store

/-- A call on the journal, whose failures are all reported with one text. The firmware stores what it is given. -/
def onJournal {α : Type} (input : BootInput) (failure : String) (call : Journal α) : Boot α := fun store =>
  if input.journalReadable then
    match settle call { store with interruption := none, writes := [] } with
    | (.ok value, after) => .ok value after
    | (.error _, after) => .error failure after
  else
    .error failure store

variable (input : BootInput)

def readSlotManifest (slot : SystemSlot) : Except String SlotManifest := do
  let file ← input.slotFile slot
  (SlotManifest.verify input.verifyStrict file).mapError fun error =>
    match error with
    | .invalidLength => "size"
    | .signature => "signature"
    | .malformed => "malformed"

def readyRecord : Option BootReadyRecord :=
  (input.ready.bind (getVariable bootReadyRecordSize)).bind BootReadyRecord.decode

def stageRecord : Option BootStageRecord :=
  (input.stage.bind (getVariable bootStageRecordSize)).bind BootStageRecord.decode

/-- The record reports the trial that the state is in. -/
def matchingPending (record : BootReadyRecord) (state : BootControlState) : Bool :=
  (match state.pending with
    | some slot => record.slot = slot.code
    | none => false) && record.attempt = state.attempts && record.journalGeneration = state.generation

def slotOfCode (code : UInt8) : SystemSlot := if code = 0 then .a else .b

variable (state : BootControlState)

def consumeReady : Boot BootControlState :=
  match readyRecord input with
  | some record =>
    if matchingPending record state then do
      onJournal input "Nagi Loader: M27 readiness promotion failed" (markBootSuccess (slotOfCode record.slot))
      onJournal input "Nagi Loader: M27 promoted journal read failed" load
    else
      return state
  | none => return state

def acceptStageRequest (record : Option BootStageRecord) (state : BootControlState) : Except String SystemSlot := do
  let some record := record | throw "record"
  let slot := slotOfCode record.slot
  if state.pending.isSome ∨ record.journalGeneration ≠ state.generation ∨ slot = state.confirmed then
    throw "stale"
  let other := match slot with
    | .a => SystemSlot.b
    | .b => SystemSlot.a
  let candidate ← readSlotManifest input slot
  let confirmed ← (readSlotManifest input other).mapError fun _ => "confirmed-manifest"
  if ¬permitsTrial confirmed candidate then
    throw "rollback"
  return slot

def consumeStage : Boot BootControlState :=
  match input.stage with
  | none => return state
  | some _ =>
    match acceptStageRequest input (stageRecord input) state with
    | .error _ => return state
    | .ok slot => do
      onJournal input "Nagi Loader: M27 update staging failed" (stageUpdate slot)
      onJournal input "Nagi Loader: M27 staged journal read failed" load

def menuKey (key : Option Char) : Option BootImageSelection :=
  let available (slot : SystemSlot) : Option BootImageSelection :=
    if slot = state.confirmed ∨ state.pending = some slot then some (.ofSlot slot) else none
  match key.map Char.toUpper with
  | some 'A' => available .a
  | some 'B' => available .b
  | some 'R' => some .recovery
  | _ => none

/-- The menu asks thirty times and then leaves the choice to the journal. -/
def bootMenu : BootImageSelection :=
  ((input.keys.take 30).findSome? (menuKey state)).getD .default

def runtimeSetVariableAddress : Boot Nat :=
  match input.systemTable with
  | none => throw "Nagi Loader: M27 runtime table unavailable"
  | some none => throw "Nagi Loader: M27 runtime services unavailable"
  | some (some address) => return address

/-- What the kernel is told about a boot that the journal decided on. -/
def bootContext (decision : BootDecision) : Boot BootControlInfo := do
  if decision.trialAttempt = 0 then
    let state ← onJournal input "Nagi Loader: M27 confirmed context read failed" load
    if state.pending.isNone then
      let address ← runtimeSetVariableAddress input
      return { setVariableAddress := address
               journalGeneration := state.generation.toNat
               slot := state.confirmed.code.toNat
               flags := bootControlUpdateStageable }
    else
      return {}
  else
    let state ← onJournal input "Nagi Loader: M27 trial context read failed" load
    if state.pending ≠ some decision.slot ∨ state.attempts ≠ decision.trialAttempt then
      throw "Nagi Loader: M27 trial context mismatch"
    let address ← runtimeSetVariableAddress input
    return { setVariableAddress := address
             journalGeneration := state.generation.toNat
             slot := decision.slot.code.toNat
             attempt := decision.trialAttempt.toNat }

def decideBoot : Boot (BootImageSelection × BootControlInfo) := do
  let selection := bootMenu input state
  if selection = .recovery then
    return (.recovery, {})
  if selection.systemSlot = some state.confirmed then
    return (selection, {})
  let decision ← onJournal input "Nagi Loader: M27 boot-control decision failed" beginBoot
  if ¬decision.rolledBack ∧ decision.trialAttempt = 0 then
    let _ ← onJournal input "Nagi Loader: M27 confirmed journal read failed" load
  let context ← bootContext input decision
  return (.ofSlot decision.slot, context)

def m27BootControlDecision : Boot (BootImageSelection × BootControlInfo) := do
  let state ← onJournal input "Nagi Loader: M27 boot-control journal read failed" load
  let promoted ← consumeReady input state
  let staged ← consumeStage input promoted
  decideBoot input staged

def boot (store : Store) (input : BootInput) : Except String (BootImageSelection × BootControlInfo) × Store :=
  settle (m27BootControlDecision input) store

end Nagi.Loader
