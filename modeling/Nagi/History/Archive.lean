import Nagi.Lib.Bytes
import Nagi.Lib.Checks
import Nagi.Lib.Text

/-! The two-slot archives of the history service and of the activity ledger.

A write goes to the slot that does not hold the newest archive. Cut off at any point, it leaves the newest archive
where it is. -/

namespace Nagi.History

open Lib Function List

inductive ArchiveSlot where
  | a
  | b
  deriving DecidableEq

namespace ArchiveSlot

def index : ArchiveSlot → UInt8
  | a => 0
  | b => 1

def other : ArchiveSlot → ArchiveSlot
  | a => b
  | b => a

theorem other_ne (slot : ArchiveSlot) : slot.other ≠ slot := by cases slot <;> decide

theorem other_other (slot : ArchiveSlot) : slot.other.other = slot := by cases slot <;> rfl

end ArchiveSlot

inductive ArchiveStore where
  | history
  | activityLedger

/-- The bytes of `NHA1` and of `NLA1`. -/
def ArchiveStore.magic : ArchiveStore → List UInt8
  | history => [0x4e, 0x48, 0x41, 0x31]
  | activityLedger => [0x4e, 0x4c, 0x41, 0x31]

def guestArchiveFileBytes : Nat := 1024
def guestArchiveHeaderBytes : Nat := 36
def maxGuestArchiveBytes : Nat := guestArchiveFileBytes - guestArchiveHeaderBytes
def guestArchiveVersion : Nat := 1
def u64Max : Nat := 0xffffffffffffffff

def checksum (bytes : List UInt8) : UInt64 := Text.fnv1a 0x1000000001b3 bytes

inductive ArchiveError (ρ : Type) where
  | capacity
  | corruptArchive
  | bufferTooSmall
  | restore (error : ρ)

structure SlotInfo where
  generation : Nat
  archiveLength : Nat

abbrev Files := ArchiveSlot → Option (List UInt8)

def slotHeader (store : ArchiveStore) (slot : ArchiveSlot) (generation : Nat) (archive : List UInt8) : List UInt8 :=
  store.magic ++ (leBytes 2 guestArchiveVersion ++ ([slot.index, 0] ++ (leBytes 8 generation ++
    (leBytes 4 archive.length ++ leBytes 8 (checksum archive).toNat))))

def slotBytes (store : ArchiveStore) (slot : ArchiveSlot) (generation : Nat) (archive : List UInt8) : List UInt8 :=
  let header := slotHeader store slot generation archive
  header ++ (leBytes 8 (checksum header).toNat ++ archive)

def readNumber (bytes : List UInt8) (offset width : Nat) : Nat := leValue ((bytes.drop offset).take width)

section

variable {ρ σ : Type} (store : ArchiveStore) (restore : List UInt8 → Except ρ σ)

def encodeSlot (slot : ArchiveSlot) (generation : Nat) (archive : List UInt8) : Except (ArchiveError ρ) (List UInt8) :=
  if generation = 0 ∨ archive.length > maxGuestArchiveBytes then .error .capacity
  else .ok (slotBytes store slot generation archive)

def decodeSlot (slot : ArchiveSlot) (bytes : List UInt8) : Option SlotInfo :=
  if bytes.length < guestArchiveHeaderBytes ∨ bytes.length > guestArchiveFileBytes ∨ bytes.take 4 ≠ store.magic ∨
      readNumber bytes 4 2 ≠ guestArchiveVersion ∨ bytes.getD 6 0 ≠ slot.index ∨ bytes.getD 7 0 ≠ 0 ∨
      readNumber bytes 28 8 ≠ (checksum (bytes.take 28)).toNat then
    none
  else
    let generation := readNumber bytes 8 8
    let archiveLength := readNumber bytes 16 4
    let archiveEnd := guestArchiveHeaderBytes + archiveLength
    let archive := (bytes.drop guestArchiveHeaderBytes).take archiveLength
    if generation = 0 ∨ archiveLength > maxGuestArchiveBytes ∨ archiveEnd ≠ bytes.length ∨
        readNumber bytes 20 8 ≠ (checksum archive).toNat ∨ ¬(restore archive).isOk then
      none
    else some { generation, archiveLength }

variable (files : Files)

def inspectSlot (slot : ArchiveSlot) : Bool × Option SlotInfo :=
  match files slot with
  | none => (false, none)
  | some bytes =>
    (true, if bytes.length > guestArchiveFileBytes then none else decodeSlot store restore slot bytes)

/-- The slot with the newest archive; nothing in an empty store. -/
def selectSlot : Except (ArchiveError ρ) (Option (ArchiveSlot × SlotInfo)) :=
  let (aPresent, a) := inspectSlot store restore files .a
  let (bPresent, b) := inspectSlot store restore files .b
  match a, b with
  | some a, some b => .ok (some (if b.generation > a.generation then (.b, b) else (.a, a)))
  | some a, none => .ok (some (.a, a))
  | none, some b => .ok (some (.b, b))
  | none, none => if aPresent || bPresent then .error .corruptArchive else .ok none

def loadArchive (outputLength : Nat) : Except (ArchiveError ρ) (Option (List UInt8)) := do
  match ← selectSlot store restore files with
  | none => return none
  | some (slot, info) =>
    if outputLength < info.archiveLength then .error .bufferTooSmall
    else match files slot with
      | none => .error .corruptArchive
      | some bytes =>
        if bytes.length > guestArchiveFileBytes then .error .corruptArchive
        else match decodeSlot store restore slot bytes with
          | none => .error .corruptArchive
          | some decoded => return some ((bytes.drop guestArchiveHeaderBytes).take decoded.archiveLength)

/-- A write up to the moment where the slot is written: which slot, and what goes there. -/
def prepareWrite (archive : List UInt8) : Except (ArchiveError ρ) (ArchiveSlot × List UInt8) :=
  if archive.length > maxGuestArchiveBytes then .error .capacity
  else do
    let _ ← (restore archive).mapError .restore
    let (activeSlot, generation) :=
      ((← selectSlot store restore files).map fun (slot, info) => (slot, info.generation)).getD (.b, 0)
    if generation = u64Max then .error .capacity
    else do
      let target := activeSlot.other
      return (target, ← encodeSlot store target (generation + 1) archive)

def writeArchive (archive : List UInt8) : Except (ArchiveError ρ) Unit × Files :=
  match prepareWrite store restore files archive with
  | .error error => (.error error, files)
  | .ok (slot, bytes) => (.ok (), update files slot (some bytes))

/-- The runs of writes, with the archive of the last write whose bytes reached its slot. The first write completes;
a later one may be cut off at its slot. -/
inductive Run : Files → List UInt8 → Prop where
  | first {archive : List UInt8} {files : Files} :
      writeArchive store restore (fun _ => none) archive = (.ok (), files) → Run files archive
  | refused {files : Files} {latest archive : List UInt8} {error : ArchiveError ρ} : Run files latest →
      writeArchive store restore files archive = (.error error, files) → Run files latest
  | completed {files after : Files} {latest archive : List UInt8} : Run files latest →
      writeArchive store restore files archive = (.ok (), after) → Run after archive
  | untouched {files : Files} {latest archive bytes : List UInt8} {slot : ArchiveSlot} : Run files latest →
      prepareWrite store restore files archive = .ok (slot, bytes) → Run files latest
  | unreturned {files : Files} {latest archive bytes : List UInt8} {slot : ArchiveSlot} : Run files latest →
      prepareWrite store restore files archive = .ok (slot, bytes) →
      Run (update files slot (some bytes)) archive
  | torn {files : Files} {latest archive bytes left : List UInt8} {slot : ArchiveSlot} : Run files latest →
      prepareWrite store restore files archive = .ok (slot, bytes) →
      decodeSlot store restore slot left = none → Run (update files slot (some left)) latest

end

section

variable {ρ σ : Type} {store : ArchiveStore} {restore : List UInt8 → Except ρ σ} {slot : ArchiveSlot}
  {generation : Nat} {archive : List UInt8}

theorem readNumber_append {front rest : List UInt8} {offset width value : Nat} (place : front.length = offset)
    (fits : value < 256 ^ width) : readNumber (front ++ (leBytes width value ++ rest)) offset width = value := by
  rw [readNumber, ← place, drop_left, take_left' (length_leBytes width value), leValue_leBytes,
    Nat.mod_eq_of_lt fits]

theorem length_slotHeader : (slotHeader store slot generation archive).length = 28 := by
  cases store <;> simp [slotHeader, ArchiveStore.magic]

theorem drop_slotBytes : (slotBytes store slot generation archive).drop guestArchiveHeaderBytes = archive := by
  rw [slotBytes, ← append_assoc]
  exact drop_left' (by simp [length_slotHeader, guestArchiveHeaderBytes])

theorem length_slotBytes :
    (slotBytes store slot generation archive).length = guestArchiveHeaderBytes + archive.length := by
  simp [slotBytes, length_slotHeader, guestArchiveHeaderBytes]
  omega

structure Acceptable (restore : List UInt8 → Except ρ σ) (archive : List UInt8) : Prop where
  short : archive.length ≤ maxGuestArchiveBytes
  accepted : (restore archive).isOk

theorem readNumber_slotBytes (bounded : generation ≤ u64Max) (short : archive.length ≤ maxGuestArchiveBytes) :
    readNumber (slotBytes store slot generation archive) 4 2 = guestArchiveVersion ∧
      readNumber (slotBytes store slot generation archive) 8 8 = generation ∧
      readNumber (slotBytes store slot generation archive) 16 4 = archive.length ∧
      readNumber (slotBytes store slot generation archive) 20 8 = (checksum archive).toNat ∧
      readNumber (slotBytes store slot generation archive) 28 8 =
        (checksum (slotHeader store slot generation archive)).toNat := by
  simp only [maxGuestArchiveBytes, guestArchiveFileBytes, guestArchiveHeaderBytes, u64Max] at short bounded
  have word (value : UInt64) : value.toNat < 256 ^ 8 := value.toNat_lt
  have magic : store.magic.length = 4 := by cases store <;> rfl
  simp only [slotBytes, slotHeader, append_assoc]
  refine ⟨readNumber_append magic (by decide), ?_, ?_, ?_, ?_⟩
  all_goals rw [← append_assoc, ← append_assoc]
  · exact readNumber_append (by simp [magic]) (by omega)
  all_goals rw [← append_assoc]
  · exact readNumber_append (by simp [magic]) (by omega)
  all_goals rw [← append_assoc]
  · exact readNumber_append (by simp [magic]) (word _)
  all_goals rw [← append_assoc]
  · exact readNumber_append (by simp [magic]) (word _)

theorem decodeSlot_slotBytes (positive : generation ≠ 0) (bounded : generation ≤ u64Max)
    (valid : Acceptable restore archive) :
    decodeSlot store restore slot (slotBytes store slot generation archive) =
      some ⟨generation, archive.length⟩ := by
  obtain ⟨magic, index, zero⟩ : (slotBytes store slot generation archive).take 4 = store.magic ∧
      (slotBytes store slot generation archive).getD 6 0 = slot.index ∧
      (slotBytes store slot generation archive).getD 7 0 = 0 := by
    cases store <;> exact ⟨rfl, rfl, rfl⟩
  obtain ⟨version, generationRead, lengthRead, archiveSum, headerSum⟩ :=
    readNumber_slotBytes bounded valid.short
  have short := valid.short
  have front : (slotBytes store slot generation archive).take 28 = slotHeader store slot generation archive :=
    take_left' length_slotHeader
  unfold decodeSlot
  rw [length_slotBytes, version, headerSum, front, magic, index, zero, generationRead, lengthRead, archiveSum,
    drop_slotBytes]
  dsimp only
  simp only [maxGuestArchiveBytes, guestArchiveFileBytes, guestArchiveHeaderBytes] at short
  rw [if_neg, if_neg]
  · simp [positive, valid.accepted, maxGuestArchiveBytes, guestArchiveFileBytes, guestArchiveHeaderBytes]
    omega
  · simp [guestArchiveFileBytes, guestArchiveHeaderBytes]
    omega

theorem prepareWrite_ok_iff {files : Files} {selected : Option (ArchiveSlot × SlotInfo)} {active : ArchiveSlot}
    {bytes : List UInt8} (select : selectSlot store restore files = .ok selected)
    (found : (selected.map fun pair => (pair.1, pair.2.generation)).getD (.b, 0) = (active, generation)) :
    prepareWrite store restore files archive = .ok (slot, bytes) ↔
      Acceptable restore archive ∧ generation ≠ u64Max ∧ slot = active.other ∧
        bytes = slotBytes store active.other (generation + 1) archive := by
  unfold prepareWrite
  rw [Checks.unless_ok_iff, select]
  cases restored : restore archive with
  | error error =>
    have refused : ¬Acceptable restore archive := fun valid => by
      simpa [restored, Except.isOk, Except.toBool] using valid.accepted
    simp [refused, Except.mapError, bind, Except.bind]
  | ok value =>
    have valid : Acceptable restore archive ↔ archive.length ≤ maxGuestArchiveBytes :=
      ⟨fun valid => valid.short, fun short => ⟨short, by rw [restored]; rfl⟩⟩
    simp only [Except.mapError, Checks.ok_bind, found, Checks.unless_ok_iff, valid, encodeSlot, Nat.not_lt]
    refine and_congr_right fun short => and_congr_right fun _ => ?_
    rw [if_neg (by omega)]
    simp [Checks.ok_bind, pure, Except.pure, eq_comm]

variable {files after : Files} {latest : List UInt8} {active : ArchiveSlot}

/-- The active slot holds the newest archive; the other one holds nothing of use, or something older. -/
structure Newest (store : ArchiveStore) (restore : List UInt8 → Except ρ σ) (files : Files)
    (latest : List UInt8) (active : ArchiveSlot) (generation : Nat) : Prop where
  held : files active = some (slotBytes store active generation latest)
  positive : generation ≠ 0
  bounded : generation ≤ u64Max
  valid : Acceptable restore latest
  older : ∀ info, (inspectSlot store restore files active.other).2 = some info → info.generation < generation

theorem Acceptable.within (valid : Acceptable restore archive) :
    ¬(slotBytes store slot generation archive).length > guestArchiveFileBytes := by
  have short := valid.short
  rw [length_slotBytes]
  simp only [maxGuestArchiveBytes, guestArchiveFileBytes, guestArchiveHeaderBytes] at short ⊢
  omega

namespace Newest

variable (newest : Newest store restore files latest active generation)
include newest

theorem decode_eq : decodeSlot store restore active (slotBytes store active generation latest) =
    some ⟨generation, latest.length⟩ :=
  decodeSlot_slotBytes newest.positive newest.bounded newest.valid

theorem inspect_eq : inspectSlot store restore files active = (true, some ⟨generation, latest.length⟩) := by
  simp only [inspectSlot, newest.held, if_neg newest.valid.within, newest.decode_eq]

theorem select_eq : selectSlot store restore files = .ok (some (active, ⟨generation, latest.length⟩)) := by
  have here := newest.inspect_eq
  have older := newest.older
  unfold selectSlot
  cases active with
  | a =>
    rw [here]
    cases there : inspectSlot store restore files .b with
    | mk present info =>
      cases info with
      | none => rfl
      | some info =>
        have less := older info (by rw [ArchiveSlot.other, there])
        simp only [if_neg (Nat.lt_asymm less)]
  | b =>
    rw [here]
    cases there : inspectSlot store restore files .a with
    | mk present info =>
      cases info with
      | none => rfl
      | some info =>
        have less := older info (by rw [ArchiveSlot.other, there])
        simp only [if_pos less]

theorem load_eq {capacity : Nat} (room : latest.length ≤ capacity) :
    loadArchive store restore files capacity = .ok (some latest) := by
  simp only [loadArchive, newest.select_eq, Checks.ok_bind, newest.held, if_neg (Nat.not_lt.mpr room),
    if_neg newest.valid.within, newest.decode_eq, drop_slotBytes, take_length]
  rfl

variable {bytes : List UInt8}

theorem written (prepared : prepareWrite store restore files archive = .ok (slot, bytes)) :
    Newest store restore (update files slot (some bytes)) archive active.other (generation + 1) := by
  obtain ⟨valid, below, rfl, rfl⟩ := (prepareWrite_ok_iff newest.select_eq rfl).mp prepared
  change generation ≠ u64Max at below
  have bounded := newest.bounded
  refine ⟨update_self .., Nat.succ_ne_zero generation, by omega, valid, fun info found => ?_⟩
  rw [ArchiveSlot.other_other, inspectSlot, update_of_ne active.other_ne.symm, ← inspectSlot,
    newest.inspect_eq] at found
  cases found
  exact Nat.lt_succ_self generation

/-- A write that leaves something in its slot that no reader takes for an archive. -/
theorem torn {archive left : List UInt8}
    (prepared : prepareWrite store restore files archive = .ok (slot, bytes))
    (rejected : decodeSlot store restore slot left = none) :
    Newest store restore (update files slot (some left)) latest active generation := by
  obtain ⟨-, -, rfl, -⟩ := (prepareWrite_ok_iff newest.select_eq rfl).mp prepared
  refine ⟨?_, newest.positive, newest.bounded, newest.valid, fun info found => ?_⟩
  · rw [update_of_ne active.other_ne.symm, newest.held]
  · simp [inspectSlot, update_self, rejected] at found

end Newest

theorem writeArchive_ok_iff {after : Files} :
    writeArchive store restore files archive = (.ok (), after) ↔
      ∃ slot bytes, prepareWrite store restore files archive = .ok (slot, bytes) ∧
        after = update files slot (some bytes) := by
  unfold writeArchive
  cases prepareWrite store restore files archive with
  | error error => simp
  | ok target => simp [Prod.ext_iff, eq_comm]

theorem Newest.first (written : writeArchive store restore (fun _ => none) archive = (.ok (), files)) :
    Newest store restore files archive .a 1 := by
  obtain ⟨slot, bytes, prepared, rfl⟩ := writeArchive_ok_iff.mp written
  obtain ⟨valid, -, rfl, rfl⟩ := (prepareWrite_ok_iff rfl rfl).mp prepared
  exact ⟨rfl, Nat.one_ne_zero, by decide, valid, fun info found => nomatch found⟩

theorem Run.newest (run : Run store restore files latest) :
    ∃ active generation, Newest store restore files latest active generation := by
  induction run with
  | first written => exact ⟨_, _, .first written⟩
  | refused _ _ ih | untouched _ _ ih => exact ih
  | completed _ written ih =>
    obtain ⟨active, generation, newest⟩ := ih
    obtain ⟨slot, bytes, prepared, rfl⟩ := writeArchive_ok_iff.mp written
    exact ⟨_, _, newest.written prepared⟩
  | unreturned _ prepared ih =>
    obtain ⟨active, generation, newest⟩ := ih
    exact ⟨_, _, newest.written prepared⟩
  | torn _ prepared rejected ih =>
    obtain ⟨active, generation, newest⟩ := ih
    exact ⟨_, _, newest.torn prepared rejected⟩

end

/-- However the writes of a run were cut off, the store holds the newest archive that reached its slot, and takes the
next one. -/
theorem archives_survive {ρ σ : Type} (store : ArchiveStore) (restore : List UInt8 → Except ρ σ)
    (files : Files) (latest : List UInt8) (run : Run store restore files latest) :
    (∀ capacity, latest.length ≤ capacity →
      loadArchive store restore files capacity = .ok (some latest)) ∧
    ∀ archive, archive.length ≤ maxGuestArchiveBytes → (restore archive).isOk →
      (∀ slot info, (inspectSlot store restore files slot).2 = some info → info.generation < u64Max) →
      ∃ after, writeArchive store restore files archive = (.ok (), after) ∧
        ∀ capacity, archive.length ≤ capacity →
          loadArchive store restore after capacity = .ok (some archive) := by
  obtain ⟨active, generation, newest⟩ := run.newest
  refine ⟨fun capacity room => newest.load_eq room, fun archive short accepted below => ?_⟩
  have less := below active _ (by rw [newest.inspect_eq])
  have prepared := (prepareWrite_ok_iff newest.select_eq rfl).mpr ⟨⟨short, accepted⟩, Nat.ne_of_lt less, rfl, rfl⟩
  exact ⟨_, writeArchive_ok_iff.mpr ⟨_, _, prepared, rfl⟩, fun capacity room => (newest.written prepared).load_eq room⟩

def acceptAll : List UInt8 → Except Unit Unit := fun _ => .ok ()

theorem second_cut_off : ∃ files, Run .history acceptAll files [1, 2] ∧
    loadArchive .history acceptAll files 2 = .ok (some [1, 2]) := by
  have first : Run .history acceptAll _ [1, 2] := .first rfl
  have second : Run .history acceptAll (update _ .b (some [])) [1, 2] :=
    first.torn (rfl : prepareWrite .history acceptAll _ [3] = .ok (.b, _)) rfl
  exact ⟨_, second, (archives_survive _ _ _ _ second).1 2 (Nat.le_refl 2)⟩

/-- The store gives the archive back, if there is one, and takes every archive that its service accepts. -/
structure Recovers {ρ σ : Type} (store : ArchiveStore) (restore : List UInt8 → Except ρ σ) (files : Files)
    (archive : Option (List UInt8)) : Prop where
  loads : ∀ capacity, (archive.getD []).length ≤ capacity →
    loadArchive store restore files capacity = .ok archive
  writes : ∀ later, later.length ≤ maxGuestArchiveBytes → (restore later).isOk →
    ∃ after, writeArchive store restore files later = (.ok (), after)

section First

variable {ρ σ : Type} {store : ArchiveStore} {restore : List UInt8 → Except ρ σ} {archive bytes : List UInt8}
  {slot : ArchiveSlot}

theorem Recovers.empty : Recovers store restore (fun _ => none) none := by
  refine ⟨fun _ _ => rfl, fun later short accepted => ?_⟩
  have empty : selectSlot store restore (fun _ => none) = .ok none := rfl
  have next := (prepareWrite_ok_iff empty rfl).mpr ⟨⟨short, accepted⟩, (by decide : 0 ≠ u64Max), rfl, rfl⟩
  exact ⟨_, writeArchive_ok_iff.mpr ⟨_, _, next, rfl⟩⟩

theorem Recovers.complete
    (prepared : prepareWrite store restore (fun _ => none) archive = .ok (slot, bytes)) :
    Recovers store restore (update (fun _ => none) slot (some bytes)) (some archive) := by
  have newest := Newest.first (writeArchive_ok_iff.mpr ⟨_, _, prepared, rfl⟩)
  refine ⟨fun _ room => newest.load_eq room, fun later short accepted => ?_⟩
  have next := (prepareWrite_ok_iff newest.select_eq rfl).mpr ⟨⟨short, accepted⟩, (by decide : 1 ≠ u64Max), rfl, rfl⟩
  exact ⟨_, writeArchive_ok_iff.mpr ⟨_, _, next, rfl⟩⟩

/-- A file that is no archive, with no other file beside it, counts as a corrupt archive. -/
theorem selectSlot_rejected {left : List UInt8} (rejected : decodeSlot store restore slot left = none) :
    selectSlot store restore (update (fun _ => none) slot (some left)) = .error .corruptArchive := by
  have here : inspectSlot store restore (update (fun _ => none) slot (some left)) slot = (true, none) := by
    simp [inspectSlot, rejected]
  unfold selectSlot
  cases slot with
  | a | b =>
    rw [here]
    rfl

variable {files : Files} (corrupt : selectSlot store restore files = .error .corruptArchive)
include corrupt

theorem loadArchive_corrupt (capacity : Nat) :
    loadArchive store restore files capacity = .error .corruptArchive := by
  rw [loadArchive, corrupt]
  rfl

theorem writeArchive_corrupt (later : List UInt8) :
    ∃ error, writeArchive store restore files later = (.error error, files) := by
  unfold writeArchive
  cases written : prepareWrite store restore files later with
  | error error => exact ⟨error, rfl⟩
  | ok target =>
    obtain ⟨-, accepted⟩ := Checks.unless_ok_iff.mp written
    obtain ⟨_, -, selected⟩ := Checks.bind_ok_iff.mp accepted
    rw [corrupt] at selected
    cases selected

end First

/-- The very first write, cut off at its slot, has no older archive beside it: the store recovers exactly if the slot is
absent or complete. With anything else in the slot every load reports a corrupt archive and no write is accepted. -/
theorem first_write_recovers_iff {ρ σ : Type} (store : ArchiveStore) (restore : List UInt8 → Except ρ σ)
    (archive bytes : List UInt8) (slot : ArchiveSlot) (left : Option (List UInt8))
    (prepared : prepareWrite store restore (fun _ => none) archive = .ok (slot, bytes))
    (cutOff : left = none ∨ left = some bytes ∨
      ∃ rest, left = some rest ∧ decodeSlot store restore slot rest = none) :
    let files : Files := update (fun _ => none) slot left
    (Recovers store restore files (if left = some bytes then some archive else none) ↔
      left = none ∨ left = some bytes) ∧
      (¬(left = none ∨ left = some bytes) →
        (∀ capacity, loadArchive store restore files capacity = .error .corruptArchive) ∧
        ∀ later, ∃ error, writeArchive store restore files later = (.error error, files)) := by
  intro files
  have whole (kept : left = none ∨ left = some bytes) :
      Recovers store restore files (if left = some bytes then some archive else none) := by
    rcases kept with rfl | rfl
    · rw [show files = fun _ => none from update_eq_self_iff.mpr rfl]
      exact .empty
    · rw [if_pos rfl]
      exact .complete prepared
  have broken (torn : ¬(left = none ∨ left = some bytes)) :
      selectSlot store restore files = .error .corruptArchive := by
    obtain absent | complete | ⟨rest, rfl, rejected⟩ := cutOff
    · exact absurd (.inl absent) torn
    · exact absurd (.inr complete) torn
    · exact selectSlot_rejected rejected
  refine ⟨⟨fun recovers => ?_, whole⟩, fun torn => ?_⟩
  · by_contra torn
    have loaded := recovers.loads _ (Nat.le_refl _)
    rw [loadArchive_corrupt (broken torn)] at loaded
    cases loaded
  · exact ⟨loadArchive_corrupt (broken torn), writeArchive_corrupt (broken torn)⟩

/-- A first write that is complete but has not returned, and one that leaves five bytes. -/
theorem first_write_recovers_complete :
    (∃ bytes, Recovers .history acceptAll (update (fun _ => none) .a (some bytes)) (some [1, 2])) ∧
      ¬Recovers .activityLedger acceptAll (update (fun _ => none) .a (some [1, 2, 3, 4, 5])) none := by
  constructor
  · have recovers := (first_write_recovers_iff .history acceptAll [1, 2] _ .a _ rfl (.inr (.inl rfl))).1.mpr (.inr rfl)
    rw [if_pos rfl] at recovers
    exact ⟨_, recovers⟩
  · intro recovers
    have kept := (first_write_recovers_iff .activityLedger acceptAll [1, 2] _ .a (some [1, 2, 3, 4, 5]) rfl
      (.inr (.inr ⟨_, rfl, rfl⟩))).1.mp recovers
    revert kept
    decide

def emptyFirstSlot : Files := update (fun _ => none) .a (some [])

/-- In both stores an empty file left by the first write can be neither read nor replaced. -/
theorem empty_first_slot_refused :
    let refused (store : ArchiveStore) : Prop :=
      (∃ bytes, prepareWrite store acceptAll (fun _ => none) [1, 2] = .ok (.a, bytes)) ∧
        decodeSlot store acceptAll .a [] = none ∧
        (∀ capacity, loadArchive store acceptAll emptyFirstSlot capacity = .error .corruptArchive) ∧
        ∀ archive, ∃ error, writeArchive store acceptAll emptyFirstSlot archive = (.error error, emptyFirstSlot)
    refused .history ∧ refused .activityLedger := by
  intro refused
  have each (store : ArchiveStore) : refused store := by
    have rejected : decodeSlot store acceptAll .a [] = none := rfl
    have corrupt : selectSlot store acceptAll emptyFirstSlot = .error .corruptArchive := selectSlot_rejected rejected
    exact ⟨⟨_, rfl⟩, rejected, loadArchive_corrupt corrupt, writeArchive_corrupt corrupt⟩
  exact ⟨each .history, each .activityLedger⟩

end Nagi.History
