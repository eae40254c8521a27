import Mathlib.Data.Nat.Count
import Nagi.Kernel.UserProcess.LoadPlan

/-! The plans that the parser makes, in front of the kernel's own check.

The parser and the check were written independently. They agree on every image,
except that the parser does not compare the rights of segments that overlap in
the file. -/

namespace Nagi.Kernel.UserElf

open Lib Checks Words Nat
open UserProcess (Sound Apart Alike validatePlan validateTlsPlan)
open Fault (Reported)

variable {bytes : List UInt8} {plan : UserLoadPlan}

theorem readNumber_meets {width offset : Nat} (fits : offset + width < 2 ^ 64) :
    Meets Reported (fun value => readNumber width bytes offset = .ok value) (readNumber width bytes offset) := by
  refine ⟨fun fault failed => ?_, fun _ done => done⟩
  rw [readNumber, add_bind fits] at failed
  split at failed
  · cases failed
  · cases failed
    exact ⟨_, rfl⟩

theorem validateHeader_meets : Meets Reported (fun _ => True) (validateHeader bytes) := by
  refine .ite ⟨_, rfl⟩ fun long => ?_
  have byte {index : Nat} (inside : index < elfHeaderSize) : Meets Reported (fun _ => True) (byteAt bytes index) := by
    rw [byteAt, List.getElem?_eq_getElem (by omega)]
    exact .ok trivial
  -- every read is inside the header, and every test reports its error or goes on
  repeat' first
    | exact .ok trivial
    | refine .ite ⟨_, rfl⟩ fun _ => ?_
    | refine (byte (by decide)).bind fun _ _ => ?_
    | refine (readNumber_meets (by decide)).bind fun _ _ => ?_

theorem programHeaders_meets : Meets Reported
    (fun place => place.1 + place.2 * programHeaderSize < 2 ^ 64) (programHeaders bytes) := by
  refine (readNumber_meets (by decide)).bind fun _ _ => (readNumber_meets (by decide)).bind fun _ _ => ?_
  refine (meets_okOr _ _).bind fun _ added => .ite ⟨_, rfl⟩ fun _ => .ok ?_
  exact (checkedAdd_eq_some_iff.mp added).1

theorem validateTlsSegment_meets (tls : UserTlsSegment) :
    Meets Reported (fun _ => True) (validateTlsSegment bytes tls) := by
  repeat' first
    | exact .ok trivial
    | refine .ite ⟨_, rfl⟩ fun _ => ?_
    | refine (meets_okOr _ _).bind fun _ _ => ?_

theorem validateTlsLoadCoverage_meets (tls : UserTlsSegment) :
    Meets Reported (fun _ => True) (validateTlsLoadCoverage plan tls) := by
  refine (meets_okOr _ _).bind fun _ _ => (meets_okOr _ _).bind fun _ _ => ?_
  exact .ite ⟨_, rfl⟩ fun _ => .ok trivial

theorem validateSegment_meets (known : ∀ existing ∈ plan.segments, Sound bytes existing) (segment : UserLoadSegment) :
    Meets Reported (fun _ => Sound bytes segment ∧ ∀ existing ∈ plan.segments, Apart existing segment)
      (validateSegment bytes plan segment) := by
  refine .ite ⟨_, rfl⟩ fun shape => .ite ⟨_, rfl⟩ fun exclusive => ?_
  refine (meets_okOr _ _).bind fun fileEnd filed => .ite ⟨_, rfl⟩ fun inFile => ?_
  refine (meets_okOr _ _).bind fun memoryEnd added => .ite ⟨_, rfl⟩ fun window => ?_
  obtain ⟨_, rfl⟩ := checkedAdd_eq_some_iff.mp added
  obtain ⟨fits, rfl⟩ := checkedAdd_eq_some_iff.mp filed
  push Not at shape window
  refine (Meets.forM (Q := fun existing => Apart existing segment) plan.segments fun existing member => ?_).mono
    fun _ apart => ⟨⟨pos_of_ne_zero shape.1, shape.2.1, window.1, shape.2.2.1, shape.2.2.2, exclusive, window.2,
      not_lt.mp inFile, fits⟩, apart⟩
  -- the end of an earlier segment was checked when it was added
  refine (meets_add (known existing member).fitsMemory).bind fun existingEnd same => .ite ⟨_, rfl⟩ fun free => .ok ?_
  unfold Apart
  omega

structure Checked (bytes : List UInt8) (plan : UserLoadPlan) : Prop where
  sound : ∀ segment ∈ plan.segments, Sound bytes segment
  apart : plan.segments.Pairwise Apart
  tls : ∀ tls ∈ plan.tls, validateTlsSegment bytes tls = .ok ()

section Passes
variable {phOffset phCount index : Nat}

abbrev IsLoad (bytes : List UInt8) (phOffset index : Nat) : Prop :=
  readU32 bytes (phOffset + index * programHeaderSize) = .ok ptLoad

variable (fits : phOffset + phCount * programHeaderSize < 2 ^ 64) (inside : index < phCount)
include fits inside

theorem header_meets {σ : Type} {Post : σ → Prop} {body : Nat → Nat → Parse σ}
    (rest : ∀ kind, (IsLoad bytes phOffset index ↔ kind = ptLoad) →
      Meets Reported Post (body (phOffset + index * programHeaderSize) kind)) :
    Meets Reported Post (add 64 phOffset (index * programHeaderSize) >>= fun offset =>
      readU32 bytes offset >>= body offset) := by
  have bound : phOffset + index * programHeaderSize + programHeaderSize < 2 ^ 64 := by
    unfold programHeaderSize at *
    omega
  refine (meets_add (lt_of_le_of_lt (le_add_right _ _) bound)).bind fun offset same => ?_
  subst same
  refine (readNumber_meets (Nat.lt_of_le_of_lt (Nat.add_le_add_left (by decide) _) bound)).bind fun kind read => ?_
  refine rest kind ?_
  rw [IsLoad, readU32, read, Except.ok.injEq]

theorem countHeader_meets {counts : Nat × Nat} (counted : counts.1 = count (IsLoad bytes phOffset) index)
    (few : counts.1 ≤ maxLoadSegments) :
    Meets Reported
      (fun counts => counts.1 = count (IsLoad bytes phOffset) (index + 1) ∧ counts.1 ≤ maxLoadSegments)
      (countHeader bytes phOffset counts index) := by
  refine header_meets fits inside fun kind isLoad => ?_
  have counted' := count_succ (IsLoad bytes phOffset) index
  rw [← counted] at counted'
  split
  · next load =>
    rw [if_pos (isLoad.mpr load)] at counted'
    exact .ite ⟨_, rfl⟩ fun room => .ok ⟨counted'.symm, not_lt.mp room⟩
  · next other =>
    rw [if_neg (mt isLoad.mp other)] at counted'
    split
    · exact .ite ⟨_, rfl⟩ fun _ => .ok ⟨counted'.symm, few⟩
    · exact .ok ⟨counted'.symm, few⟩

theorem addHeader_meets (few : count (IsLoad bytes phOffset) phCount ≤ maxLoadSegments)
    (checked : Checked bytes plan) (counted : plan.segments.length = count (IsLoad bytes phOffset) index) :
    Meets Reported
      (fun plan => Checked bytes plan ∧ plan.segments.length = count (IsLoad bytes phOffset) (index + 1))
      (addHeader bytes phOffset plan index) := by
  refine header_meets fits inside fun kind isLoad => ?_
  have number {width place : Nat} (within : place + width ≤ programHeaderSize) := @readNumber_meets bytes width
    (phOffset + index * programHeaderSize + place) (by unfold programHeaderSize at *; omega)
  have counted' := count_succ (IsLoad bytes phOffset) index
  rw [← counted] at counted'
  split
  · next load =>
    rw [if_pos (isLoad.mpr load)] at counted'
    -- the first pass has seen this header too
    have room : plan.segments.length < maxLoadSegments := by
      have most : count (IsLoad bytes phOffset) (index + 1) ≤ _ := count_monotone _ inside
      omega
    refine Meets.bind (show Meets _ (fun _ => True) _ from ?_) fun segment _ => ?_
    · repeat' first | exact .ok trivial | refine (number (by decide)).bind fun _ _ => ?_
    refine (validateSegment_meets checked.sound segment).bind fun _ valid => ?_
    rw [addSegment, if_pos room]
    refine .ok ⟨⟨?_, ?_, checked.tls⟩, by simp [counted']⟩
    · simpa [or_imp, forall_and] using ⟨checked.sound, valid.1⟩
    · simpa [List.pairwise_append] using ⟨checked.apart, valid.2⟩
  · next other =>
    rw [if_neg (mt isLoad.mp other)] at counted'
    split
    · refine Meets.bind (show Meets _ (fun _ => True) _ from ?_) fun tls _ => ?_
      · repeat' first | exact .ok trivial | refine (number (by decide)).bind fun _ _ => ?_
      split
      · exact .ok ⟨checked, counted'.symm⟩
      refine (validateTlsSegment_meets tls).self.bind fun _ valid =>
        .ok ⟨⟨checked.sound, checked.apart, ?_⟩, counted'.symm⟩
      rintro _ ⟨⟩
      exact valid
    · exact .ok ⟨checked, counted'.symm⟩

end Passes

structure Accepted (bytes : List UInt8) (plan : UserLoadPlan) : Prop extends Checked bytes plan where
  nonempty : plan.segments ≠ []
  few : plan.segments.length ≤ maxLoadSegments
  executable : entryIsExecutable plan = true
  covered : ∀ tls ∈ plan.tls, validateTlsLoadCoverage plan tls = .ok ()

theorem parse_meets (bytes : List UInt8) : Meets Reported (Accepted bytes) (parse bytes) := by
  refine validateHeader_meets.bind fun _ _ => (readNumber_meets (by decide)).bind fun entry _ => ?_
  refine programHeaders_meets.bind fun place fits => ?_
  obtain ⟨phOffset, phCount⟩ := place
  refine (Meets.foldlM_range (P := fun index counts => counts.1 = count (IsLoad bytes phOffset) index ∧
    counts.1 ≤ maxLoadSegments) ⟨by simp, by simp⟩ phCount fun index inside counts counted =>
      countHeader_meets fits inside counted.1 counted.2).bind fun counts counted => ?_
  refine (Meets.foldlM_range (P := fun index plan => Checked bytes plan ∧
    plan.segments.length = count (IsLoad bytes phOffset) index) ⟨⟨by simp, by simp, by simp⟩, by simp⟩ phCount
      fun index inside plan checked =>
        addHeader_meets fits inside (counted.1 ▸ counted.2) checked.1 checked.2).bind fun plan checked => ?_
  refine .ite ⟨_, rfl⟩ fun nonempty => .ite ⟨_, rfl⟩ fun executable => ?_
  have few : plan.segments.length ≤ maxLoadSegments := checked.2 ▸ counted.1 ▸ counted.2
  have accepted (covered) : Accepted bytes plan := ⟨checked.1, nonempty, few, not_not.mp executable, covered⟩
  split
  · next tls held =>
    refine (validateTlsLoadCoverage_meets tls).self.bind fun _ covered => .ok (accepted fun other named => ?_)
    cases held.symm.trans named
    exact covered
  · next absent => exact .ok (accepted fun tls named => absurd named (absent tls))

theorem le_alignedSize {memorySize alignment size : Nat} (aligned : alignedSize memorySize alignment = some size) :
    memorySize ≤ size := by
  obtain ⟨padded, padding, same⟩ := Option.bind_eq_some_iff.mp aligned
  obtain ⟨fits, rfl⟩ := checkedAdd_eq_some_iff.mp padding
  cases same
  generalize wide : BitVec.ofNat 64 (memorySize + (alignment - 1)) = value
  generalize mask : BitVec.ofNat 64 (alignment - 1) = low
  -- what the mask takes away is not more than the mask
  have split := toNat_and_not_add value low
  have taken : (value &&& low).toNat ≤ low.toNat := and_le_right
  bv_omega

/-- The template is in the memory of the segment, and its bytes in the file are where the segment has them. -/
def Holds (load : UserLoadSegment) (tls : UserTlsSegment) : Prop :=
  load.virtualAddress ≤ tls.virtualAddress ∧
    tls.virtualAddress + tls.memorySize ≤ load.virtualAddress + load.memorySize ∧
    (tls.fileSize ≠ 0 → load.fileOffset ≤ tls.fileOffset ∧
      tls.fileOffset + tls.fileSize ≤ load.fileOffset + load.fileSize ∧
      tls.virtualAddress - load.virtualAddress = tls.fileOffset - load.fileOffset)

theorem Accepted.template {tls : UserTlsSegment} (accepted : Accepted bytes plan) (held : plan.tls = some tls) :
    validateTlsPlan plan bytes = .ok () ∧ tls.memorySize ≤ pageSize ∧
      ∃ load ∈ plan.segments, Holds load tls := by
  have valid := accepted.tls tls held
  have covered := accepted.covered tls held
  simp only [validateTlsSegment, validateTlsLoadCoverage, reject, bind_ok_iff, unless_bind_ok_iff, unless_ok_iff,
    okOr_ok_iff, checkedAdd_eq_some_iff, not_not] at valid covered
  obtain ⟨shape, _, ⟨fits, rfl⟩, window, _, ⟨filed, rfl⟩, inFile, size, aligned, small, _⟩ := valid
  obtain ⟨_, ⟨_, rfl⟩, _, ⟨_, rfl⟩, covered, _⟩ := covered
  refine ⟨?_, le_trans (le_alignedSize aligned) (not_lt.mp small), ?_⟩
  · simp only [validateTlsPlan, held, UserProcess.reject, bind_ok_iff, unless_bind_ok_iff, unless_ok_iff,
      okOr_ok_iff, checkedAdd_eq_some_iff, not_not]
    refine ⟨fun bad => shape (bad.imp_right (.imp_right (.imp_left fun wide => ?_))), size, aligned, small, _,
      ⟨fits, rfl⟩, window, _, ⟨filed, rfl⟩, inFile, covered, rfl⟩
    exact (lt_max_iff.mp wide).resolve_right (by decide)
  · obtain ⟨load, member, covers⟩ := List.any_eq_true.mp covered
    unfold Holds
    unfold UserElf.covers checkedAdd at covers
    grind

theorem Accepted.valid (accepted : Accepted bytes plan) (alike : plan.segments.Pairwise Alike) :
    validatePlan plan bytes = .ok () := by
  refine UserProcess.validatePlan_ok_iff.mpr ⟨⟨mt List.length_eq_zero_iff.mp accepted.nonempty, accepted.few⟩,
    ⟨accepted.sound, accepted.apart, alike⟩, accepted.executable, ?_⟩
  cases held : plan.tls with
  | none => rw [validateTlsPlan, held]
  | some tls => exact (accepted.template held).1

def Occupies (segment : UserLoadSegment) (page : Nat) : Prop :=
  segment.virtualAddress < (page + 1) * pageSize ∧ page * pageSize < segment.virtualAddress + segment.memorySize

/-- The parser never panics. A plan that it returns passes the kernel's check unless segments with different rights
overlap in the file. -/
theorem parsed_plans_valid (bytes : List UInt8) :
    (∀ fault, parse bytes = .error fault → ∃ reason, fault = .error reason) ∧ ∀ plan, parse bytes = .ok plan →
      (validatePlan plan bytes = .ok () ↔ plan.segments.Pairwise Alike) ∧
      (∀ segment ∈ plan.segments, Sound bytes segment) ∧
      (plan.segments.Pairwise fun first second => ∀ page, ¬(Occupies first page ∧ Occupies second page)) ∧
      (∃ segment ∈ plan.segments, segment.flags &&& pfX ≠ 0#32 ∧ segment.virtualAddress ≤ plan.entry ∧
        plan.entry < segment.virtualAddress + segment.fileSize) ∧
      ∀ tls ∈ plan.tls, tls.memorySize ≤ pageSize ∧ ∃ load ∈ plan.segments, Holds load tls := by
  have meets := parse_meets bytes
  refine ⟨meets.failed, fun plan parsed => ?_⟩
  have accepted := meets.passed plan parsed
  refine ⟨⟨UserProcess.validatePlan_alike, accepted.valid⟩, accepted.sound, ?_, ?_,
    fun tls held => (accepted.template held).2⟩
  · refine accepted.apart.imp_of_mem fun member member' apart page both => ?_
    have aligned : _ % 4096 = 0 := (accepted.sound _ member).aligned
    have aligned' : _ % 4096 = 0 := (accepted.sound _ member').aligned
    unfold Occupies pageSize at both
    unfold Apart at apart
    omega
  · obtain ⟨segment, member, executable⟩ := List.any_eq_true.mp accepted.executable
    unfold checkedAdd at executable
    grind

/-- The second segment has no whole page in the file but begins inside the first, and the template
has no bytes there. -/
def looseImage : List UInt8 :=
  [0x7f, 0x45, 0x4c, 0x46, 2, 1, 1] ++ List.flatMap (fun (width, value) => leBytes width value)
    [(9, 0), (2, 2), (2, 62), (4, 1), (8, userImageBase), (8, 64), (8, 0), (4, 0), (2, 64), (2, 56), (2, 3), (6, 0),
      (4, ptLoad), (4, 5), (8, 0), (8, userImageBase), (8, 0), (8, 8192), (8, 8192), (8, 4096),
      (4, ptLoad), (4, 6), (8, 4096), (8, userImageBase + 8192), (8, 0), (8, 8), (8, 8), (8, 4096),
      (4, ptTls), (4, 4), (8, 8), (8, userImageBase), (8, 0), (8, 0), (8, 8), (8, 8), (7960, 0)]

/-- The check refuses what the parser made of it though no whole page is shared, and the template's offset matches
neither segment. -/
theorem loose_image_parsed :
    ∃ first second tls, parse looseImage = .ok ⟨userImageBase, [first, second], some tls⟩ ∧
      validatePlan ⟨userImageBase, [first, second], some tls⟩ looseImage ≠ .ok () ∧
      second.fileSize < pageSize ∧ ∀ load ∈ [first, second], load.virtualAddress ≤ tls.virtualAddress →
        tls.virtualAddress - load.virtualAddress ≠ tls.fileOffset - load.fileOffset := by
  refine ⟨⟨0, userImageBase, 8192, 8192, 5#32⟩, ⟨4096, userImageBase + 8192, 8, 8, 6#32⟩,
    ⟨8, userImageBase, 0, 8, 8⟩, ?_⟩
  decide +kernel

end Nagi.Kernel.UserElf
