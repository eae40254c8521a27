import Nagi.Wayback.History
import Nagi.Wayback.Restore

/-! What an executable plan says about the snapshots it restores.

A snapshot that two entries share is checked for the newer entry only. The plan is
right for every entry exactly if such snapshots also fit the older one. -/

namespace Nagi.Wayback

open Lib Checks Planning List

/-- The snapshot and its ancestors, each with its manifest. -/
inductive Lineage (snapshots : SnapshotStore) : SnapshotId → SnapshotId → SnapshotManifest → Prop where
  | self {id : SnapshotId} {manifest : SnapshotManifest} (found : snapshots id = .ok (some manifest)) :
      Lineage snapshots id id manifest
  | parent {id parent ancestor : SnapshotId} {manifest older : SnapshotManifest}
      (found : snapshots id = .ok (some manifest)) (next : manifest.parentSnapshot = some parent)
      (rest : Lineage snapshots parent ancestor older) : Lineage snapshots id ancestor older

/-- What an entry expects of the snapshots that undo it. -/
structure Fits (entry : ActivityEntry) (manifest : SnapshotManifest) : Prop where
  scope : manifest.scope = scopeForEntry entry
  before : manifest.sourceLedgerBoundary.sequence < entry.integrity.sequence

def Compatible (compatibility : Option String) (manifest : SnapshotManifest) : Prop :=
  ∀ version, compatibility = some version → manifest.compatibilityVersion = version

variable {entry : ActivityEntry} {compatibility : Option String} {manifest : SnapshotManifest}

theorem checkManifest_ok {snapshotId : SnapshotId}
    (passed : checkManifest snapshotId (entryExpectation entry compatibility) manifest = .ok ()) :
    Fits entry manifest ∧ Compatible compatibility manifest := by
  obtain ⟨_, _, passed⟩ := bind_ok_iff.mp passed
  obtain ⟨_, scope, passed⟩ := bind_ok_iff.mp passed
  obtain ⟨_, compatible, boundary⟩ := bind_ok_iff.mp passed
  refine ⟨⟨not_not.mp (unless_ok_iff.mp scope).1, Nat.lt_of_not_ge (unless_ok_iff.mp boundary).1⟩, ?_⟩
  intro version given
  subst given
  exact not_not.mp (unless_ok_iff.mp compatible).1

def Closed (snapshots : SnapshotStore) (resolved : Finset SnapshotId) : Prop :=
  ∀ id ∈ resolved, ∃ manifest, snapshots id = .ok (some manifest) ∧
    ∀ parent, manifest.parentSnapshot = some parent → parent ∈ resolved

variable {snapshots : SnapshotStore} {ancestor id : SnapshotId}

theorem Lineage.resolved {resolved : Finset SnapshotId} (closed : Closed snapshots resolved)
    (lineage : Lineage snapshots id ancestor manifest) (member : id ∈ resolved) : ancestor ∈ resolved := by
  induction lineage with
  | self _ => exact member
  | parent found next _ ih =>
    obtain ⟨known, same, parents⟩ := closed _ member
    rw [found] at same
    cases same
    exact ih (parents _ next)

theorem Lineage.found (lineage : Lineage snapshots id ancestor manifest) :
    snapshots ancestor = .ok (some manifest) := by
  induction lineage with
  | self found => exact found
  | parent _ _ _ ih => exact ih

theorem Lineage.unique {other : SnapshotId} {known : SnapshotManifest}
    (lineage : Lineage snapshots id ancestor manifest) (again : Lineage snapshots other ancestor known) :
    manifest = known := by
  have found := lineage.found
  rw [again.found] at found
  cases found
  rfl

/-- What resolving a snapshot without a blocker has added. -/
structure Resolves (snapshots : SnapshotStore) (entry : ActivityEntry) (compatibility : Option String)
    (id : SnapshotId) (before after : Finset SnapshotId) : Prop where
  kept : before ⊆ after
  reached : id ∈ after
  closed : Closed snapshots after
  fresh : ∀ ancestor ∈ after, ancestor ∉ before → ∃ manifest, Lineage snapshots id ancestor manifest ∧
    Fits entry manifest ∧ Compatible compatibility manifest

theorem resolved_restoreSnapshot (state : Resolution) (id : SnapshotId) (scope : ScopeReference) :
    (state.restoreSnapshot id scope).resolved = state.resolved := by
  unfold Resolution.restoreSnapshot Resolution.addStep
  split <;> rfl

variable {expectation : SnapshotExpectation}

theorem visitSnapshot_ok {resolve : SnapshotId → Resolution → Option (Except PlanBlocker Unit × Resolution)}
    {state after : Resolution}
    (visited : visitSnapshot snapshots expectation resolve id state = some (.ok (), after)) :
    ∃ manifest middle, snapshots id = .ok (some manifest) ∧ checkManifest id expectation manifest = .ok () ∧
      after.resolved = middle.resolved ∧
      (manifest.parentSnapshot = none ∧ middle = state ∨
        ∃ parent, manifest.parentSnapshot = some parent ∧ resolve parent state = some (.ok (), middle)) := by
  revert visited
  fun_cases visitSnapshot snapshots expectation resolve id state with
  | case6 manifest found passed visit middle parent =>
    rintro ⟨⟩
    refine ⟨manifest, middle, found, passed, resolved_restoreSnapshot _ _ _, ?_⟩
    unfold visit at parent
    split at parent
    · next older next => exact .inr ⟨older, next, parent⟩
    · next root =>
      cases parent
      exact .inl ⟨root, rfl⟩
  | _ => simp

variable {before : Finset SnapshotId}

theorem Resolves.insert {middle : Finset SnapshotId} (found : snapshots id = .ok (some manifest))
    (fits : Fits entry manifest ∧ Compatible compatibility manifest) (kept : before ⊆ middle)
    (closed : Closed snapshots middle) (parents : ∀ parent, manifest.parentSnapshot = some parent → parent ∈ middle)
    (fresh : ∀ ancestor ∈ middle, ancestor ∉ before →
      ∃ older, Lineage snapshots id ancestor older ∧ Fits entry older ∧ Compatible compatibility older) :
    Resolves snapshots entry compatibility id before (insert id middle) where
  kept := kept.trans (Finset.subset_insert _ _)
  reached := Finset.mem_insert_self _ _
  closed := by
    intro other member
    rcases Finset.mem_insert.mp member with rfl | earlier
    · exact ⟨manifest, found, fun parent next => Finset.mem_insert_of_mem (parents parent next)⟩
    · obtain ⟨known, same, older⟩ := closed other earlier
      exact ⟨known, same, fun parent next => Finset.mem_insert_of_mem (older parent next)⟩
  fresh := by
    intro ancestor member new
    rcases Finset.mem_insert.mp member with rfl | earlier
    · exact ⟨manifest, .self found, fits⟩
    · exact fresh ancestor earlier new

variable {fuel : Nat}

theorem resolveSnapshotInner_ok {state after : Resolution}
    (done : resolveSnapshotInner snapshots (entryExpectation entry compatibility) fuel id state = some (.ok (), after))
    (closed : Closed snapshots state.resolved) :
    Resolves snapshots entry compatibility id state.resolved after.resolved := by
  induction fuel generalizing id state after with
  | zero => cases done
  | succ fuel ih =>
    unfold resolveSnapshotInner at done
    split at done
    · next known =>
      cases done
      exact ⟨subset_rfl, known, closed, fun _ member fresh => absurd member fresh⟩
    split at done
    · cases done
    obtain ⟨⟨result, left⟩, visited, same⟩ := Option.map_eq_some_iff.mp done
    cases same
    obtain ⟨manifest, middle, found, passed, resolved, parent⟩ := visitSnapshot_ok visited
    change Resolves snapshots entry compatibility id state.resolved (insert id left.resolved)
    rw [resolved]
    rcases parent with ⟨root, rfl⟩ | ⟨older, next, resolves⟩
    · refine .insert found (checkManifest_ok passed) subset_rfl closed ?_ fun _ member new => absurd member new
      rw [root]
      exact nofun
    · obtain ⟨kept, reached, closed', fresh⟩ := ih resolves closed
      refine .insert found (checkManifest_ok passed) kept closed' ?_ ?_
      · rw [next]
        rintro _ ⟨⟩
        exact reached
      · intro ancestor member new
        obtain ⟨known, lineage, fits⟩ := fresh ancestor member new
        exact ⟨known, .parent found next lineage, fits⟩

def requiredSnapshot (entry : ActivityEntry) : Option SnapshotId :=
  match entry.reversibility with
  | .snapshotRequired requested => namedSnapshot entry requested
  | _ => none

def Covered (snapshots : SnapshotStore) (compatibility : Option String) (newer : List ActivityEntry)
    (entry : ActivityEntry) : Prop :=
  ∀ id, requiredSnapshot entry = some id → ∀ ancestor manifest, Lineage snapshots id ancestor manifest →
    Compatible compatibility manifest ∧
      (Fits entry manifest ∨ ∃ other ∈ newer, ∃ shared, requiredSnapshot other = some shared ∧
        Lineage snapshots shared ancestor manifest)

structure Planned (snapshots : SnapshotStore) (compatibility : Option String) (done : List ActivityEntry)
    (resolved : Finset SnapshotId) : Prop where
  closed : Closed snapshots resolved
  origin : ∀ ancestor ∈ resolved, ∃ entry ∈ done, ∃ id manifest, requiredSnapshot entry = some id ∧
    Lineage snapshots id ancestor manifest ∧ Compatible compatibility manifest
  covered : ∀ newer entry older, done = newer ++ entry :: older → Covered snapshots compatibility newer entry

theorem Planning.blockers_block (state : Planning) (blocker : PlanBlocker) : (state.block blocker).blockers ≠ [] := by
  simp [Planning.block]

variable {state after : Planning}

theorem resolveSnapshot_clear
    (planned : state.resolveSnapshot snapshots fuel id expectation = some after) (clear : after.blockers = []) :
    state.blockers = [] ∧
      resolveSnapshotInner snapshots expectation fuel id state.resolution = some (.ok (), after.resolution) := by
  obtain ⟨⟨result, left⟩, resolves, same⟩ := Option.map_eq_some_iff.mp planned
  cases result with
  | ok _ =>
    cases same
    exact ⟨clear, resolves⟩
  | error blocker =>
    cases same
    exact absurd clear (blockers_block _ _)

/-- An entry that is planned without a blocker needs no snapshot or resolves the one it names. -/
theorem planEntry_clear (planned : planEntry snapshots fuel compatibility state entry = some after)
    (clear : after.blockers = []) : state.blockers = [] ∧
      (requiredSnapshot entry = none ∧ after.resolution.resolved = state.resolution.resolved ∨
        ∃ id, requiredSnapshot entry = some id ∧
          resolveSnapshotInner snapshots (entryExpectation entry compatibility) fuel id state.resolution =
            some (.ok (), after.resolution)) := by
  unfold planEntry at planned
  unfold requiredSnapshot
  cases reversibility : entry.reversibility with
  | exactReversible | compensationRequired contractId =>
    simp only [reversibility] at planned
    cases planned
    exact ⟨clear, .inl ⟨rfl, rfl⟩⟩
  | snapshotRequired requested =>
    simp only [reversibility] at planned
    cases named : namedSnapshot entry requested with
    | none =>
      simp only [named] at planned
      cases planned
      exact absurd clear (blockers_block _ _)
    | some id =>
      simp only [named] at planned
      obtain ⟨before, resolves⟩ := resolveSnapshot_clear planned clear
      exact ⟨before, .inr ⟨id, named, resolves⟩⟩
  | irreversible reason | unknown reason =>
    simp only [reversibility] at planned
    cases planned
    exact absurd clear (blockers_block _ _)

variable {done : List ActivityEntry}

theorem Planned.concat {after : Finset SnapshotId} (planned : Planned snapshots compatibility done before)
    (closed : Closed snapshots after)
    (origin : ∀ ancestor ∈ after, ancestor ∉ before →
      ∃ id manifest, requiredSnapshot entry = some id ∧
        Lineage snapshots id ancestor manifest ∧ Compatible compatibility manifest)
    (covered : Covered snapshots compatibility done entry) :
    Planned snapshots compatibility (done ++ [entry]) after where
  closed := closed
  origin := by
    intro ancestor member
    by_cases earlier : ancestor ∈ before
    · obtain ⟨other, among, known⟩ := planned.origin ancestor earlier
      exact ⟨other, mem_append_left _ among, known⟩
    · exact ⟨entry, mem_append_right _ mem_cons_self, origin ancestor member earlier⟩
  covered := by
    intro newer other older split
    rcases eq_nil_or_concat older with rfl | ⟨middle, last, rfl⟩
    · obtain ⟨rfl, same⟩ := append_inj' split rfl
      cases same
      exact covered
    · rw [concat_eq_append, ← cons_append, ← append_assoc] at split
      obtain ⟨rfl, _⟩ := append_inj' split rfl
      exact planned.covered newer other middle rfl

theorem Planned.step (known : Planned snapshots compatibility done state.resolution.resolved)
    (planned : planEntry snapshots fuel compatibility state entry = some after) (clear : after.blockers = []) :
    Planned snapshots compatibility (done ++ [entry]) after.resolution.resolved := by
  obtain ⟨_, ⟨none, same⟩ | ⟨id, required, resolves⟩⟩ := planEntry_clear planned clear
  · rw [same]
    refine known.concat known.closed (fun _ member new => absurd member new) ?_
    intro id required
    rw [none] at required
    cases required
  · obtain ⟨kept, reached, closed, fresh⟩ := resolveSnapshotInner_ok resolves known.closed
    refine known.concat closed ?_ ?_
    · intro ancestor member new
      obtain ⟨manifest, lineage, _, compatible⟩ := fresh ancestor member new
      exact ⟨id, manifest, required, lineage, compatible⟩
    intro named required' ancestor manifest lineage
    rw [required] at required'
    cases required'
    have member := lineage.resolved closed reached
    by_cases earlier : ancestor ∈ state.resolution.resolved
    · obtain ⟨other, among, shared, manifest', required', lineage', compatible⟩ := known.origin ancestor earlier
      obtain rfl := lineage'.unique lineage
      exact ⟨compatible, .inr ⟨other, among, shared, required', lineage'⟩⟩
    · obtain ⟨manifest', lineage', fits, compatible⟩ := fresh ancestor member earlier
      obtain rfl := lineage'.unique lineage
      exact ⟨compatible, .inl fits⟩

theorem Planned.run (entries : List ActivityEntry)
    (known : state.blockers = [] → Planned snapshots compatibility done state.resolution.resolved)
    (planned : entries.foldlM (planEntry snapshots fuel compatibility) state = some after)
    (clear : after.blockers = []) :
    state.blockers = [] ∧ Planned snapshots compatibility (done ++ entries) after.resolution.resolved := by
  induction entries generalizing done state with
  | nil =>
    cases planned
    rw [append_nil]
    exact ⟨clear, known clear⟩
  | cons entry rest ih =>
    obtain ⟨next, first, later⟩ := Option.bind_eq_some_iff.mp planned
    have known' (clear : next.blockers = []) :
        Planned snapshots compatibility (done ++ [entry]) next.resolution.resolved :=
      (known (planEntry_clear first clear).1).step first clear
    obtain ⟨between, planned'⟩ := ih known' later
    rw [append_assoc, singleton_append] at planned'
    exact ⟨(planEntry_clear first between).1, planned'⟩

variable {plan : RestorePlan} {id : TransactionId}

theorem covered_of_executable {transaction : TransactionState} {entries : List ActivityEntry}
    (planned : planEntries snapshots fuel compatibility id transaction entries = some plan)
    (executable : plan.executable = true) {newer older : List ActivityEntry}
    (split : entries = older ++ entry :: newer) : Covered snapshots compatibility newer.reverse entry := by
  obtain ⟨last, folded, same⟩ := Option.bind_eq_some_iff.mp planned
  cases same
  have clear : last.blockers = [] := by
    have empty := (Bool.and_eq_true_iff.mp executable).1
    by_cases none : entries.isEmpty
    · simp only [none, if_true, List.isEmpty_iff] at empty
      exact absurd empty (blockers_block _ _)
    · simpa [none] using empty
  have start : (Planning.checkTransaction {} id transaction).blockers = [] →
      Planned snapshots compatibility [] (Planning.checkTransaction {} id transaction).resolution.resolved := by
    intro _
    have fresh : (Planning.checkTransaction {} id transaction).resolution.resolved = ∅ := by
      cases transaction <;> rfl
    rw [fresh]
    exact ⟨nofun, nofun, fun newer entry older split => by simp at split⟩
  obtain ⟨_, _, _, covered⟩ := Planned.run entries.reverse start folded clear
  apply covered newer.reverse entry older.reverse
  simp [split]

/-- A snapshot that an entry shares with a newer one fits it. -/
def SharedSnapshotsFit (snapshots : SnapshotStore) (entries : List ActivityEntry) : Prop :=
  entries.Pairwise fun older newer => ∀ id shared, requiredSnapshot older = some id →
    requiredSnapshot newer = some shared → ∀ ancestor manifest, Lineage snapshots id ancestor manifest →
      Lineage snapshots shared ancestor manifest → Fits older manifest

variable {hashing : Hashing}

theorem planTransactionRestore_ok {S : Type} [LedgerStore S] {store : S}
    (planned : planTransactionRestore hashing fuel id snapshots compatibility store = some (.ok plan)) :
    ∃ state entries, transactionEntries hashing id store = .ok entries ∧
      planEntries snapshots fuel compatibility id state entries = some plan := by
  revert planned
  fun_cases planTransactionRestore hashing fuel id snapshots compatibility store with
  | case4 found _ entries listed => simpa using fun done => ⟨found.state, entries, listed, done⟩
  | _ => simp

/-- An executable plan restores each snapshot-required entry from snapshots of its scope that were taken before it,
exactly if the snapshots that entries share with newer ones do. -/
theorem executable_plan_fits_iff {S : Type} [LedgerStore S] (hashing : Hashing) (store : S) (id : TransactionId)
    (snapshots : SnapshotStore) (compatibility : Option String) (fuel : Nat) (plan : RestorePlan)
    (entries : List ActivityEntry)
    (planned : planTransactionRestore hashing fuel id snapshots compatibility store = some (.ok plan))
    (executable : plan.executable = true) (listed : transactionEntries hashing id store = .ok entries) :
    (∀ entry ∈ entries, ∀ required, requiredSnapshot entry = some required →
      ∀ ancestor manifest, Lineage snapshots required ancestor manifest →
        manifest.scope = scopeForEntry entry ∧
        (∀ version, compatibility = some version → manifest.compatibilityVersion = version) ∧
        manifest.sourceLedgerBoundary.sequence < entry.integrity.sequence) ↔
      SharedSnapshotsFit snapshots entries := by
  obtain ⟨state, entries', listed', planned⟩ := planTransactionRestore_ok planned
  rw [listed] at listed'
  cases listed'
  constructor
  · intro fits
    refine pairwise_iff_forall_sublist.mpr fun {older newer} sublist id shared required _ => ?_
    intro ancestor manifest lineage _
    have member : older ∈ entries := sublist.subset mem_cons_self
    obtain ⟨scope, _, before⟩ := fits older member id required ancestor manifest lineage
    exact ⟨scope, before⟩
  · intro shared entry member required named ancestor manifest lineage
    obtain ⟨older, newer, split⟩ := append_of_mem member
    have covered := covered_of_executable planned executable split required named ancestor manifest lineage
    obtain ⟨compatible, fits | ⟨other, among, common, named', lineage'⟩⟩ := covered
    · exact ⟨fits.scope, compatible, fits.before⟩
    · rw [SharedSnapshotsFit, split, pairwise_append, pairwise_cons] at shared
      have fits := shared.2.1.1 other (mem_reverse.mp among) required common named named' ancestor manifest
        lineage lineage'
      exact ⟨fits.scope, compatible, fits.before⟩

/-- A committed transaction whose two edits, the second one of the given document, name one snapshot. -/
def twoEdits (document : String) : InMemoryLedgerStore :=
  Runs.run (perform sequenceHashing) {}
    [.startTransaction editTransaction, .appendEntry (documentEdit "first" "note-1" 2 ⟨"before"⟩),
      .appendEntry (documentEdit "second" document 3 ⟨"before"⟩), .commitTransaction ⟨"edit"⟩ 4]

def documentSnapshot (document : String) : SnapshotManifest where
  schemaVersion := schemaVersion
  id := ⟨"before"⟩
  scope := { scopeType := "document", externalId := document }
  createdAtMs := 1
  sourceLedgerBoundary := ⟨1, some (hexText (replicate 32 1))⟩
  contentDigest := hexText (replicate 32 0)
  backendId := "snapshots"
  compatibilityVersion := "1"

def oneSnapshot (manifest : SnapshotManifest) : SnapshotStore := fun id =>
  .ok (if id = manifest.id then some manifest else none)

theorem exists_executable_plan {S : Type} [LedgerStore S] {store : S}
    (executable : (planTransactionRestore hashing fuel id snapshots compatibility store).any
      (fun result => result.toOption.any RestorePlan.executable) = true) :
    ∃ plan entries, planTransactionRestore hashing fuel id snapshots compatibility store = some (.ok plan) ∧
      plan.executable = true ∧ transactionEntries hashing id store = .ok entries := by
  cases planned : planTransactionRestore hashing fuel id snapshots compatibility store with
  | none => simp [planned] at executable
  | some result =>
    rw [planned] at executable
    cases result with
    | error error => cases executable
    | ok plan =>
      obtain ⟨_, entries, listed, _⟩ := planTransactionRestore_ok planned
      exact ⟨plan, entries, rfl, executable, listed⟩

theorem lineage_oneSnapshot {manifest found : SnapshotManifest} (alone : manifest.parentSnapshot = none)
    {id ancestor : SnapshotId} (lineage : Lineage (oneSnapshot manifest) id ancestor found) : found = manifest := by
  have only {id : SnapshotId} {other : SnapshotManifest} (found : oneSnapshot manifest id = .ok (some other)) :
      other = manifest := by
    simp only [oneSnapshot, Except.ok.injEq, Option.ite_none_right_eq_some, Option.some.injEq] at found
    exact found.2.symm
  cases lineage with
  | self found => exact only found
  | parent found next =>
    rw [only found, alone] at next
    cases next

/-- Two edits of one document share a snapshot that was taken before both. -/
theorem executable_plan_fits_two_edits :
    let snapshots := oneSnapshot (documentSnapshot "note-1")
    ∃ plan entries,
      planTransactionRestore sequenceHashing 2 ⟨"edit"⟩ snapshots (some "1") (twoEdits "note-1") = some (.ok plan) ∧
      plan.executable = true ∧ transactionEntries sequenceHashing ⟨"edit"⟩ (twoEdits "note-1") = .ok entries ∧
      entries.map requiredSnapshot = [some ⟨"before"⟩, some ⟨"before"⟩] ∧
      ∀ entry ∈ entries, ∀ required, requiredSnapshot entry = some required →
        ∀ ancestor manifest, Lineage snapshots required ancestor manifest →
          manifest.scope = scopeForEntry entry ∧
          (∀ version, some "1" = some version → manifest.compatibilityVersion = version) ∧
          manifest.sourceLedgerBoundary.sequence < entry.integrity.sequence := by
  intro snapshots
  obtain ⟨plan, entries, planned, executable, listed⟩ :=
    @exists_executable_plan (some "1") snapshots 2 ⟨"edit"⟩ sequenceHashing _ _ (twoEdits "note-1") (by decide +kernel)
  have shape : (transactionEntries sequenceHashing ⟨"edit"⟩ (twoEdits "note-1")).toOption.any (fun entries =>
      entries.map requiredSnapshot = [some ⟨"before"⟩, some ⟨"before"⟩] ∧ ∀ entry ∈ entries,
        (documentSnapshot "note-1").scope = scopeForEntry entry ∧
          (documentSnapshot "note-1").sourceLedgerBoundary.sequence < entry.integrity.sequence) = true := by
    decide +kernel
  rw [listed] at shape
  obtain ⟨named, fits⟩ := of_decide_eq_true shape
  have shared : SharedSnapshotsFit snapshots entries := by
    refine pairwise_iff_forall_sublist.mpr fun {older newer} sublist id shared _ _ ancestor manifest lineage _ => ?_
    rw [lineage_oneSnapshot rfl lineage]
    obtain ⟨scope, before⟩ := fits older (sublist.subset mem_cons_self)
    exact ⟨scope, before⟩
  exact ⟨plan, entries, planned, executable, listed, named,
    (executable_plan_fits_iff sequenceHashing (twoEdits "note-1") ⟨"edit"⟩ snapshots (some "1") 2 plan entries
      planned executable listed).mpr shared⟩

/-- The plan for the two edits is executable and restores the second document's snapshot for both. -/
theorem shared_snapshot_of_other_scope :
    let snapshots := oneSnapshot (documentSnapshot "note-2")
    ∃ plan entries,
      planTransactionRestore sequenceHashing 2 ⟨"edit"⟩ snapshots none (twoEdits "note-2") = some (.ok plan) ∧
      plan.executable = true ∧ transactionEntries sequenceHashing ⟨"edit"⟩ (twoEdits "note-2") = .ok entries ∧
      ∃ entry ∈ entries, requiredSnapshot entry = some ⟨"before"⟩ ∧
        Lineage snapshots ⟨"before"⟩ ⟨"before"⟩ (documentSnapshot "note-2") ∧
        (documentSnapshot "note-2").scope ≠ scopeForEntry entry := by
  intro snapshots
  obtain ⟨plan, entries, planned, executable, listed⟩ :=
    @exists_executable_plan none snapshots 2 ⟨"edit"⟩ sequenceHashing _ _ (twoEdits "note-2") (by decide +kernel)
  have mismatch : (transactionEntries sequenceHashing ⟨"edit"⟩ (twoEdits "note-2")).toOption.any (fun entries =>
      entries.any fun entry => requiredSnapshot entry = some ⟨"before"⟩ ∧
        (documentSnapshot "note-2").scope ≠ scopeForEntry entry) = true := by decide +kernel
  rw [listed] at mismatch
  obtain ⟨entry, member, named⟩ := any_eq_true.mp mismatch
  obtain ⟨named, differs⟩ := of_decide_eq_true named
  exact ⟨plan, entries, planned, executable, listed, entry, member, named, .self rfl, differs⟩

end Nagi.Wayback
