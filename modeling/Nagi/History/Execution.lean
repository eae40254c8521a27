import Nagi.History.Restore

/-! What stays stored when the backend of a restore is asked. -/

namespace Nagi.History

open Lib Checks Function List

theorem executeRestore_executed {confirmation : ConfirmedRestorePlan} {occurredAt : Timestamp}
    {collaborators : Collaborators} {checkpoints now : CheckpointStore} {activity later : ActivityLedger}
    {result : RestoreBackendResult}
    (executed : .executed now later result ∈
      (executeRestore confirmation occurredAt collaborators checkpoints activity).calls) :
    activity.canAppend ∧ ∃ attempt,
      attemptRestore confirmation occurredAt collaborators checkpoints activity = attempt ∧
      attempt.checkpoints = now ∧ attempt.activity = later ∧ attempt.result = result ∧
      (confirmation.plan.mode = .asCopy ∧ now = checkpoints ∧ later = activity ∨
        confirmation.plan.mode = .inPlace ∧ ∃ reference recovery, later.canAppend ∧
          createRecoveryCheckpoint confirmation.plan occurredAt reference checkpoints activity =
            .ok (recovery, now, later)) := by
  have room : activity.canAppend := by
    by_contra full
    rw [executeRestore, if_pos full] at executed
    cases executed
  refine ⟨room, _, rfl, ?_⟩
  obtain ⟨none, -⟩ | ⟨calls, -⟩ := executeRestore_calls confirmation occurredAt collaborators checkpoints activity
  · rw [none] at executed
    cases executed
  rw [calls] at executed
  obtain ⟨quiet, -⟩ | ⟨front, made, quiet, -, stored⟩ :=
    attemptRestore_inv confirmation occurredAt collaborators checkpoints activity rfl
  · cases quiet _ executed
  rw [made, mem_append, mem_singleton] at executed
  obtain early | last := executed
  · cases quiet _ early
  cases last
  refine ⟨rfl, rfl, rfl, stored.imp_right ?_⟩
  rintro ⟨inPlace, reference, recovery, -, created, room⟩
  exact ⟨inPlace, reference, recovery, room, created⟩

section
variable (request : RestorePlanRequest) (ledger planned : ActivityLedger) (plan : RestorePlan)
  (prepared : prepareRestorePlan request ledger = .ok (plan, planned)) (confirmedBy : Actor) (acknowledged : Bool)
  (confirmation : ConfirmedRestorePlan) (confirmed : plan.confirm confirmedBy acknowledged = .ok confirmation)
  (occurredAt : Timestamp) (collaborators : Collaborators) (checkpoints : CheckpointStore) (activity : ActivityLedger)
  (restored : Restored) (ran : executeRestore confirmation occurredAt collaborators checkpoints activity = restored)
  (now : CheckpointStore) (later : ActivityLedger) (result : RestoreBackendResult)
  (executed : .executed now later result ∈ restored.calls)
include prepared confirmed ran executed

/-- The checkpoint that a plan restores is stored when the backend is asked, unless its slot is the
one that the recovery checkpoint takes over. -/
theorem restored_checkpoint_kept (place : Fin maxCheckpoints) (record : CheckpointRecord)
    (stored : checkpoints.records place = some record) (named : record.id = plan.checkpointId)
    (kept : plan.mode = .asCopy ∨ (∃ slot, checkpoints.records slot = none) ∨
      checkpoints.oldestUnpinnedIndex ≠ some place) :
    ∃ slot record, now.records slot = some record ∧ record.id = plan.checkpointId := by
  simp only [RestorePlan.confirm, unless_ok_iff] at confirmed
  obtain ⟨-, -, same⟩ := confirmed
  cases same
  subst ran
  obtain ⟨-, _, -, -, -, -, ⟨-, rfl, -⟩ | ⟨inPlace, _, _, room, created⟩⟩ := executeRestore_executed executed
  · exact ⟨place, record, stored, named⟩
  obtain ⟨-, slot, _, chosen, changed⟩ :=
    createRecoveryCheckpoint_ok (prepareRestorePlan_wellFormed prepared) created room
  have other : place ≠ slot := by
    rintro rfl
    obtain free | ⟨full, oldest⟩ := Option.or_eq_some_iff.mp chosen
    · have none := find?_some free
      simp [stored] at none
    · obtain copy | ⟨free, empty⟩ | younger := kept
      · cases inPlace.symm.trans copy
      · simpa [empty] using find?_eq_none.mp full free (mem_finRange free)
      · exact younger oldest
  exact ⟨place, record, by rw [changed, update_of_ne other, stored], named⟩

end

def filledStore (count : Nat) : CheckpointStore :=
  ⟨fun slot => if slot < count then some (oldVersion.record (UInt64.ofNat (slot + 1))) else none, count,
    UInt64.ofNat (count + 1)⟩

theorem old_version_kept : ∃ plan planned confirmation now later result slot record,
    prepareRestorePlan backToOld emptyLedger = .ok (plan, planned) ∧ plan.confirm person true = .ok confirmation ∧
      .executed now later result ∈ (executeRestore confirmation ⟨2, 0⟩ willing (filledStore 1) emptyLedger).calls ∧
      now.records slot = some record ∧ record.id = plan.checkpointId := by
  obtain ⟨slot, record, stored, named⟩ :=
    restored_checkpoint_kept backToOld emptyLedger _ _ rfl person true _ rfl ⟨2, 0⟩
    willing (filledStore 1) emptyLedger _ rfl _ _ _ (by exact .tail _ (.tail _ (.head _))) ⟨0, by decide⟩ _ rfl rfl
    (.inr (.inl ⟨⟨1, by decide⟩, rfl⟩))
  exact ⟨_, _, _, _, _, _, slot, record, rfl, rfl, by exact .tail _ (.tail _ (.head _)), stored, named⟩

inductive CreatedStore : CheckpointStore → Prop where
  | new : CreatedStore ⟨fun _ => none, 0, 1⟩
  | create {store after : CheckpointStore} {draft : CheckpointDraft} {ledger later : ActivityLedger}
      {id : CheckpointId} :
      CreatedStore store → store.create draft ledger = .ok (id, after, later) → CreatedStore after

theorem filledStore_created {count : Nat} (few : count ≤ maxCheckpoints) : CreatedStore (filledStore count) := by
  induction count with
  | zero => exact .new
  | succ count ih =>
    have free : ∀ count : Fin maxCheckpoints, (filledStore count).destination = some count ∧
        (filledStore count).canCreate ∧ (filledStore count).nextId ≠ 0 ∧ (filledStore count).nextId ≠ lastId ∧
        (filledStore count).nextId + 1 = (filledStore (count + 1)).nextId := by decide +kernel
    obtain ⟨place, room, positive, bounded, next⟩ := free ⟨count, few⟩
    have records : update (filledStore count).records ⟨count, few⟩
        (some (oldVersion.record (filledStore count).nextId)) =
        (filledStore (count + 1)).records := by
      rw [update_eq_iff]
      refine ⟨by simp [filledStore], fun slot other => ?_⟩
      have apart : slot.val ≠ count := fun same => other (Fin.ext same)
      simp only [filledStore, show slot.val < count + 1 ↔ slot.val < count by omega]
    have created := (ih (Nat.le_of_succ_le few)).create (by
      unfold CheckpointStore.create
      simp only [place, room, positive, bounded]
      rfl : (filledStore count).create oldVersion.toCheckpointDraft emptyLedger = .ok _)
    rw [records, next, if_pos (by simp [filledStore])] at created
    exact created

/-- In a full store the recovery checkpoint takes the place of the checkpoint that is restored. -/
theorem restored_checkpoint_evicted : CreatedStore (filledStore maxCheckpoints) ∧
    ∃ plan planned confirmation now later result,
      prepareRestorePlan { backToOld with checkpoint := oldVersion.record 1 } emptyLedger = .ok (plan, planned) ∧
        ((filledStore maxCheckpoints).records ⟨0, by decide⟩).map (·.id) = some plan.checkpointId ∧
        plan.confirm person true = .ok confirmation ∧ .executed now later result ∈
          (executeRestore confirmation ⟨2, 0⟩ willing (filledStore maxCheckpoints) planned).calls ∧
        ∀ slot, (now.records slot).map (·.id) ≠ some plan.checkpointId :=
  ⟨filledStore_created (Nat.le_refl _), _, _, _, _, _, _, rfl, rfl, rfl, by exact .tail _ (.tail _ (.head _)),
    by decide +kernel⟩

end Nagi.History
