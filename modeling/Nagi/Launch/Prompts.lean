import Mathlib.Data.List.Perm.Subperm
import Nagi.Launch.Tables

/-! The order in which prompts are shown.

A prompt goes into the first free slot and the dialog takes the first used one, so a prompt that fills a gap is shown
before older ones. -/

namespace Nagi.Launch.LaunchRegistry

open Lib Slots

variable (parse : List UInt8 → Except DecisionStoreError (List StoredDecision))

/-- The prompts that are still pending after the operations, in the order of the calls that queued them. -/
def arrivals : LaunchRegistry → List ConsentRequest → List Operation → List ConsentRequest
  | _, queue, [] => queue
  | registry, queue, operation :: rest =>
    let after := registry.step parse operation
    arrivals after ((queue ++ (registry.queued operation).toList).filter (· ∈ after.pending.reduceOption)) rest

/-- No prompt is queued while a slot is free in front of a pending one. -/
def QueuesBehind : LaunchRegistry → List Operation → Prop
  | _, [] => True
  | registry, operation :: rest =>
    ((registry.queued operation).isSome → registry.pending.Pairwise fun first second => second.isSome → first.isSome) ∧
      QueuesBehind (registry.step parse operation) rest

theorem filter_of_sublist {kept prompts : List ConsentRequest} (part : kept.Sublist prompts)
    (distinct : prompts.Nodup) :
    prompts.filter (· ∈ kept) = kept := by
  have whole : kept.filter (· ∈ kept) = kept := List.filter_eq_self.mpr (by simp)
  refine ((whole ▸ part.filter (· ∈ kept)).eq_of_length_le ?_).symm
  exact ((distinct.filter _).subperm fun _ member => by simpa using (List.mem_filter.mp member).2).length_le

theorem arrivals_eq {registry : LaunchRegistry} {operations : List Operation} (sound : registry.Sound)
    (distinct : registry.pending.reduceOption.Nodup) (behind : QueuesBehind parse registry operations) :
    arrivals parse registry registry.pending.reduceOption operations =
      (Runs.run (call parse) registry operations).pending.reduceOption := by
  induction operations generalizing registry with
  | nil => rfl
  | cons operation rest ih =>
    obtain ⟨here, later⟩ := behind
    rw [arrivals, Runs.run]
    obtain ⟨none, follows⟩ | ⟨request, queues, next, fresh, placed⟩ := @step_cases _ parse sound operation
    · simp only [none, Option.toList_none, List.append_nil, filter_of_sublist follows.prompts distinct]
      exact ih follows.sound (distinct.sublist follows.prompts) later
    · have last := place_last (here (by simp [queues])) placed
      have longer : (registry.step parse operation).pending.reduceOption.Nodup := by
        rw [last]
        exact distinct.append (List.nodup_singleton _) (by simpa using fresh)
      simp only [queues, Option.toList_some, ← last, filter_of_sublist (.refl _) longer]
      exact ih next longer later

/-- If prompts are only queued behind the pending ones, the next prompt is the oldest one. -/
theorem oldest_prompt_next (operations : List Operation) (behind : QueuesBehind parse new operations) :
    (run parse operations).pending.reduceOption = arrivals parse new [] operations ∧
      (run parse operations).nextConsentRequest = (arrivals parse new [] operations).head? := by
  have same := arrivals_eq parse new_sound (by simp [new]) behind
  exact ⟨same.symm, congrArg List.head? same.symm⟩

def camera : Name := [0x63]
def files : Name := [0x66]
def location : Name := [0x6c]

def viewer : AppManifest := ⟨[0x61], [camera, files, location]⟩

/-- The only application asks for two capabilities. -/
def askTwice : List Operation :=
  [.registerManifest viewer, .recordLaunch 2 viewer.appId ⟨1, 1, none⟩,
    .requestConsent viewer.appId 1 camera, .requestConsent viewer.appId 1 files]

def ask (capability : Name) : ConsentRequest := ⟨viewer.appId, 1, viewer.identifier, capability⟩

def dismiss : Operation := .resolveConsent ⟨1, false⟩ (ask camera) none

theorem files_next : QueuesBehind parseDecisions new (askTwice ++ [dismiss]) ∧
    (run parseDecisions (askTwice ++ [dismiss])).nextConsentRequest = some (ask files) := by
  have behind : QueuesBehind parseDecisions new (askTwice ++ [dismiss]) := by
    simp only [askTwice, List.cons_append, List.nil_append, QueuesBehind, and_true]
    decide +kernel
  exact ⟨behind, (oldest_prompt_next _ _ behind).2.trans (by decide +kernel)⟩

/-- Once the first prompt is dismissed, a third one is shown before the second. -/
theorem later_prompt_next :
    let operations := askTwice ++ [dismiss, .requestConsent viewer.appId 1 location]
    arrivals parseDecisions new [] operations = [ask files, ask location] ∧
      (run parseDecisions operations).nextConsentRequest = some (ask location) := by
  decide +kernel

end Nagi.Launch.LaunchRegistry
