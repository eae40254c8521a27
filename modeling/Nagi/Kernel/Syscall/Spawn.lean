import Nagi.Kernel.Syscall.Waiters

/-! What a spawn leaves behind when it fails. -/

namespace Nagi.Kernel.SyscallState

open Lib BootstrapUserThreads

variable {n : Nat}

/-- Processes, handles with their rights and channels are as before. The first call of all may have registered the
bootstrap process, and generations of free slots may have advanced. -/
def Undone (before after : UserIpcState) : Prop :=
  ∃ ready, UserIpcState.Boots before ready ∧ (after = ready ∨ UserIpcState.Churned ready after)

/-- A spawn that fails leaves the threads, the child slots and the exit table as they were. What it did to the processes
and their handles is undone too, unless no thread was left for the child: then the endpoint has been moved to the child
before, and all that the child had is given up. -/
theorem failed_spawn_undone (entries : List (Environment × Trap)) (environment : Environment)
    (address length : BitVec 64) :
    let before : SyscallState n := run entries
    let result := before.processSpawn environment address length
    let request := environment.spawnRequest address
    result.1 = callFailed → result.2 = { before with ipc := result.2.ipc } ∧
      (Undone before.ipc result.2.ipc ∨ ∃ processId rights handle ipc, before.exits.reserve = .ok processId ∧
        Rights.fromBits request.endpointRights = some rights ∧
        before.ipc.registerSpawnedProcess initProcessId processId request.endpoint rights = (.ok handle, ipc) ∧
        (∀ thread, thread ≠ 0 → (before.threads.slots thread).state ≠ .empty) ∧
        result.2.ipc = (ipc.exitProcess processId).2) := by
  intro before result request failed
  obtain ⟨⟨waits, coherent⟩, _⟩ := run_coherent (n := n) entries
  rcases processSpawn_cases environment before address length with same | ⟨processId, rights, reserved, known, moved⟩
  · rw [show result = _ from same]
    exact ⟨rfl, .inl ⟨_, .inl rfl, .inl rfl⟩⟩
  rcases moved with ⟨error, ipc, refused, same⟩ | ⟨handle, ipc, accepted, ⟨full, same⟩ | ⟨_, _, _, _, _, _, same⟩⟩
  · rw [show result = _ from same]
    refine ⟨rfl, .inl ?_⟩
    obtain ⟨ready, boots, ⟨_, after, _, outcome, churned⟩ | ⟨_, _, _, _, _, _, _, _, _, _, outcome, _⟩⟩ :=
      UserIpcState.registerSpawnedProcess_spec before.ipc initProcessId processId request.endpoint rights
        fun _ registered => coherent.ipc.roster.bootstrap _ (UserIpcState.ids_of_process registered)
    · cases refused.symm.trans outcome
      exact ⟨ready, boots, .inr churned⟩
    · cases refused.symm.trans outcome
  · rw [show result = _ from same]
    refine ⟨rfl, .inr ⟨processId, rights, handle, ipc, reserved, known, accepted,
      fun thread reusable vacant => ?_, rfl⟩⟩
    unfold allocateForProcess at full
    split at full
    · next none =>
      have taken := Fin.find?_eq_none_iff.mp none thread
      simp [reusable, vacant] at taken
    · cases full
  · rw [show result = _ from same] at failed
    obtain ⟨_, _, _, rfl⟩ := ExitTable.reserve_ok reserved
    have last : before.exits.nextProcessId ≤ u32Max := coherent.exits.last
    have number := congrArg BitVec.toNat failed
    rw [BitVec.toNat_ofNat, callFailed, BitVec.toNat_allOnes] at number
    unfold u32Max at last
    omega

theorem failed_spawn_undone_unknown :
    let before : SyscallState 1 := run [(permissive, .syscall (.channelCreate 0 16))]
    let result := before.processSpawn permissive 0 32
    result.1 = callFailed ∧ result.2 = { before with ipc := result.2.ipc } ∧ Undone before.ipc result.2.ipc := by
  have undone := failed_spawn_undone (n := 1) [(permissive, .syscall (.channelCreate 0 16))] permissive 0 32
  refine ⟨by decide +kernel, ?_⟩
  refine (undone (by decide +kernel)).imp_right (Or.resolve_right · ?_)
  rintro ⟨_, _, _, _, _, _, _, full, _⟩
  exact full 1 (by decide) (by decide +kernel)

def crowded : SyscallState 31 :=
  let create : Syscall := .threadCreate 0 0 (BitVec.ofNat 64 UserMmap.userMmapBase) 4096 0
  run ((.channelCreate 0 16 :: List.replicate 31 create).map fun call => (permissive, .syscall call))

/-- A spawn that finds no thread takes the endpoint with it that was to be moved. -/
theorem failed_spawn_loses_endpoint :
    let result := crowded.processSpawn { permissive with spawnRequest _ := ⟨0, 1, 0x100000000#64, 1, 0⟩ } 0 32
    result.1 = callFailed ∧ (crowded.ipc.locateEndpoint initProcessId ⟨0x100000000#64⟩).isOk = true ∧
      (result.2.ipc.locateEndpoint initProcessId ⟨0x100000000#64⟩).isOk = false := by
  decide +kernel

end Nagi.Kernel.SyscallState
