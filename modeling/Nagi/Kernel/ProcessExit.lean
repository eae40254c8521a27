import Nagi.Kernel.UserIpc.State

/-! Exit records and waits for isolated processes, `kernel/src/process_exit.rs`. -/

namespace Nagi.Kernel

open Lib Function

abbrev firstIsolatedProcessId : Nat := 2
abbrev maxExitRecords : Nat := 4

inductive ExitKind where
  | exited
  | faulted (vector : BitVec 8)
  deriving DecidableEq

structure ExitRecord where
  processId : Nat
  code : BitVec 64
  kind : ExitKind
  deriving DecidableEq

inductive ExitTableError where
  | recordsFull
  | idsExhausted
  | alreadyLive
  deriving DecidableEq

/-- The isolated processes, each with the thread that waits for it, and the
records of those that have ended. -/
structure ExitTable where
  nextProcessId : Nat
  live : Fin maxLiveProcesses → Option (Nat × Option Nat)
  records : Fin maxExitRecords → Option ExitRecord

namespace ExitTable

inductive WaitOutcome where
  | ready (record : ExitRecord)
  | blocked
  | invalid
  deriving DecidableEq

def new : ExitTable := ⟨firstIsolatedProcessId, fun _ => none, fun _ => none⟩

variable (table : ExitTable)

def liveCount : Nat :=
  (List.finRange maxLiveProcesses).countP fun i => (table.live i).isSome

def freeRecords : Nat :=
  (List.finRange maxExitRecords).countP fun i => (table.records i).isNone

/-- Reserve the next process id. A record slot has to remain for every live
process and the new one. -/
def reserve : Except ExitTableError Nat :=
  if table.liveCount = maxLiveProcesses then .error .alreadyLive
  else if table.freeRecords < table.liveCount + 1 then .error .recordsFull
  else if table.nextProcessId = u32Max then .error .idsExhausted
  else .ok table.nextProcessId

variable (processId : Nat)

def commitSpawn : Bool × ExitTable :=
  if processId ≠ table.nextProcessId ∨ table.reserve.toOption ≠ some processId then (false, table)
  else
    match Fin.find? fun i => (table.live i).isNone with
    | none => (false, table)
    | some i => (true, { table with
        live := update table.live i (some (processId, none))
        nextProcessId := table.nextProcessId + 1 })

def isLive : Bool :=
  (List.finRange maxLiveProcesses).any fun i => (table.live i).any (·.1 == processId)

def liveSlot : Option (Fin maxLiveProcesses) :=
  Fin.find? fun i => (table.live i).any (·.1 == processId)

def recordExit (code : BitVec 64) (kind : ExitKind) : Option Nat × ExitTable :=
  match table.liveSlot processId with
  | none => (none, table)
  | some i =>
    let ended := { table with live := update table.live i none }
    ((table.live i).bind (·.2),
      match Fin.find? fun r => (table.records r).isNone with
      | none => ended
      | some r => { ended with records := update table.records r (some ⟨processId, code, kind⟩) })

def wait (processId thread : Nat) : WaitOutcome × ExitTable :=
  match Fin.find? fun r => (table.records r).any (·.processId == processId) with
  | some r =>
    match table.records r with
    | some record => (.ready record, { table with records := update table.records r none })
    | none => (.invalid, table)
  | none =>
    if (List.finRange maxLiveProcesses).any fun i => (table.live i).any (·.2 == some thread) then (.invalid, table)
    else
      match table.liveSlot processId with
      | none => (.invalid, table)
      | some i =>
        match table.live i with
        | some (_, none) =>
          (.blocked, { table with live := update table.live i (some (processId, some thread)) })
        | _ => (.invalid, table)

def cancelWait (thread : Nat) : Bool × ExitTable :=
  match Fin.find? fun i => (table.live i).any (·.2 == some thread) with
  | none => (false, table)
  | some i => (true, { table with live := update table.live i ((table.live i).map fun entry => (entry.1, none)) })

def Awaits (processId thread : Nat) : Prop :=
  ∃ i, table.live i = some (processId, some thread)

def Live : Prop := ∃ i waiter, table.live i = some (processId, waiter)

inductive Operation where
  | reserve
  | commitSpawn (processId : Nat)
  | recordExit (processId : Nat) (code : BitVec 64) (kind : ExitKind)
  | wait (processId thread : Nat)
  | cancelWait (thread : Nat)

inductive Reply where
  | reserved (processId : Except ExitTableError Nat)
  | committed (done : Bool)
  | exited (waiter : Option Nat)
  | waited (outcome : WaitOutcome)
  | cancelled (done : Bool)

inductive Effect (table : ExitTable) : Operation → Reply → ExitTable → Prop where
  | reserved : Effect table .reserve (.reserved table.reserve) table
  | uncommitted (processId : Nat) : Effect table (.commitSpawn processId) (.committed false) table
  | committed {i : Fin maxLiveProcesses} (vacant : table.live i = none)
      (room : table.liveCount + 1 ≤ table.freeRecords) (unused : table.nextProcessId ≠ u32Max) :
      Effect table (.commitSpawn table.nextProcessId) (.committed true) { table with
        live := update table.live i (some (table.nextProcessId, none))
        nextProcessId := table.nextProcessId + 1 }
  | unexited {processId : Nat} (code : BitVec 64) (kind : ExitKind) (dead : ¬table.Live processId) :
      Effect table (.recordExit processId code kind) (.exited none) table
  | exited {processId : Nat} {code : BitVec 64} {kind : ExitKind} {i : Fin maxLiveProcesses} {waiter : Option Nat}
      {r : Fin maxExitRecords} (held : table.live i = some (processId, waiter)) (free : table.records r = none) :
      Effect table (.recordExit processId code kind) (.exited waiter) { table with
        live := update table.live i none
        records := update table.records r (some ⟨processId, code, kind⟩) }
  | dropped {processId : Nat} {code : BitVec 64} {kind : ExitKind} {i : Fin maxLiveProcesses} {waiter : Option Nat}
      (held : table.live i = some (processId, waiter)) (full : ∀ r, table.records r ≠ none) :
      Effect table (.recordExit processId code kind) (.exited waiter) { table with
        live := update table.live i none }
  | ready {thread : Nat} {r : Fin maxExitRecords} {record : ExitRecord} (held : table.records r = some record) :
      Effect table (.wait record.processId thread) (.waited (.ready record)) { table with
        records := update table.records r none }
  | refused {processId thread : Nat}
      (absent : ∀ r record, table.records r = some record → record.processId ≠ processId) :
      Effect table (.wait processId thread) (.waited .invalid) table
  | blocked {processId thread : Nat} {i : Fin maxLiveProcesses}
      (absent : ∀ r record, table.records r = some record → record.processId ≠ processId)
      (idle : ∀ other, ¬table.Awaits other thread) (held : table.live i = some (processId, none)) :
      Effect table (.wait processId thread) (.waited .blocked) { table with
        live := update table.live i (some (processId, some thread)) }
  | uncancelled {thread : Nat} (idle : ∀ processId, ¬table.Awaits processId thread) :
      Effect table (.cancelWait thread) (.cancelled false) table
  | cancelled {thread processId : Nat} {i : Fin maxLiveProcesses}
      (held : table.live i = some (processId, some thread)) :
      Effect table (.cancelWait thread) (.cancelled true) { table with
        live := update table.live i (some (processId, none)) }

variable {table after next : ExitTable} {operation : Operation} {reply : Reply} {processId thread : Nat}

variable {i : Fin maxLiveProcesses} {entry : Option (Nat × Option Nat)}

theorem reserve_ok (reserved : table.reserve = .ok processId) :
    table.liveCount ≠ maxLiveProcesses ∧ table.liveCount + 1 ≤ table.freeRecords ∧ table.nextProcessId ≠ u32Max ∧
      processId = table.nextProcessId := by
  revert reserved
  fun_cases reserve table with
  | case4 room enough unused =>
    rintro ⟨⟩
    exact ⟨room, Nat.le_of_not_lt enough, unused, rfl⟩
  | _ => simp

theorem commitSpawn_of_reserve (reserved : table.reserve = .ok processId) :
    processId = table.nextProcessId ∧ (table.commitSpawn processId).1 = true := by
  obtain ⟨room, _, _, named⟩ := reserve_ok reserved
  refine ⟨named, ?_⟩
  have accepted : ¬(processId ≠ table.nextProcessId ∨ table.reserve.toOption ≠ some processId) := by
    rintro (different | unreserved)
    · exact different named
    · rw [reserved] at unreserved
      exact unreserved rfl
  rw [commitSpawn, if_neg accepted]
  split
  · next full =>
    -- every slot is taken, so the count is at its limit
    exfalso
    apply room
    rw [liveCount, List.countP_eq_length.mpr]
    · exact List.length_finRange
    · intro i _
      simpa using Fin.find?_eq_none_iff.mp full i
  · rfl

theorem liveSlot_spec (found : table.liveSlot processId = some i) :
    ∃ waiter, table.live i = some (processId, waiter) := by
  obtain ⟨⟨_, waiter⟩, held, named⟩ := (Option.any_eq_true _ _).mp (Fin.eq_true_of_find?_eq_some found)
  exact ⟨waiter, eq_of_beq named ▸ held⟩

theorem liveSlot_none (absent : table.liveSlot processId = none) : ¬table.Live processId := by
  rintro ⟨i, waiter, held⟩
  have other := Fin.find?_eq_none_iff.mp absent i
  simp [held] at other

section
variable (table)

theorem commitSpawn_effect (processId : Nat) :
    Effect table (.commitSpawn processId) (.committed (table.commitSpawn processId).1)
      (table.commitSpawn processId).2 := by
  unfold commitSpawn
  split
  · exact .uncommitted processId
  next accepted =>
  obtain ⟨named, reserved⟩ := not_or.mp accepted
  split
  · exact .uncommitted processId
  next i found =>
  obtain rfl := not_not.mp named
  have reserved : table.reserve = .ok table.nextProcessId := by
    cases reservation : table.reserve <;> simp_all [Except.toOption]
  obtain ⟨_, room, unused, _⟩ := reserve_ok reserved
  exact .committed (by simpa using Fin.eq_true_of_find?_eq_some found) room unused

theorem recordExit_effect (processId : Nat) (code : BitVec 64) (kind : ExitKind) :
    Effect table (.recordExit processId code kind) (.exited (table.recordExit processId code kind).1)
      (table.recordExit processId code kind).2 := by
  unfold recordExit
  split
  · next absent => exact .unexited code kind (liveSlot_none absent)
  next i found =>
  obtain ⟨waiter, held⟩ := liveSlot_spec found
  rw [held, Option.bind_some]
  split
  · next full =>
    refine .dropped held fun r free => ?_
    have occupied := Fin.find?_eq_none_iff.mp full r
    simp [free] at occupied
  · next r free => exact .exited held (by simpa using Fin.eq_true_of_find?_eq_some free)

theorem wait_effect (processId thread : Nat) :
    Effect table (.wait processId thread) (.waited (table.wait processId thread).1)
      (table.wait processId thread).2 := by
  unfold wait
  split
  · next r found =>
    obtain ⟨record, held, named⟩ := (Option.any_eq_true _ _).mp (Fin.eq_true_of_find?_eq_some found)
    obtain rfl := eq_of_beq named
    rw [held]
    exact .ready held
  · next missing =>
    have absent : ∀ r record, table.records r = some record → record.processId ≠ processId := by
      intro r record held same
      have other := Fin.find?_eq_none_iff.mp missing r
      simp [held, same] at other
    split
    · exact .refused absent
    next idle =>
    have idle : ∀ other, ¬table.Awaits other thread := by
      rintro other ⟨j, held⟩
      apply idle
      rw [List.any_eq_true]
      exact ⟨j, List.mem_finRange j, by simp [held]⟩
    split
    · exact .refused absent
    next i found =>
    obtain ⟨waiter, held⟩ := liveSlot_spec found
    rw [held]
    cases waiter with
    | some => exact .refused absent
    | none => exact .blocked absent idle held

theorem cancelWait_effect (thread : Nat) :
    Effect table (.cancelWait thread) (.cancelled (table.cancelWait thread).1) (table.cancelWait thread).2 := by
  unfold cancelWait
  split
  · next missing =>
    refine .uncancelled ?_
    rintro processId ⟨i, held⟩
    have other := Fin.find?_eq_none_iff.mp missing i
    simp [held] at other
  · next i found =>
    obtain ⟨⟨processId, _⟩, held, named⟩ := (Option.any_eq_true _ _).mp (Fin.eq_true_of_find?_eq_some found)
    obtain rfl := eq_of_beq named
    rw [held]
    exact .cancelled held

end

/-- Live processes are told apart by their ids, and a thread waits for one of them at a time. -/
structure Valid (table : ExitTable) : Prop where
  ids : ∀ i j processId first second, table.live i = some (processId, first) →
    table.live j = some (processId, second) → i = j
  threads : ∀ i j first second thread, table.live i = some (first, some thread) →
    table.live j = some (second, some thread) → i = j
  used : ∀ i processId thread, table.live i = some (processId, thread) → processId < table.nextProcessId
  first : firstIsolatedProcessId ≤ table.nextProcessId
  last : table.nextProcessId ≤ u32Max

theorem valid_new : Valid new := ⟨nofun, nofun, nofun, Nat.le_refl _, by decide⟩

theorem Valid.congr (valid : Valid table) (live : next.live = table.live)
    (same : next.nextProcessId = table.nextProcessId) : Valid next := by
  obtain ⟨ids, threads, used, first, last⟩ := valid
  constructor <;> simp only [live, same] <;> assumption

theorem Valid.update (valid : Valid table) (changed : next.live = update table.live i entry)
    (grown : table.nextProcessId ≤ next.nextProcessId) (last : next.nextProcessId ≤ u32Max)
    (process : ∀ processId waiter, entry = some (processId, waiter) →
      processId < next.nextProcessId ∧ ∀ j other, j ≠ i → table.live j ≠ some (processId, other))
    (waiter : ∀ processId thread, entry = some (processId, some thread) →
      ∀ j other, j ≠ i → table.live j ≠ some (other, some thread)) :
    Valid next := by
  -- a cell of the new table is the written one or an old one
  have cell : ∀ {j held}, next.live j = some held → j = i ∧ entry = some held ∨ j ≠ i ∧ table.live j = some held :=
    fun there => Table.update_cases (changed ▸ there)
  refine ⟨fun j k processId first second left right => ?_, fun j k first second thread left right => ?_,
    fun j processId thread held => ?_, Nat.le_trans valid.first grown, last⟩
  · rcases cell left with ⟨rfl, new⟩ | ⟨apart, old⟩ <;> rcases cell right with ⟨rfl, new'⟩ | ⟨apart', old'⟩
    · rfl
    · exact absurd old' ((process processId first new).2 k second apart')
    · exact absurd old ((process processId second new').2 j first apart)
    · exact valid.ids j k processId first second old old'
  · rcases cell left with ⟨rfl, new⟩ | ⟨apart, old⟩ <;> rcases cell right with ⟨rfl, new'⟩ | ⟨apart', old'⟩
    · rfl
    · exact absurd old' (waiter first thread new k second apart')
    · exact absurd old (waiter second thread new' j first apart)
    · exact valid.threads j k first second thread old old'
  · rcases cell held with ⟨rfl, new⟩ | ⟨_, old⟩
    · exact (process processId thread new).1
    · exact Nat.lt_of_lt_of_le (valid.used j processId thread old) grown

theorem awaits_update (changed : next.live = update table.live i entry) :
    next.Awaits processId thread ↔ entry = some (processId, some thread) ∨
      ∃ j ≠ i, table.live j = some (processId, some thread) := by
  unfold Awaits
  rw [changed]
  exact exists_update_iff table.live fun _ held => held = some (processId, some thread)

theorem awaits_split (held : table.live i = entry) :
    table.Awaits processId thread ↔ entry = some (processId, some thread) ∨
      ∃ j ≠ i, table.live j = some (processId, some thread) := by
  apply awaits_update
  rw [← held, update_eq_self]

theorem Valid.awaits_iff (valid : Valid table) {waiter : Option Nat} (held : table.live i = some (processId, waiter)) :
    table.Awaits processId thread ↔ waiter = some thread := by
  rw [awaits_split held]
  constructor
  · rintro (here | ⟨j, apart, there⟩)
    · cases here
      rfl
    · exact absurd (valid.ids j i processId (some thread) waiter there held) apart
  · rintro rfl
    exact .inl rfl

theorem Effect.valid (effect : Effect table operation reply after) (valid : Valid table) : Valid after := by
  -- a cell is rewritten for the process that is in it
  have rewritten : ∀ {i processId old new}, table.live i = some (processId, old) →
      (∀ thread, new = some thread → ∀ j other, table.live j ≠ some (other, some thread)) →
        Valid { table with live := update table.live i (some (processId, new)) } := by
    intro i processId old new held free
    refine valid.update rfl (Nat.le_refl _) valid.last ?_ ?_
    · rintro _ _ ⟨⟩
      refine ⟨valid.used i processId old held, fun j other apart there => ?_⟩
      exact apart (valid.ids j i processId other old there held)
    · rintro _ thread ⟨⟩ j other _
      exact free thread rfl j other
  cases effect with
  | reserved | uncommitted | unexited | refused | uncancelled => exact valid
  | committed vacant room unused =>
    have last := valid.last
    refine valid.update rfl (Nat.le_succ _) (by dsimp only; omega) ?_ nofun
    rintro _ _ ⟨⟩
    exact ⟨Nat.lt_succ_self _, fun j other _ held => Nat.lt_irrefl _ (valid.used j _ other held)⟩
  | exited held free | dropped held full => exact valid.update rfl (Nat.le_refl _) valid.last nofun nofun
  | ready held => exact valid.congr rfl rfl
  | blocked absent idle held => exact rewritten held fun thread same j other there => idle other ⟨j, by grind⟩
  | cancelled held => exact rewritten held nofun

/-- A thread waits for a process from the wait that blocked until the wait is
cancelled or the process ends. -/
theorem Effect.awaits (effect : Effect table operation reply after) (valid : Valid table) (processId thread : Nat) :
    after.Awaits processId thread ↔
      (operation = .wait processId thread ∧ reply = .waited .blocked) ∨
        table.Awaits processId thread ∧
          (operation ≠ .cancelWait thread ∧ ∀ code kind, operation ≠ .recordExit processId code kind) := by
  -- the process that ends takes its cell with it
  have ended : ∀ {next : ExitTable} {i other waiter}, table.live i = some (other, waiter) →
      next.live = update table.live i none →
        (next.Awaits processId thread ↔ table.Awaits processId thread ∧ other ≠ processId) := by
    intro next i other waiter held changed
    rw [awaits_update changed, awaits_split held]
    constructor
    · rintro (new | ⟨j, apart, there⟩)
      · cases new
      · refine ⟨.inr ⟨j, apart, there⟩, ?_⟩
        rintro rfl
        exact apart (valid.ids j i _ _ _ there held)
    · rintro ⟨here | elsewhere, different⟩
      · cases here
        exact absurd rfl different
      · exact .inr elsewhere
  -- only the calls that end a wait are exceptions
  have kept : ∀ {P : Prop}, (table.Awaits processId thread → P) →
      (table.Awaits processId thread ↔ table.Awaits processId thread ∧ P) := by
    intro P holds
    exact ⟨fun waits => ⟨waits, holds waits⟩, And.left⟩
  cases effect with
  | reserved | uncommitted | refused | ready => simp [Awaits]
  | committed vacant room unused =>
    rw [awaits_update rfl, awaits_split vacant]
    simp only [Option.some.injEq, Prod.mk.injEq, reduceCtorEq, and_false, false_or, ne_eq, not_false_eq_true,
      implies_true, and_true]
  | unexited code kind dead =>
    simp only [reduceCtorEq, false_and, false_or, ne_eq, not_false_eq_true, true_and]
    apply kept
    rintro ⟨i, held⟩ _ _ ⟨⟩
    exact dead ⟨i, _, held⟩
  | exited held free | dropped held full => simpa using ended held rfl
  | blocked absent idle held =>
    rw [awaits_update rfl, awaits_split held]
    simp only [Option.some.injEq, Prod.mk.injEq, Operation.wait.injEq, reduceCtorEq, and_false, false_or, ne_eq,
      not_false_eq_true, implies_true, and_true]
  | uncancelled idle =>
    simp only [reduceCtorEq, false_and, false_or, ne_eq, not_false_eq_true, implies_true, and_true]
    apply kept
    rintro waits ⟨⟩
    exact idle _ waits
  | cancelled held =>
    rw [awaits_update rfl, awaits_split held]
    simp only [Option.some.injEq, Prod.mk.injEq, reduceCtorEq, and_false, false_or, ne_eq, not_false_eq_true,
      implies_true, and_true]
    constructor
    · rintro ⟨j, apart, there⟩
      refine ⟨.inr ⟨j, apart, there⟩, ?_⟩
      rintro ⟨⟩
      exact apart (valid.threads j _ _ _ _ there held)
    · rintro ⟨⟨rfl, rfl⟩ | elsewhere, different⟩
      · exact absurd rfl different
      · exact elsewhere

theorem Effect.grown (effect : Effect table operation reply after) : table.nextProcessId ≤ after.nextProcessId := by
  cases effect <;> first | exact Nat.le_refl _ | exact Nat.le_succ _

theorem recordExit_waiter (valid : Valid table) (code : BitVec 64) (kind : ExitKind) :
    (table.recordExit processId code kind).1 = some thread ↔ table.Awaits processId thread := by
  have effect := table.recordExit_effect processId code kind
  generalize table.recordExit processId code kind = result at effect ⊢
  obtain ⟨waiter, after⟩ := result
  cases effect with
  | unexited _ _ dead => exact iff_of_false nofun fun ⟨i, held⟩ => dead ⟨i, _, held⟩
  | exited held free | dropped held full => exact (valid.awaits_iff held).symm

end ExitTable
end Nagi.Kernel
