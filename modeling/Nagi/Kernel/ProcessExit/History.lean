import Nagi.Kernel.ProcessExit
import Nagi.Lib.Runs

/-! What happens to the exit status of a process, over every sequence of calls. -/

namespace Nagi.Kernel.ExitTable

open Lib Table Function List Runs

def step (table : ExitTable) : Operation → Reply × ExitTable
  | .reserve => (.reserved table.reserve, table)
  | .commitSpawn processId => (table.commitSpawn processId).map .committed id
  | .recordExit processId code kind => (table.recordExit processId code kind).map .exited id
  | .wait processId thread => (table.wait processId thread).map .waited id
  | .cancelWait thread => (table.cancelWait thread).map .cancelled id

def run (operations : List Operation) : ExitTable := Runs.run step new operations

def history (operations : List Operation) : List (Lib.Event ExitTable Operation Reply) := trace step new operations

theorem step_effect (table : ExitTable) (operation : Operation) :
    Effect table operation (table.step operation).1 (table.step operation).2 := by
  cases operation with
  | reserve => exact .reserved
  | commitSpawn processId => exact commitSpawn_effect table processId
  | recordExit processId code kind => exact recordExit_effect table processId code kind
  | wait processId thread => exact wait_effect table processId thread
  | cancelWait thread => exact cancelWait_effect table thread

variable {table after : ExitTable} {processId : Nat} {operation : Operation} {reply : Reply}

variable {i : Fin maxLiveProcesses} {entry : Option (Nat × Option Nat)}

theorem liveCount_update (changed : after.live = update table.live i entry) :
    after.liveCount + (if (table.live i).isSome then 1 else 0) =
      table.liveCount + if entry.isSome then 1 else 0 := by
  unfold liveCount
  rw [countP_finRange, countP_finRange, changed]
  exact sum_update table.live (fun cell => if cell.isSome then 1 else 0) i entry

variable {r : Fin maxExitRecords}

theorem freeRecords_update {entry : Option ExitRecord}
    (changed : after.records = update table.records r entry) :
    after.freeRecords + (if (table.records r).isNone then 1 else 0) =
      table.freeRecords + if entry.isNone then 1 else 0 := by
  unfold freeRecords
  rw [countP_finRange, countP_finRange, changed]
  exact sum_update table.records (fun cell => if cell.isNone then 1 else 0) r entry

theorem liveCount_pos (live : table.Live processId) : 0 < table.liveCount := by
  obtain ⟨i, waiter, held⟩ := live
  exact countP_pos_iff.mpr ⟨i, mem_finRange i, by rw [held]; rfl⟩

theorem freeRecords_eq_zero (full : ∀ r, table.records r ≠ none) : table.freeRecords = 0 := by
  apply countP_eq_zero.mpr
  intro r _
  simpa using full r

/-- A process has at most one record, and none while it is live; there is a free
record for every live process. -/
structure Sound (table : ExitTable) : Prop where
  valid : Valid table
  room : table.liveCount ≤ table.freeRecords
  single : ∀ r s first second, table.records r = some first → table.records s = some second →
    first.processId = second.processId → r = s
  ended : ∀ r record, table.records r = some record → ¬table.Live record.processId
  used : ∀ r record, table.records r = some record → record.processId < table.nextProcessId

theorem sound_new : Sound new := ⟨valid_new, by decide, nofun, nofun, nofun⟩

/-- The branch that drops a status is never taken. -/
theorem Sound.exists_free (sound : Sound table) (live : table.Live processId) : ∃ r, table.records r = none := by
  by_contra full
  push Not at full
  have positive := liveCount_pos live
  have zero := freeRecords_eq_zero full
  have room := sound.room
  omega

theorem live_update (changed : after.live = update table.live i entry) (live : after.Live processId) :
    (∃ waiter, entry = some (processId, waiter)) ∨ table.Live processId := by
  rw [Live, changed, exists_update_iff table.live fun _ cell => ∃ waiter, cell = some (processId, waiter)] at live
  exact live.imp_right fun ⟨j, _, held⟩ => ⟨j, held⟩

section
variable (sound : Sound table)
include sound
variable (valid : Valid after)
include valid

theorem Sound.keeps (room : after.liveCount ≤ after.freeRecords)
    (grown : table.nextProcessId ≤ after.nextProcessId)
    (fewer : ∀ r record, after.records r = some record → table.records r = some record)
    (alive : ∀ processId, after.Live processId → table.Live processId ∨ table.nextProcessId ≤ processId) :
    Sound after := by
  refine ⟨valid, room, fun r s first second left right => ?_, fun r record held live => ?_, fun r record held => ?_⟩
  · exact sound.single r s first second (fewer r first left) (fewer s second right)
  · rcases alive record.processId live with earlier | new
    · exact sound.ended r record (fewer r record held) earlier
    · exact absurd (sound.used r record (fewer r record held)) (Nat.not_lt.mpr new)
  · exact Nat.lt_of_lt_of_le (sound.used r record (fewer r record held)) grown

theorem Sound.rewrites {old new : Option Nat} (held : table.live i = some (processId, old))
    (changed : after = { table with live := update table.live i (some (processId, new)) }) : Sound after := by
  have count := liveCount_update (congrArg live changed)
  subst changed
  rw [held] at count
  refine sound.keeps valid (Nat.le_trans (Nat.le_of_eq (Nat.add_right_cancel count)) sound.room) (Nat.le_refl _)
    (fun _ _ => id) fun other live => .inl ?_
  rcases live_update rfl live with ⟨_, entry⟩ | earlier
  · cases entry
    exact ⟨i, old, held⟩
  · exact earlier

theorem Sound.exits {record : ExitRecord} {waiter : Option Nat}
    (held : table.live i = some (record.processId, waiter)) (free : table.records r = none)
    (changed : after.live = update table.live i none)
    (recorded : after.records = update table.records r (some record))
    (same : after.nextProcessId = table.nextProcessId) : Sound after := by
  have lives := liveCount_update changed
  have frees := freeRecords_update recorded
  rw [held] at lives
  rw [free] at frees
  -- a record afterwards is the new one or an old one, which is about another process
  have cell : ∀ {s found}, after.records s = some found → s = r ∧ found = record ∨
      s ≠ r ∧ table.records s = some found ∧ found.processId ≠ record.processId := by
    intro s found there
    rw [recorded] at there
    rcases update_cases there with ⟨here, new⟩ | ⟨here, there⟩
    · exact .inl ⟨here, (Option.some.inj new).symm⟩
    · refine .inr ⟨here, there, fun named => sound.ended s found there ⟨i, waiter, ?_⟩⟩
      rw [named]
      exact held
  refine ⟨valid, ?_, ?_, ?_, ?_⟩
  · have room := sound.room
    simp only [Option.isSome_some, Option.isSome_none, Option.isNone_none, Option.isNone_some, if_true] at lives frees
    omega
  · intro s t first second left right named
    rcases cell left with ⟨rfl, rfl⟩ | ⟨apart, old, other⟩ <;>
      rcases cell right with ⟨rfl, rfl⟩ | ⟨apart', old', other'⟩
    · rfl
    · exact absurd named.symm other'
    · exact absurd named other
    · exact sound.single s t first second old old' named
  · intro s found there live
    rcases live_update changed live with ⟨_, entry⟩ | earlier
    · cases entry
    · rcases cell there with ⟨rfl, rfl⟩ | ⟨_, old, _⟩
      · obtain ⟨j, waiter', live⟩ := live
        rw [changed] at live
        rcases update_cases live with ⟨_, new⟩ | ⟨here, live⟩
        · cases new
        · exact here (sound.valid.ids j i _ _ _ live held)
      · exact sound.ended s found old earlier
  · intro s found there
    rw [same]
    rcases cell there with ⟨rfl, rfl⟩ | ⟨_, old, _⟩
    · exact sound.valid.used i _ _ held
    · exact sound.used s found old

end

theorem Effect.sound (effect : Effect table operation reply after) (sound : Sound table) : Sound after := by
  have valid := effect.valid sound.valid
  cases effect with
  | reserved | uncommitted | unexited | refused | uncancelled => exact sound
  | @committed i vacant enough _ =>
    generalize same : ({ table with live := _, nextProcessId := _ } : ExitTable) = after at valid ⊢
    have count := liveCount_update (congrArg live same.symm)
    subst same
    rw [vacant] at count
    refine sound.keeps valid (Nat.le_trans (Nat.le_of_eq count) enough) (Nat.le_succ _) (fun _ _ => id) ?_
    intro processId live
    rcases live_update rfl live with ⟨_, entry⟩ | earlier
    · exact .inr (Nat.le_of_eq (congrArg Prod.fst (Option.some.inj entry)))
    · exact .inl earlier
  | exited held free => exact sound.exits valid held free rfl rfl rfl
  | dropped held full =>
    obtain ⟨r, free⟩ := sound.exists_free ⟨_, _, held⟩
    exact absurd free (full r)
  | @ready _ r record held =>
    generalize same : ({ table with records := _ } : ExitTable) = after at valid ⊢
    have count := freeRecords_update (congrArg records same.symm)
    subst same
    rw [held] at count
    refine sound.keeps valid (Nat.le_trans sound.room (Nat.le.intro count.symm)) (Nat.le_refl _) ?_ fun _ => .inl
    intro s found there
    rcases update_cases there with ⟨_, new⟩ | ⟨_, there⟩
    · cases new
    · exact there
  | blocked absent idle held | cancelled held => exact sound.rewrites valid held rfl

theorem step_sound (table : ExitTable) (operation : Operation) (sound : Sound table) :
    Sound (table.step operation).2 :=
  (step_effect table operation).sound sound

theorem run_sound (operations : List Operation) : Sound (run operations) :=
  Runs.run_invariant step_sound sound_new operations

/-- The record of a process is in the table from the end of the process until
somebody waits for it. -/
theorem step_records (record : ExitRecord) (table : ExitTable) (operation : Operation) (sound : Sound table) :
    (∃ r, (table.step operation).2.records r = some record) ↔
      (table.Live record.processId ∧ operation = .recordExit record.processId record.code record.kind) ∨
        (∃ r, table.records r = some record) ∧ ∀ thread, operation ≠ .wait record.processId thread := by
  have effect := step_effect table operation
  generalize (table.step operation).1 = reply, (table.step operation).2 = after at effect ⊢
  cases effect with
  | reserved | uncommitted | committed | uncancelled | cancelled => simp
  | unexited code kind dead =>
    simp only [ne_eq, reduceCtorEq, not_false_eq_true, implies_true, and_true]
    refine ⟨.inr, fun present => present.resolve_left ?_⟩
    rintro ⟨live, same⟩
    cases same
    exact dead live
  | exited held free =>
    rename_i processId code kind i waiter r
    simp only [ne_eq, reduceCtorEq, not_false_eq_true, implies_true, and_true]
    rw [exists_update_iff table.records fun _ cell => cell = some record]
    refine or_congr ⟨?_, ?_⟩ ⟨fun ⟨s, _, there⟩ => ⟨s, there⟩, fun ⟨s, there⟩ => ⟨s, ?_, there⟩⟩
    · rintro ⟨⟩
      exact ⟨⟨i, waiter, held⟩, rfl⟩
    · rintro ⟨_, ⟨⟩⟩
      rfl
    · rintro rfl
      rw [free] at there
      cases there
  | dropped held full =>
    obtain ⟨r, free⟩ := sound.exists_free ⟨_, _, held⟩
    exact absurd free (full r)
  | refused absent | blocked absent =>
    simp only [reduceCtorEq, and_false, false_or]
    refine ⟨fun ⟨r, there⟩ => ⟨⟨r, there⟩, fun thread same => ?_⟩, And.left⟩
    cases same
    exact absent r record there rfl
  | ready held =>
    rename_i thread r found
    rw [exists_update_iff table.records fun _ cell => cell = some record]
    simp only [reduceCtorEq, and_false, false_or]
    constructor
    · rintro ⟨s, here, there⟩
      refine ⟨⟨s, there⟩, fun other same => here (sound.single s r record found there held ?_)⟩
      injection same with named
      exact named.symm
    · rintro ⟨⟨s, there⟩, other⟩
      refine ⟨s, ?_, there⟩
      rintro rfl
      rw [there] at held
      cases held
      exact other thread rfl

theorem step_awaits (processId thread : Nat) (table : ExitTable) (operation : Operation) (sound : Sound table) :
    (table.step operation).2.Awaits processId thread ↔
      (operation = .wait processId thread ∧ (table.wait processId thread).1 = .blocked) ∨
        table.Awaits processId thread ∧
          (operation ≠ .cancelWait thread ∧ ∀ code kind, operation ≠ .recordExit processId code kind) := by
  rw [(step_effect table operation).awaits sound.valid]
  refine or_congr_left (and_congr_right ?_)
  rintro rfl
  simp [step]

def committedBy (event : Lib.Event ExitTable Operation Reply) : Option Nat :=
  match event.action, event.result with
  | .commitSpawn processId, .committed true => some processId
  | _, _ => none

def deliveredBy (event : Lib.Event ExitTable Operation Reply) : Option Nat :=
  match event.action, event.result with
  | .wait processId _, .waited (.ready _) => some processId
  | _, _ => none

structure Recalls (table : ExitTable) (past : List (Lib.Event ExitTable Operation Reply)) : Prop where
  sound : Sound table
  increasing : (past.filterMap committedBy).Pairwise (· < ·)
  committed : ∀ processId ∈ past.filterMap committedBy, processId < table.nextProcessId
  once : (past.filterMap deliveredBy).Nodup
  delivered : ∀ processId ∈ past.filterMap deliveredBy, processId < table.nextProcessId ∧
    ¬table.Live processId ∧ ∀ r record, table.records r = some record → record.processId ≠ processId

theorem Effect.settled (effect : Effect table operation reply after) (used : processId < table.nextProcessId)
    (dead : ¬table.Live processId) (absent : ∀ r record, table.records r = some record → record.processId ≠ processId) :
    ¬after.Live processId ∧ ∀ r record, after.records r = some record → record.processId ≠ processId := by
  have rewritten : ∀ {i : Fin maxLiveProcesses} {entry : Option (Nat × Option Nat)} {next : ExitTable},
      next.live = update table.live i entry → (∀ waiter, entry ≠ some (processId, waiter)) →
        ¬next.Live processId := by
    intro i entry next changed other live
    rcases live_update changed live with ⟨waiter, same⟩ | earlier
    · exact other waiter same
    · exact dead earlier
  cases effect with
  | reserved | uncommitted | unexited | refused | uncancelled => exact ⟨dead, absent⟩
  | committed vacant room _ =>
    refine ⟨rewritten rfl ?_, absent⟩
    rintro waiter same
    have named := congrArg Prod.fst (Option.some.inj same)
    omega
  | exited held free =>
    refine ⟨rewritten rfl nofun, fun r record there => ?_⟩
    rcases update_cases there with ⟨_, new⟩ | ⟨_, old⟩
    · -- the new record is about a process that was live
      cases new
      rintro rfl
      exact dead ⟨_, _, held⟩
    · exact absent r record old
  | dropped held full => exact ⟨rewritten rfl nofun, absent⟩
  | ready held =>
    refine ⟨dead, fun r record there => ?_⟩
    rcases update_cases there with ⟨_, new⟩ | ⟨_, old⟩
    · cases new
    · exact absent r record old
  | blocked _ _ held | cancelled held =>
    refine ⟨rewritten rfl ?_, absent⟩
    rintro waiter same
    cases same
    exact dead ⟨_, _, held⟩

section
variable (effect : Effect table operation reply after)
include effect

theorem Effect.committedBy (commits : committedBy ⟨table, operation, reply, after⟩ = some processId) :
    processId = table.nextProcessId ∧ processId < after.nextProcessId := by
  cases effect <;> cases commits
  exact ⟨rfl, Nat.lt_succ_self _⟩

theorem Effect.deliveredBy (delivers : deliveredBy ⟨table, operation, reply, after⟩ = some processId) :
    ∃ r record, table.records r = some record ∧ record.processId = processId ∧
      after = { table with records := update table.records r none } := by
  cases effect <;> cases delivers
  next held => exact ⟨_, _, held, rfl, rfl⟩

end

theorem step_recalls (table : ExitTable) (past : List (Lib.Event ExitTable Operation Reply)) (operation : Operation)
    (recalls : Recalls table past) :
    Recalls (table.step operation).2 (past ++ [event step table operation]) := by
  have effect := step_effect table operation
  have grown := effect.grown
  refine ⟨step_sound table operation recalls.sound, ?_, ?_, ?_, ?_⟩ <;> rw [filterMap_append]
  · refine pairwise_append.mpr ⟨recalls.increasing, ?_, fun earlier member later here => ?_⟩
    · rw [filterMap_cons]
      split <;> simp
    · rw [(effect.committedBy (by simpa [event] using here : _ = some later)).1]
      exact recalls.committed earlier member
  · intro processId member
    obtain earlier | here := mem_append.mp member
    · exact Nat.lt_of_lt_of_le (recalls.committed processId earlier) grown
    · exact (effect.committedBy (by simpa [event] using here)).2
  · refine nodup_append'.mpr ⟨recalls.once, ?_, fun processId earlier here => ?_⟩
    · rw [filterMap_cons]
      split <;> simp
    · -- the record is still there, so it was not handed out before
      obtain ⟨r, record, held, named, _⟩ := effect.deliveredBy (by simpa [event] using here)
      exact (recalls.delivered processId earlier).2.2 r record held named
  · intro processId member
    obtain earlier | here := mem_append.mp member
    · obtain ⟨used, dead, absent⟩ := recalls.delivered processId earlier
      exact ⟨Nat.lt_of_lt_of_le used grown, effect.settled used dead absent⟩
    · obtain ⟨r, record, held, rfl, same⟩ := effect.deliveredBy (by simpa [event] using here)
      rw [same]
      refine ⟨recalls.sound.used r record held, recalls.sound.ended r record held, fun s other there named => ?_⟩
      rcases update_cases there with ⟨_, new⟩ | ⟨elsewhere, there⟩
      · cases new
      · exact elsewhere (recalls.sound.single s r other record there held named)

theorem run_recalls (operations : List Operation) : Recalls (run operations) (history operations) :=
  Runs.trace_invariant step_recalls ⟨sound_new, .nil, nofun, .nil, nofun⟩ operations

theorem wait_ready_iff (sound : Sound table) (processId thread : Nat) (record : ExitRecord) :
    (table.wait processId thread).1 = .ready record ↔
      record.processId = processId ∧ ∃ r, table.records r = some record := by
  have effect := wait_effect table processId thread
  generalize (table.wait processId thread).1 = outcome, (table.wait processId thread).2 = after at effect ⊢
  cases effect with
  | ready held =>
    rename_i r found
    constructor
    · intro same
      cases same
      exact ⟨rfl, r, held⟩
    · rintro ⟨named, s, there⟩
      obtain rfl := sound.single s r record found there held named
      rw [held] at there
      cases there
      rfl
  | refused absent | blocked absent =>
    refine ⟨nofun, ?_⟩
    rintro ⟨named, r, there⟩
    exact absurd named (absent r record there)

theorem isLive_iff (table : ExitTable) (processId : Nat) : table.isLive processId = true ↔ table.Live processId := by
  simp only [isLive, any_eq_true, mem_finRange, true_and, Live]
  refine exists_congr fun i => ?_
  cases table.live i with
  | none => simp
  | some entry =>
    obtain ⟨other, waiter⟩ := entry
    simp only [Option.any_some, beq_iff_eq, Option.some.injEq, Prod.mk.injEq]
    exact ⟨fun same => ⟨waiter, same, rfl⟩, fun ⟨_, same, _⟩ => same⟩

/-- Over every sequence of calls: there is a free record for every live process, so that its end is recorded; ids are
committed in increasing order; a status is handed out at most once, by the first wait after the process has ended; a
thread waits for one process; and the thread that is woken is the one whose wait is pending. -/
theorem exits_delivered_once (operations : List Operation) :
    let table := run operations
    table.liveCount ≤ table.freeRecords ∧
      (∀ processId code kind, table.isLive processId = true → ∃ r, table.records r = none ∧
        (table.recordExit processId code kind).2.records r = some ⟨processId, code, kind⟩) ∧
      ((history operations).filterMap committedBy).Pairwise (· < ·) ∧
      (∀ processId, ((history operations).filterMap deliveredBy).count processId ≤ 1) ∧
      (∀ processId thread record, (table.wait processId thread).1 = .ready record ↔
        record.processId = processId ∧
          Runs.Since (fun earlier operation => (run earlier).isLive record.processId = true ∧
              operation = .recordExit record.processId record.code record.kind)
            (fun operation => ∀ thread, operation ≠ .wait record.processId thread) operations) ∧
      (∀ i j first second thread, table.live i = some (first, some thread) →
        table.live j = some (second, some thread) → i = j) ∧
      ∀ processId code kind thread, (table.recordExit processId code kind).1 = some thread ↔
        Runs.Since (fun earlier operation => operation = .wait processId thread ∧
            ((run earlier).wait processId thread).1 = .blocked)
          (fun operation => operation ≠ .cancelWait thread ∧
            ∀ code kind, operation ≠ .recordExit processId code kind) operations := by
  intro table
  obtain ⟨sound, increasing, _, once, _⟩ := run_recalls operations
  refine ⟨sound.room, ?_, increasing, nodup_iff_count_le_one.mp once, ?_, sound.valid.threads, ?_⟩
  · intro processId code kind live
    have effect := recordExit_effect table processId code kind
    generalize (table.recordExit processId code kind).1 = waiter, (table.recordExit processId code kind).2 = after
      at effect ⊢
    have live := (isLive_iff table processId).mp live
    cases effect with
    | unexited _ _ dead => exact absurd live dead
    | exited held free => exact ⟨_, free, update_self ..⟩
    | dropped held full =>
      obtain ⟨r, free⟩ := sound.exists_free live
      exact absurd free (full r)
  · intro processId thread record
    rw [wait_ready_iff sound]
    simp only [isLive_iff]
    refine and_congr_right fun _ => ?_
    apply Runs.since_iff (H := fun table => ∃ r, table.records r = some record) step_sound
      (step_records record) sound_new
    rintro ⟨r, there⟩
    cases there
  · intro processId code kind thread
    rw [recordExit_waiter sound.valid code kind]
    apply since_iff (H := fun table => table.Awaits processId thread) (Q := fun operation =>
      operation ≠ .cancelWait thread ∧ ∀ code kind, operation ≠ .recordExit processId code kind)
      step_sound (step_awaits processId thread) sound_new
    rintro ⟨i, there⟩
    cases there

/-- A process that has ended is not live, so a second exit wakes nobody, although
the wait for it blocked and was never cancelled. -/
theorem second_exit_wakes_nobody :
    let operations : List Operation := [.commitSpawn 2, .wait 2 0, .recordExit 2 7 .exited]
    Runs.Since (fun earlier operation => operation = .wait 2 0 ∧ ((run earlier).wait 2 0).1 = .blocked)
        (fun operation => operation ≠ .cancelWait 0) operations ∧
      ((run operations).recordExit 2 7 .exited).1 = none := by
  refine ⟨⟨[.commitSpawn 2], .wait 2 0, [.recordExit 2 7 .exited], rfl, ⟨rfl, by decide⟩, by simp⟩, by decide⟩

end Nagi.Kernel.ExitTable
