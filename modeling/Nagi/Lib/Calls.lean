import Nagi.Lib.Checks

/-! Calls that return a value or an error and leave a state either way. -/

namespace Nagi.Lib

open List

variable {ε σ α β : Type}

def settle (call : EStateM ε σ α) (state : σ) : Except ε α × σ :=
  match call state with
  | .ok value after => (.ok value, after)
  | .error error after => (.error error, after)

theorem bind_apply (call : EStateM ε σ α) (next : α → EStateM ε σ β) (state : σ) :
    (call >>= next) state = match call state with
      | .ok value after => next value after
      | .error error after => .error error after := rfl

variable {call : EStateM ε σ α} {state after : σ} {value : α}

theorem bind_ok (done : call state = .ok value after) (next : α → EStateM ε σ β) :
    (call >>= next) state = next value after := by
  rw [bind_apply, done]

theorem bind_error {error : ε} (failed : call state = .error error after) (next : α → EStateM ε σ β) :
    (call >>= next) state = .error error after := by
  rw [bind_apply, failed]

variable {next : α → EStateM ε σ β}

theorem bind_eq_ok_iff {value : β} :
    (call >>= next) state = .ok value after ↔ ∃ mid between, call state = .ok mid between ∧
      next mid between = .ok value after := by
  rw [bind_apply]
  cases call state <;> simp

theorem pure_apply (value : α) (state : σ) : (pure value : EStateM ε σ α) state = .ok value state := rfl

theorem throw_apply (error : ε) (state : σ) : (throw error : EStateM ε σ α) state = .error error state := rfl

def demand (answer : Except ε α) : EStateM ε σ α :=
  match answer with
  | .ok value => pure value
  | .error error => throw error

variable {answer : Except ε α}

theorem demand_ok (answered : answer = .ok value) (state : σ) : demand answer state = .ok value state := by
  rw [answered]
  rfl

theorem demand_eq_ok_iff : demand answer state = .ok value after ↔ answer = .ok value ∧ state = after := by
  cases answer <;> simp [demand, pure_apply, throw_apply]

theorem demand_bind (answered : answer = .ok value) (next : α → EStateM ε σ β) :
    (demand answer >>= next) = next value := by
  rw [answered]
  rfl

theorem demand_error {error : ε} (answered : answer = .error error) (state : σ) :
    demand answer state = .error error state := by
  rw [answered]
  rfl

/-- A postcondition on the answer and on the state that is left. -/
def Ensures (call : EStateM ε σ α) (state : σ) (post : Except ε α → σ → Prop) : Prop :=
  post (settle call state).1 (settle call state).2

namespace Ensures

variable {post : Except ε α → σ → Prop}

theorem of_ok {after : σ} {value : α} (done : call state = .ok value after) (holds : post (.ok value) after) :
    Ensures call state post := by
  simpa [Ensures, settle, done] using holds

theorem of_error {after : σ} {error : ε} (failed : call state = .error error after)
    (holds : post (.error error) after) : Ensures call state post := by
  simpa [Ensures, settle, failed] using holds

theorem bind {mid : Except ε α → σ → Prop} {post : Except ε β → σ → Prop}
    (first : Ensures call state mid) (ok : ∀ value after, mid (.ok value) after → Ensures (next value) after post)
    (failed : ∀ error after, mid (.error error) after → post (.error error) after) :
    Ensures (call >>= next) state post := by
  simp only [Ensures, settle, bind_apply] at first ok ⊢
  cases answer : call state with
  | ok value after =>
    rw [answer] at first
    exact ok value after first
  | error error after =>
    rw [answer] at first
    exact failed error after first

theorem ok_bind {after : σ} {value : α} {post : Except ε β → σ → Prop}
    (done : call state = .ok value after) (rest : Ensures (next value) after post) :
    Ensures (call >>= next) state post := by
  rw [Ensures, settle, bind_ok done]
  exact rest

theorem demand_bind {answer : Except ε α} {Good : ε → Prop} {Mid : α → Prop}
    {post : Except ε β → σ → Prop} (meets : Checks.Meets Good Mid answer)
    (failed : ∀ error, Good error → post (.error error) state)
    (passed : ∀ value, Mid value → Ensures (next value) state post) : Ensures (demand answer >>= next) state post := by
  cases answer with
  | error error => exact .of_error rfl (failed error (meets.failed error rfl))
  | ok value => exact passed value (meets.passed value rfl)

theorem mono {weak strong : Except ε α → σ → Prop} (ensures : Ensures call state strong)
    (weaker : ∀ result after, strong result after → weak result after) : Ensures call state weak :=
  weaker _ _ ensures

end Ensures

section Gives
variable {τ : Type} {view : σ → τ}

/-- From every state the call gives the answer, and a part of the state stays as it is. -/
def Gives (view : σ → τ) (call : EStateM ε σ α) (answer : Except ε α) : Prop :=
  ∀ state, (settle call state).1 = answer ∧ view (settle call state).2 = view state

theorem Gives.apply (gives : Gives view call (.ok value)) (state : σ) :
    ∃ after, call state = .ok value after ∧ view after = view state := by
  obtain ⟨done, kept⟩ := gives state
  cases called : call state with
  | error error after => simp [settle, called] at done
  | ok given after =>
    simp only [settle, called, Except.ok.injEq] at done kept
    exact ⟨after, by rw [done], kept⟩

theorem Gives.bind {answer : Except ε β} (first : Gives view call (.ok value)) (rest : Gives view (next value) answer) :
    Gives view (call >>= next) answer := by
  intro state
  obtain ⟨after, called, kept⟩ := first.apply state
  obtain ⟨answered, same⟩ := rest after
  rw [settle, bind_ok called]
  exact ⟨answered, same.trans kept⟩

theorem Gives.pure (value : α) : Gives view (Pure.pure value : EStateM ε σ α) (.ok value) := fun _ => ⟨rfl, rfl⟩

theorem Gives.throw (error : ε) : Gives view (MonadExcept.throw error : EStateM ε σ α) (.error error) :=
  fun _ => ⟨rfl, rfl⟩

end Gives

section Keeps
variable {τ : Type} {view : σ → τ} {Inv : σ → Prop} {Good : ε → Prop} {Mid : α → Prop} {Post : β → Prop}

/-- The call keeps an invariant and a part of the state, and ends with a good error or with a value that meets a
condition. -/
def Keeps (view : σ → τ) (Inv : σ → Prop) (Good : ε → Prop) (Post : α → Prop) (call : EStateM ε σ α) : Prop :=
  ∀ state, Inv state → Ensures call state fun result after =>
    Inv after ∧ view after = view state ∧ Checks.Meets Good Post result

namespace Keeps

theorem pure {value : α} (holds : Mid value) : Keeps view Inv Good Mid (Pure.pure value : EStateM ε σ α) :=
  fun _ kept => .of_ok rfl ⟨kept, rfl, .ok holds⟩

theorem throw {error : ε} (good : Good error) : Keeps view Inv Good Mid (MonadExcept.throw error : EStateM ε σ α) :=
  fun _ kept => .of_error rfl ⟨kept, rfl, .error good⟩

theorem bind (first : Keeps view Inv Good Mid call)
    (rest : ∀ value, Mid value → Keeps view Inv Good Post (next value)) :
    Keeps view Inv Good Post (call >>= next) := by
  intro state kept
  refine (first state kept).bind (fun value after mid => ?_) fun error after mid => ?_
  · refine (rest value (mid.2.2.passed value rfl) after mid.1).mono fun result last post => ?_
    exact ⟨post.1, post.2.1.trans mid.2.1, post.2.2⟩
  · exact ⟨mid.1, mid.2.1, .error (mid.2.2.failed error rfl)⟩

theorem demand_bind {answer : Except ε α} (meets : Checks.Meets Good Mid answer)
    (rest : ∀ value, Mid value → Keeps view Inv Good Post (next value)) :
    Keeps view Inv Good Post (demand answer >>= next) := by
  cases answer with
  | error error => exact .throw (meets.failed error rfl)
  | ok value => exact rest value (meets.passed value rfl)

theorem mono {Weak : α → Prop} (keeps : Keeps view Inv Good Mid call) (weaker : ∀ value, Mid value → Weak value) :
    Keeps view Inv Good Weak call :=
  fun state kept => (keeps state kept).mono fun _ _ post => ⟨post.1, post.2.1, post.2.2.mono weaker⟩

end Keeps

end Keeps

variable {P : List α → σ → Prop}

/-- A loop whose invariant speaks of the items that are done: it goes through exactly if every item is good. -/
theorem forM_outcome (items : List α) (body : α → EStateM ε σ Unit) (state : σ) {G : α → Prop} {R : ε → Prop}
    (step : ∀ done item rest state, items = done ++ item :: rest → P done state →
      (G item ∧ ∃ after, body item state = .ok () after ∧ P (done ++ [item]) after) ∨
      (¬G item ∧ ∃ error after, body item state = .error error after ∧ R error))
    (start : P [] state) :
    ((∀ item ∈ items, G item) ∧ ∃ after, items.forM body state = .ok () after ∧ P items after) ∨
      ((∃ item ∈ items, ¬G item) ∧ ∃ error after, items.forM body state = .error error after ∧ R error) := by
  suffices rounds : ∀ rest done state, items = done ++ rest → P done state →
      ((∀ item ∈ rest, G item) ∧ ∃ after, rest.forM body state = .ok () after ∧ P items after) ∨
        ((∃ item ∈ rest, ¬G item) ∧ ∃ error after, rest.forM body state = .error error after ∧ R error) from
    rounds items [] state rfl start
  intro rest
  induction rest with
  | nil =>
    intro done state split holds
    rw [append_nil] at split
    exact .inl ⟨nofun, state, rfl, split ▸ holds⟩
  | cons item rest ih =>
    intro done state split holds
    obtain ⟨good, after, ran, holdsAfter⟩ | ⟨bad, error, after, failed, reported⟩ :=
      step done item rest state split holds
    · have later := ih (done ++ [item]) after (by rw [split, append_assoc, singleton_append]) holdsAfter
      rw [List.forM, bind_ok ran]
      refine later.imp (fun ⟨allG, ended⟩ => ⟨forall_mem_cons.mpr ⟨good, allG⟩, ended⟩) ?_
      rintro ⟨⟨other, member, bad⟩, ended⟩
      exact ⟨⟨other, mem_cons_of_mem _ member, bad⟩, ended⟩
    · refine .inr ⟨⟨item, mem_cons_self, bad⟩, error, after, ?_, reported⟩
      rw [List.forM, bind_error failed]

theorem forM_ok (items : List α) (body : α → EStateM ε σ Unit) (state : σ)
    (step : ∀ done item rest state, items = done ++ item :: rest → P done state →
      ∃ after, body item state = .ok () after ∧ P (done ++ [item]) after)
    (start : P [] state) : ∃ after, items.forM body state = .ok () after ∧ P items after := by
  have outcome := forM_outcome items body state (G := fun _ => True) (R := fun _ : ε => False)
    (fun done item rest state split holds => .inl ⟨trivial, step done item rest state split holds⟩) start
  obtain ⟨_, ended⟩ | ⟨_, _, _, _, impossible⟩ := outcome
  · exact ended
  · exact impossible.elim

theorem forM_invariant {items : List α} {body : α → EStateM ε σ Unit} (ran : items.forM body state = .ok () after)
    (step : ∀ done item rest state after, items = done ++ item :: rest → P done state →
      body item state = .ok () after → P (done ++ [item]) after)
    (start : P [] state) : P items after := by
  suffices rounds : ∀ rest done state, items = done ++ rest → P done state → rest.forM body state = .ok () after →
      P items after from rounds items [] state rfl start ran
  intro rest
  induction rest with
  | nil =>
    intro done state split holds ended
    cases ended
    rw [split, append_nil]
    exact holds
  | cons item rest ih =>
    intro done state split holds ended
    obtain ⟨_, between, first, later⟩ := bind_eq_ok_iff.mp ended
    refine ih (done ++ [item]) between ?_ (step done item rest state between split holds first) later
    rw [split, append_assoc, singleton_append]

theorem forM_congr {items : List α} {first second : α → EStateM ε σ Unit}
    (same : ∀ item ∈ items, first item = second item) : items.forM first = items.forM second := by
  induction items with
  | nil => rfl
  | cons item rest ih =>
    obtain ⟨here, later⟩ := forall_mem_cons.mp same
    rw [List.forM, List.forM, here, ih later]

theorem forM_flatMap (items : List α) (group : α → List β) (body : β → EStateM ε σ Unit) :
    (items.flatMap group).forM body = items.forM fun item => (group item).forM body := by
  induction items with
  | nil => rfl
  | cons item rest ih =>
    simp only [forM_eq_forM] at ih ⊢
    rw [flatMap_cons, forM_append, ih, forM_cons]

end Nagi.Lib
