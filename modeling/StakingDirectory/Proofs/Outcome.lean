/-
**Outcomes of composed operations.**

* `outcome_bind` and its companions compute the outcome of an operation from those of its parts;
* `settled` is the shape of most outcomes: a check that reads the state, and a change that is made
  only once the check is passed. What holds of the state before and of every change holds of the
  state after (`settled_state`);
* `Atomic`: a refusal leaves the state as it was. Changes behind a check are so
  (`atomic_of_settled`), and operations on a part are if they are on that part (`Atomic.within`);
* `each` runs operations in turn, whatever becomes of each; `each_related` compares two such runs
  step by step, and `each_keeps` lifts what one step keeps to a run.
-/

import Mathlib.Data.List.Forall2
import StakingDirectory.Operation

namespace StakingDirectory.Operation

variable {σ τ α β γ : Type}

/-! ### Parts of operations -/

@[simp] theorem outcome_pure (value : α) (state : σ) :
    outcome (pure value : Operation σ α) state = (.ok value, state) := rfl

@[simp] theorem outcome_throw (refusal : Refusal) (state : σ) :
    outcome (throw refusal : Operation σ α) state = (.error refusal, state) := rfl

@[simp] theorem outcome_get (state : σ) :
    outcome (get : Operation σ σ) state = (.ok state, state) := rfl

@[simp] theorem outcome_set (next state : σ) :
    outcome (set next : Operation σ PUnit) state = (.ok ⟨⟩, next) := rfl

@[simp] theorem outcome_modify (change : σ → σ) (state : σ) :
    outcome (modify change : Operation σ PUnit) state = (.ok ⟨⟩, change state) := rfl

@[simp] theorem outcome_demand (check : Except Refusal α) (state : σ) :
    outcome (demand check : Operation σ α) state = (check, state) := by
  cases check <;> rfl

/-- The second of two operations runs on what the first leaves, unless the first is refused. -/
theorem outcome_bind (first : Operation σ α) (next : α → Operation σ β) (state : σ) :
    outcome (first >>= next) state =
      match outcome first state with
      | (.ok value, state) => outcome (next value) state
      | (.error refusal, state) => (.error refusal, state) := by
  show outcome (EStateM.bind first next) state = _
  unfold outcome EStateM.bind
  cases first state <;> rfl

theorem outcome_map (change : α → β) (operation : Operation σ α) (state : σ) :
    outcome (change <$> operation) state =
      ((outcome operation state).1.map change, (outcome operation state).2) := by
  show outcome (EStateM.map change operation) state = _
  unfold outcome EStateM.map
  cases operation state <;> rfl

/-- What succeeds with another result succeeds. -/
theorem exists_ok_of_isOk_map {change : α → β} {operation : Operation σ α} {state : σ}
    (passed : (outcome (change <$> operation) state).1.isOk = true) :
    ∃ value, outcome operation state = (.ok value, (outcome (change <$> operation) state).2) := by
  rw [outcome_map] at passed ⊢
  rcases given : outcome operation state with ⟨result, next⟩
  rw [given] at passed
  cases result with
  | ok value => exact ⟨value, rfl⟩
  | error refusal => cases passed

theorem outcome_within (view : σ → τ) (put : τ → σ → σ) (operation : Operation τ α) (state : σ) :
    outcome (operation.within view put) state =
      ((outcome operation (view state)).1, put (outcome operation (view state)).2 state) := by
  unfold outcome within
  cases operation (view state) <;> rfl

/-! ### Checking first -/

/-- The outcome of a change that is made once a check is passed. -/
def settled (check : Except Refusal α) (change : α → β × σ) (state : σ) : Except Refusal β × σ :=
  match check with
  | .ok value => (.ok (change value).1, (change value).2)
  | .error refusal => (.error refusal, state)

@[simp] theorem settled_ok (value : α) (change : α → β × σ) (state : σ) :
    settled (.ok value) change state = (.ok (change value).1, (change value).2) := rfl

@[simp] theorem settled_error (refusal : Refusal) (change : α → β × σ) (state : σ) :
    settled (.error refusal) change state = (.error refusal, state) := rfl

/-- A property of the state before that every checked change has as well. -/
theorem settled_state {P : σ → Prop} {check : Except Refusal α} {change : α → β × σ} {state : σ}
    (before : P state) (changed : ∀ value, check = .ok value → P (change value).2) :
    P (settled check change state).2 := by
  cases check with
  | ok value => exact changed value rfl
  | error refusal => exact before

theorem settled_eq_ok {check : Except Refusal α} {change : α → β × σ} {state next : σ}
    {result : β} :
    settled check change state = (.ok result, next) ↔
      ∃ value, check = .ok value ∧ change value = (result, next) := by
  cases check with
  | ok value => simp [Prod.ext_iff]
  | error refusal => simp

/-- What succeeds with another result has passed its check, and has made its change. -/
theorem exists_checked_of_isOk {change : α → β} {operation : Operation σ α}
    {check : Except Refusal γ} {made : γ → α × σ} {state : σ}
    (outcome_eq : operation.outcome state = settled check made state)
    (passed : (outcome (change <$> operation) state).1.isOk = true) :
    ∃ value, check = .ok value ∧ (outcome (change <$> operation) state).2 = (made value).2 := by
  obtain ⟨result, given⟩ := exists_ok_of_isOk_map passed
  rw [outcome_eq] at given
  obtain ⟨value, checked, same⟩ := settled_eq_ok.mp given
  exact ⟨value, checked, (congrArg Prod.snd same).symm⟩

/-! ### Refusals that leave no trace -/

/-- A refusal leaves the state as it was. -/
def Atomic (operation : Operation σ α) : Prop :=
  ∀ (state after : σ) (refusal : Refusal),
    operation.outcome state = (.error refusal, after) → after = state

/-- **A change behind its check is made in full or not at all.** -/
theorem atomic_of_settled {operation : Operation σ α} {check : σ → Except Refusal β}
    {change : σ → β → α × σ}
    (outcome_eq : ∀ state, operation.outcome state = settled (check state) (change state) state) :
    operation.Atomic := by
  intro state after refusal refused
  rw [outcome_eq] at refused
  cases passed : check state with
  | ok value =>
    rw [passed] at refused
    cases refused
  | error other =>
    rw [passed] at refused
    cases refused
    rfl

/-- An operation that is never refused. -/
theorem atomic_of_ok {operation : Operation σ α}
    (always : ∀ state, ∃ value, (operation.outcome state).1 = .ok value) : operation.Atomic := by
  intro state after refusal refused
  obtain ⟨value, given⟩ := always state
  rw [refused] at given
  cases given

theorem Atomic.map {operation : Operation σ α} (atomic : operation.Atomic) (change : α → β) :
    Operation.Atomic (change <$> operation) := by
  intro state after refusal refused
  rw [outcome_map] at refused
  rcases given : operation.outcome state with ⟨result, next⟩
  rw [given] at refused
  cases result with
  | ok value => cases refused
  | error other =>
    cases refused
    exact atomic _ _ _ given

/-- An operation on a part leaves the whole alone where it leaves the part alone. -/
theorem Atomic.within {operation : Operation τ α} (atomic : operation.Atomic) {view : σ → τ}
    {put : τ → σ → σ} (lawful : ∀ state, put (view state) state = state) :
    (operation.within view put).Atomic := by
  intro state after refusal refused
  rw [outcome_within] at refused
  rcases given : operation.outcome (view state) with ⟨result, part⟩
  rw [given] at refused
  cases refused
  rw [atomic _ _ _ given, lawful]

/-! ### Operations in turn -/

/-- Runs operations in turn, also after a refusal; gives all results and the last state. -/
def each : List (Operation σ α) → σ → List (Except Refusal α) × σ
  | [], state => ([], state)
  | first :: rest, state =>
    ((first.outcome state).1 :: (each rest (first.outcome state).2).1,
      (each rest (first.outcome state).2).2)

theorem each_append (earlier later : List (Operation σ α)) (state : σ) :
    each (earlier ++ later) state =
      ((each earlier state).1 ++ (each later (each earlier state).2).1,
        (each later (each earlier state).2).2) := by
  induction earlier generalizing state with
  | nil => rfl
  | cons first rest ih =>
    rw [List.cons_append, each, ih]
    rfl

/-- **A relation that every pair of steps keeps, with the same result, is kept by whole runs.** -/
theorem each_related {ι : Type} {R : σ → τ → Prop} {left : ι → Operation σ α}
    {right : ι → Operation τ α}
    (step : ∀ item {one other}, R one other →
      ((left item).outcome one).1 = ((right item).outcome other).1 ∧
        R ((left item).outcome one).2 ((right item).outcome other).2)
    (items : List ι) {one : σ} {other : τ} (related : R one other) :
    (each (items.map left) one).1 = (each (items.map right) other).1 ∧
      R (each (items.map left) one).2 (each (items.map right) other).2 := by
  induction items generalizing one other with
  | nil => exact ⟨rfl, related⟩
  | cons item rest ih =>
    obtain ⟨same, next⟩ := step item related
    obtain ⟨results, last⟩ := ih next
    exact ⟨congrArg₂ List.cons same results, last⟩

/-- **A property that every step keeps is kept by whole runs.** -/
theorem each_keeps {ι : Type} {P : σ → Prop} {operation : ι → Operation σ α}
    (step : ∀ item {state}, P state → P ((operation item).outcome state).2) (items : List ι)
    {state : σ} (holds : P state) : P (each (items.map operation) state).2 := by
  induction items generalizing state with
  | nil => exact holds
  | cons item rest ih => exact ih (step item holds)

end StakingDirectory.Operation

namespace StakingDirectory

/-! ### Checks in turn -/

section Checks

variable {ε α β : Type}

@[simp] theorem ok_bind (value : α) (next : α → Except ε β) :
    (Except.ok value >>= next) = next value := rfl

@[simp] theorem error_bind (fault : ε) (next : α → Except ε β) :
    (Except.error fault >>= next) = .error fault := rfl

theorem bind_eq_ok {first : Except ε α} {next : α → Except ε β} {value : β} :
    (first >>= next) = .ok value ↔ ∃ between, first = .ok between ∧ next between = .ok value := by
  cases first <;> simp

theorem isOk_map (change : α → β) (result : Except ε α) :
    (result.map change).isOk = result.isOk := by
  cases result <;> rfl

theorem isSome_toOption (result : Except ε α) : result.toOption.isSome = result.isOk := by
  cases result <;> rfl

/-- Two checks in turn, which give both their values. -/
theorem both_eq_ok {first : Except ε α} {second : α → Except ε β} {one : α} {other : β} :
    (do let one ← first; let other ← second one; return (one, other)) = .ok (one, other) ↔
      first = .ok one ∧ second one = .ok other := by
  simp only [bind_eq_ok]
  constructor
  · rintro ⟨_, passed, _, also, same⟩
    cases same
    exact ⟨passed, also⟩
  · rintro ⟨passed, also⟩
    exact ⟨one, passed, other, also, rfl⟩

/-- A check of all items of a list is passed if each item passes it. -/
theorem mapM_eq_ok {check : α → Except ε β} {items : List α} {values : List β} :
    items.mapM check = .ok values ↔
      List.Forall₂ (fun item value => check item = .ok value) items values := by
  induction items generalizing values with
  | nil =>
    rw [List.mapM_nil, List.forall₂_nil_left_iff]
    show Except.ok [] = .ok values ↔ _
    rw [Except.ok.injEq]
    exact eq_comm
  | cons item rest ih =>
    rw [List.mapM_cons, bind_eq_ok, List.forall₂_cons_left_iff]
    constructor
    · rintro ⟨value, passed, others⟩
      obtain ⟨rest', restPassed, same⟩ := bind_eq_ok.mp others
      cases same
      exact ⟨value, rest', passed, ih.mp restPassed, rfl⟩
    · rintro ⟨value, rest', passed, restPassed, rfl⟩
      exact ⟨value, passed, bind_eq_ok.mpr ⟨rest', ih.mpr restPassed, rfl⟩⟩

/-- **A check of all items of a list fails as the first item does that fails.** -/
theorem mapM_eq_error {check : α → Except ε β} {objection : α → Option ε}
    (objects : ∀ item fault, check item = .error fault ↔ objection item = some fault)
    {items : List α} {fault : ε} :
    items.mapM check = .error fault ↔ items.findSome? objection = some fault := by
  induction items with
  | nil =>
    rw [List.mapM_nil]
    exact iff_of_false (fun failed => by cases failed) (fun found => by cases found)
  | cons item rest ih =>
    rw [List.mapM_cons, List.findSome?_cons]
    cases checked : check item with
    | error other => rw [(objects item other).mp checked, error_bind, Except.error.injEq,
        Option.some.injEq]
    | ok value =>
      have passed : objection item = none := by
        refine Option.eq_none_iff_forall_ne_some.mpr fun other found => ?_
        rw [(objects item other).mpr found] at checked
        cases checked
      rw [passed, ok_bind, ← ih]
      cases rest.mapM check with
      | error other => rfl
      | ok others => exact iff_of_false (fun failed => by cases failed) (fun failed => by cases failed)

/-- Where a check of all items is passed, there is no objection to any. -/
theorem findSome?_of_mapM_eq_ok {check : α → Except ε β} {objection : α → Option ε}
    (objects : ∀ item fault, check item = .error fault ↔ objection item = some fault)
    {items : List α} {values : List β} (passed : items.mapM check = .ok values) :
    items.findSome? objection = none := by
  refine Option.eq_none_iff_forall_ne_some.mpr fun fault found => ?_
  rw [(mapM_eq_error objects).mpr found] at passed
  cases passed

/-- The items that pass a check, beside what they pass it with, where all do. -/
theorem filterMap_toOption_eq_zip {check : α → Except ε β} {items : List α} {values : List β}
    (passed : List.Forall₂ (fun item value => check item = .ok value) items values) :
    (items.filterMap fun item => (check item).toOption.map fun value => (value, item)) =
      values.zip items := by
  induction passed with
  | nil => rfl
  | @cons item value rest rest' first _ ih =>
    rw [List.filterMap_cons, first, ih]
    rfl

end Checks

end StakingDirectory
