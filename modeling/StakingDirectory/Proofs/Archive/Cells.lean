/-
**An archive is a plain map of named cells.**

* `Cells` is what an archive means: a state for each name, and a live state that is either apart from
  all names or the cell of a name. There are no slots, and nothing is ever given back;
* `Matches` relates an archive to cells, and `matches_move` keeps it for every operation;
* `refines_cells`: whatever is done to an archive, it cannot be told from the cells. A name
  that is reverted to brings back the state it was last taken of, with those changes that were made
  to it while it was live under that name.
-/

import StakingDirectory.Proofs.Archive.Versions

namespace StakingDirectory

open Operation

/-! ### Cells -/

/-- Where the live state is. -/
inductive Whereabouts (α : Type) where
  /-- It is apart from all names. -/
  | apart (state : α)
  /-- It is the cell of a name. -/
  | cell (name : String)

/-- States under names, and a live one. -/
structure Cells (α : Type) where
  named : Std.ExtTreeMap String α := ∅
  live : Whereabouts α

/-- What can be done to versions of a state. -/
inductive Move (α : Type) where
  | take (name : String)
  | revert (name : String)
  | replace (state : α)
  | change (change : α → α)

namespace Cells

variable {α : Type} [Inhabited α]

/-- One state, which is live and has no name. -/
def ofState (state : α) : Cells α := { live := .apart state }

/-- The live state is the cell of a name. -/
def isAt (cells : Cells α) (name : String) : Bool :=
  match cells.live with
  | .apart _ => false
  | .cell other => name = other

/-- The live state. -/
def liveState (cells : Cells α) : α :=
  match cells.live with
  | .apart state => state
  | .cell name => cells.named[name]?.getD default

/-- The names in their order. -/
def nameList (cells : Cells α) : List String :=
  cells.named.keys

/-- Stores a copy of the live state under a name. The live state is no longer the cell of that
name. -/
def take (name : String) (cells : Cells α) : Cells α :=
  { named := cells.named.insert name cells.liveState
    live := if cells.isAt name then .apart cells.liveState else cells.live }

/-- Makes the cell of a name live. -/
def revert (name : String) : Operation (Cells α) Unit := do
  let cells ← get
  if name ∈ cells.named then set { cells with live := .cell name }
  else throw (.noSuchSnapshot name)

/-- Makes another state live, apart from all names. -/
def replace (state : α) (cells : Cells α) : Cells α :=
  { cells with live := .apart state }

/-- Changes the live state, and with it the cell that it is. -/
def change (change : α → α) (cells : Cells α) : Cells α :=
  match cells.live with
  | .apart state => { cells with live := .apart (change state) }
  | .cell name => { cells with named := cells.named.modify name change }

omit [Inhabited α] in
@[simp] theorem isAt_change (cells : Cells α) (wanted : α → α) (name : String) :
    (cells.change wanted).isAt name = cells.isAt name := by
  unfold change isAt
  cases cells.live <;> rfl

omit [Inhabited α] in
theorem named_change (cells : Cells α) (wanted : α → α) (name : String) :
    (cells.change wanted).named[name]? =
      if cells.isAt name then cells.named[name]?.map wanted else cells.named[name]? := by
  unfold change isAt
  cases cells.live with
  | apart state => rfl
  | cell other =>
    show (cells.named.modify other wanted)[name]? = _
    rw [Std.ExtTreeMap.getElem?_modify]
    by_cases here : name = other
    · subst here
      simp
    · simp [here, Ne.symm here]

theorem liveState_change {cells : Cells α} (wanted : α → α)
    (held : ∀ name, cells.isAt name = true → ∃ state, cells.named[name]? = some state) :
    (cells.change wanted).liveState = wanted cells.liveState := by
  unfold change liveState
  unfold isAt at held
  cases live : cells.live with
  | apart state => rfl
  | cell name =>
    rw [live] at held
    obtain ⟨state, found⟩ := held name (by simp)
    simp [found]

omit [Inhabited α] in
/-- **A name that is not there is refused, and nothing is changed.** -/
theorem outcome_revert (name : String) (cells : Cells α) :
    (revert name).outcome cells =
      if name ∈ cells.named then (.ok (), { cells with live := .cell name })
      else (.error (.noSuchSnapshot name), cells) := by
  unfold revert
  simp only [outcome_bind, outcome_get]
  split <;> rfl

/-- A move of cells. -/
def move : Move α → Operation (Cells α) Unit
  | .take name => modify (take name)
  | .revert name => revert name
  | .replace state => modify (replace state)
  | .change wanted => modify (change wanted)

/-- The moves in turn on one state. -/
def run (initial : α) (moves : List (Move α)) : List (Except Refusal Unit) × Cells α :=
  each (moves.map move) (ofState initial)

/-- The change, if a move is one, that is made to the cell of a name. -/
def madeAt (cells : Cells α) (name : String) : Move α → List (α → α)
  | .change wanted => if cells.isAt name then [wanted] else []
  | _ => []

/-- The changes, among moves, that are made to the cell of a name. -/
def changesAt (name : String) : List (Move α) → Cells α → List (α → α)
  | [], _ => []
  | first :: rest, cells =>
    cells.madeAt name first ++ changesAt name rest ((move first).outcome cells).2

end Cells

/-- A move of an archive. -/
def Archive.move {α : Type} [Inhabited α] : Move α → Operation (Archive α) Unit
  | .take name => modify (Archive.take name)
  | .revert name => Archive.revert name
  | .replace state => modify (Archive.replace state)
  | .change wanted => modify fun archive => archive.withLive (wanted archive.liveState)

/-- The moves in turn on the archive of one state. -/
def Archive.run {α : Type} [Inhabited α] (initial : α) (moves : List (Move α)) :
    List (Except Refusal Unit) × Archive α :=
  each (moves.map Archive.move) (ofState initial)

namespace Archive

variable {α : Type} [Inhabited α] {archive : Archive α} {cells : Cells α}

/-! ### The relation -/

/-- **The archive shows what the cells hold.** -/
structure Matches (archive : Archive α) (cells : Cells α) : Prop where
  tidy : archive.Tidy none
  states : ∀ name : String, archive.state? name = cells.named[name]?
  live : archive.liveState = cells.liveState
  aliased : ∀ name : String, archive.Aliased name ↔ cells.isAt name = true

theorem matches_ofState (state : α) : Matches (ofState state) (.ofState state) where
  tidy := tidy_ofState state
  states name := by simp [state?, ofState, Cells.ofState]
  live := rfl
  aliased name := by simp [Aliased, ofState, Cells.isAt, Cells.ofState]

theorem Matches.take (matched : Matches archive cells) (name : String) :
    Matches (archive.take name) (cells.take name) where
  tidy := tidy_take matched.tidy name
  states other := by
    rw [state?_take matched.tidy, matched.live, matched.states]
    simp [Cells.take, Std.ExtTreeMap.getElem?_insert]
  live := by
    rw [liveState_take matched.tidy, matched.live]
    unfold Cells.take
    by_cases here : cells.isAt name = true
    · rw [if_pos here]
      rfl
    · rw [if_neg here]
      -- The cell of another name was not touched.
      unfold Cells.liveState
      unfold Cells.isAt at here
      cases live : cells.live with
      | apart state => rfl
      | cell other =>
        rw [live] at here
        have different : name ≠ other := by simpa using here
        simp [Std.ExtTreeMap.getElem?_insert, different]
  aliased other := by
    rw [aliased_take matched.tidy, matched.aliased]
    unfold Cells.take
    by_cases here : cells.isAt name = true
    · rw [if_pos here]
      unfold Cells.isAt at here ⊢
      cases live : cells.live with
      | apart state => simp
      | cell place =>
        rw [live] at here
        simp only [decide_eq_true_eq] at here ⊢
        subst here
        simp [eq_comm]
    · rw [if_neg here]
      refine ⟨fun both => both.2, fun there => ⟨?_, there⟩⟩
      rintro rfl
      exact here there

/-- The slot of a name goes live as its cell does. -/
theorem Matches.goLive (matched : Matches archive cells) {name : String} {slot : Nat}
    (found : archive.names[name]? = some slot) :
    Matches (archive.goLive slot) { cells with live := .cell name } where
  tidy := (matched.tidy.spare (.inr ⟨name, found⟩)).goLive (matched.tidy.within (.inr ⟨name, found⟩))
  states other := by
    rw [state?_goLive slot (matched.tidy.within (.inl rfl))]
    exact matched.states other
  live := by
    rw [liveState_goLive slot (matched.tidy.within (.inl rfl))]
    show _ = cells.named[name]?.getD default
    rw [← matched.states name, state?, found, Option.map_some, Option.getD_some]
  aliased other := by
    rw [aliased_goLive]
    show _ ↔ decide (other = name) = true
    rw [decide_eq_true_eq]
    constructor
    · exact fun there => matched.tidy.apart there found
    · rintro rfl
      exact found

theorem Matches.replace (matched : Matches archive cells) (state : α) :
    Matches (archive.replace state) (cells.replace state) where
  tidy := tidy_replace matched.tidy state
  states name := by
    rw [state?_replace matched.tidy, matched.states]
    rfl
  live := liveState_replace matched.tidy state
  aliased name := iff_of_false (aliased_replace matched.tidy state name) Bool.false_ne_true

/-- The cell that is live holds the live state. -/
theorem Matches.held (matched : Matches archive cells) {name : String}
    (here : cells.isAt name = true) : cells.named[name]? = some cells.liveState := by
  have named : archive.names[name]? = some archive.live := (matched.aliased name).mpr here
  rw [← matched.states, state?, named, Option.map_some, ← matched.live]
  rfl

theorem Matches.change (matched : Matches archive cells) (wanted : α → α) :
    Matches (archive.withLive (wanted archive.liveState)) (cells.change wanted) where
  tidy := tidy_withLive matched.tidy _
  states name := by
    have : Decidable (archive.Aliased name) := decidable_of_iff _ (matched.aliased name).symm
    rw [state?_withLive matched.tidy, matched.live, matched.states, Cells.named_change]
    simp only [matched.aliased]
    by_cases here : cells.isAt name = true
    · rw [if_pos here, if_pos here, matched.held here, Option.map_some]
    · rw [if_neg here, if_neg here]
  live := by
    rw [liveState_withLive matched.tidy, matched.live, Cells.liveState_change]
    exact fun name here => ⟨_, matched.held here⟩
  aliased name := by
    rw [Cells.isAt_change]
    exact matched.aliased name

/-! ### Whole runs -/

/-- **Every move has the same result on both, and leaves them in the relation.** -/
theorem matches_move (move : Move α) {archive : Archive α} {cells : Cells α}
    (matched : Matches archive cells) :
    ((Archive.move move).outcome archive).1 = ((Cells.move move).outcome cells).1 ∧
      Matches ((Archive.move move).outcome archive).2 ((Cells.move move).outcome cells).2 := by
  cases move with
  | take name => exact ⟨rfl, matched.take name⟩
  | replace state => exact ⟨rfl, matched.replace state⟩
  | change wanted => exact ⟨rfl, matched.change wanted⟩
  | revert name =>
    simp only [Archive.move, Cells.move]
    have there : name ∈ cells.named ↔ ∃ slot, archive.names[name]? = some slot := by
      rw [Std.ExtTreeMap.mem_iff_isSome_getElem?, ← matched.states, state?, Option.isSome_map,
        Option.isSome_iff_exists]
    rw [Cells.outcome_revert]
    by_cases known : name ∈ cells.named
    · obtain ⟨slot, found⟩ := there.mp known
      rw [if_pos known, outcome_revert_some found]
      exact ⟨rfl, matched.goLive found⟩
    · have missing : archive.names[name]? = none := by
        rw [Option.eq_none_iff_forall_ne_some]
        exact fun slot found => known (there.mpr ⟨slot, found⟩)
      rw [if_neg known, outcome_revert_none missing]
      exact ⟨rfl, matched⟩

theorem matches_run (initial : α) (moves : List (Move α)) :
    (run initial moves).1 = (Cells.run initial moves).1 ∧
      Matches (run initial moves).2 (Cells.run initial moves).2 :=
  each_related (fun move _ _ => matches_move move) moves (matches_ofState initial)

/-- The names are the same. -/
theorem Matches.nameList (matched : Matches archive cells) :
    archive.nameList = cells.nameList := by
  have same : cells.named = archive.names.map fun _ slot => archive.stateAt slot := by
    refine Std.ExtTreeMap.ext_getElem? fun {name} => ?_
    rw [← matched.states, Std.ExtTreeMap.getElem?_map]
    rfl
  rw [Cells.nameList, same, Std.ExtTreeMap.keys_map, Archive.nameList]

/-- **A move changes the state of a name only by a change to its cell**, or takes it anew. -/
theorem named_move {name : String} {state : α} {move : Move α} (untaken : move ≠ .take name)
    (held : cells.named[name]? = some state) :
    ((Cells.move move).outcome cells).2.named[name]? =
      some ((cells.madeAt name move).foldl (fun state wanted => wanted state) state) := by
  cases move with
  | take other =>
    have different : other ≠ name := fun same => untaken (by rw [same])
    show (cells.named.insert other cells.liveState)[name]? = some state
    simp [Std.ExtTreeMap.getElem?_insert, different, held]
  | revert other =>
    rw [Cells.move, Cells.outcome_revert]
    split <;> exact held
  | replace other => exact held
  | change wanted =>
    show (cells.change wanted).named[name]? = _
    rw [Cells.named_change, held, Cells.madeAt]
    split <;> rfl

theorem named_moves {name : String} {state : α} (moves : List (Move α))
    (untaken : ∀ move ∈ moves, move ≠ .take name) {cells : Cells α}
    (held : cells.named[name]? = some state) :
    (each (moves.map Cells.move) cells).2.named[name]? =
      some ((Cells.changesAt name moves cells).foldl (fun state wanted => wanted state) state) := by
  induction moves generalizing cells state with
  | nil => exact held
  | cons move rest ih =>
    have next := named_move (untaken move List.mem_cons_self) held
    have last := ih (fun other member => untaken other (List.mem_cons_of_mem move member)) next
    rw [List.map_cons, each, Cells.changesAt, List.foldl_append]
    exact last

/-- A run of cells that was taken under a name, and went on without taking it again. -/
theorem named_run (initial : α) (earlier : List (Move α)) (name : String) (later : List (Move α))
    (untaken : ∀ move ∈ later, move ≠ .take name) :
    (Cells.run initial (earlier ++ Move.take name :: later)).2.named[name]? =
      some ((Cells.changesAt name later (Cells.run initial (earlier ++ [Move.take name])).2).foldl
        (fun state wanted => wanted state) (Cells.run initial earlier).2.liveState) := by
  unfold Cells.run
  have held : (each ((earlier ++ [Move.take name]).map Cells.move)
      (Cells.ofState initial)).2.named[name]? =
        some (each (earlier.map Cells.move) (Cells.ofState initial)).2.liveState := by
    rw [List.map_append, each_append]
    exact Std.ExtTreeMap.getElem?_insert_self
  have kept := named_moves later untaken held
  rw [List.append_cons, List.map_append, each_append]
  exact kept

/-- **An archive refines named cells.** For every first state and all moves, an archive gives the
same results as the cells, has the same live state and the same names, and brings the same states
back. What a name brings back is the state it was last taken of, with exactly those changes that
were made since then while the live state was the cell of that name. -/
theorem refines_cells (initial : α) :
    (∀ moves : List (Move α),
      (run initial moves).1 = (Cells.run initial moves).1 ∧
      (run initial moves).2.liveState = (Cells.run initial moves).2.liveState ∧
      (run initial moves).2.nameList = (Cells.run initial moves).2.nameList ∧
      ∀ name : String,
        ((revert name).outcome (run initial moves).2).1 =
          ((Cells.revert name).outcome (Cells.run initial moves).2).1 ∧
        ((revert name).outcome (run initial moves).2).2.liveState =
          ((Cells.revert name).outcome (Cells.run initial moves).2).2.liveState) ∧
    ∀ (earlier : List (Move α)) (name : String) (later : List (Move α)),
      (∀ move ∈ later, move ≠ .take name) →
      ((revert name).outcome (run initial (earlier ++ .take name :: later)).2).1 = .ok () ∧
      ((revert name).outcome (run initial (earlier ++ .take name :: later)).2).2.liveState =
        (Cells.changesAt name later (Cells.run initial (earlier ++ [.take name])).2).foldl
          (fun state wanted => wanted state) (run initial earlier).2.liveState := by
  constructor
  · intro moves
    obtain ⟨results, matched⟩ := matches_run initial moves
    refine ⟨results, matched.live, matched.nameList, fun name => ?_⟩
    obtain ⟨result, reverted⟩ := matches_move (.revert name) matched
    exact ⟨result, reverted.live⟩
  · intro earlier name later untaken
    have matched := (matches_run initial (earlier ++ .take name :: later)).2
    have kept := named_run initial earlier name later untaken
    have known := (Std.ExtTreeMap.mem_iff_isSome_getElem?).mpr (Option.isSome_of_eq_some kept)
    have outcome := Cells.outcome_revert name
      (Cells.run initial (earlier ++ .take name :: later)).2
    rw [if_pos known] at outcome
    obtain ⟨result, reverted⟩ := matches_move (.revert name) matched
    refine ⟨result.trans ?_, reverted.live.trans ?_⟩
    · rw [Cells.move, outcome]
    · rw [Cells.move, outcome, (matches_run initial earlier).2.live]
      show Option.getD _ default = _
      rw [kept, Option.getD_some]

end Archive

end StakingDirectory
