/-
**What is true of every state that an archive retains.**

`Every` says that the live state and the states of all names have a property. A copy of the live
state, a version that is made live again and the slots that are given back keep it; only a state
that is put in or a change of the live state has to be looked at.
-/

import StakingDirectory.Proofs.Archive.Versions

namespace StakingDirectory.Archive

open Operation

variable {α : Type} [Inhabited α] {archive : Archive α} {P : α → Prop}

/-- The live state and those of all names have a property. -/
structure Every (archive : Archive α) (P : α → Prop) : Prop where
  tidy : archive.Tidy none
  live : P archive.liveState
  named : ∀ {name : String} {state : α}, archive.state? name = some state → P state

theorem every_ofState {state : α} (holds : P state) : (ofState state).Every P where
  tidy := tidy_ofState state
  live := holds
  named found := by simp [state?, ofState] at found

theorem Every.mono {Q : α → Prop} (every : archive.Every P) (weaker : ∀ state, P state → Q state) :
    archive.Every Q :=
  ⟨every.tidy, weaker _ every.live, fun found => weaker _ (every.named found)⟩

/-- What every retained state has, the live state and that of any name have. -/
theorem Every.of_retained (every : archive.Every P) {state : α}
    (retained : state = archive.liveState ∨ ∃ name, archive.state? name = some state) :
    P state := by
  rcases retained with rfl | ⟨name, named⟩
  · exact every.live
  · exact every.named named

theorem Every.take (every : archive.Every P) (name : String) : (archive.take name).Every P where
  tidy := tidy_take every.tidy name
  live := by
    rw [liveState_take every.tidy]
    exact every.live
  named := by
    intro other state found
    rw [state?_take every.tidy] at found
    split at found
    · cases found
      exact every.live
    · exact every.named found

theorem Every.revert (every : archive.Every P) (name : String) :
    ((revert name).outcome archive).2.Every P := by
  cases found : archive.names[name]? with
  | none =>
    rw [outcome_revert_none found]
    exact every
  | some slot =>
    have used : archive.InUse slot := .inr ⟨name, found⟩
    have inside := every.tidy.within (.inl rfl)
    rw [outcome_revert_some found]
    refine ⟨(every.tidy.spare used).goLive (every.tidy.within used), ?_, ?_⟩
    · rw [liveState_goLive slot inside]
      have known : archive.state? name = some (archive.stateAt slot) := by
        rw [state?, found, Option.map_some]
      exact every.named known
    · intro other state there
      rw [state?_goLive slot inside] at there
      exact every.named there

theorem Every.replace (every : archive.Every P) {state : α} (holds : P state) :
    (archive.replace state).Every P where
  tidy := tidy_replace every.tidy state
  live := by
    rw [liveState_replace every.tidy]
    exact holds
  named := by
    intro name other found
    rw [state?_replace every.tidy] at found
    exact every.named found

theorem Every.withLive (every : archive.Every P) {state : α} (holds : P state) :
    (archive.withLive state).Every P where
  tidy := tidy_withLive every.tidy state
  live := by
    rw [liveState_withLive every.tidy]
    exact holds
  named := by
    intro name other found
    have : Decidable (archive.Aliased name) := Classical.dec _
    rw [state?_withLive every.tidy] at found
    split at found
    · cases found
      exact holds
    · exact every.named found

end StakingDirectory.Archive
