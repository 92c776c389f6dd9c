/-
**What the operations of an archive do.**

Each of `take`, `revert`, `replace` and a change of the live state keeps the archive tidy, and for
each there is what can be seen of it afterwards: the live state, the states of the names, and the
names that the live slot has.
-/

import StakingDirectory.Proofs.Archive.Slots

namespace StakingDirectory.Archive

open Operation

variable {α : Type} [Inhabited α] {archive : Archive α}

/-! ### Taking a version -/

/-- The archive in which a name stands for a slot. -/
def withName (name : String) (slot : Nat) (archive : Archive α) : Archive α :=
  { archive with names := archive.names.insert name slot }

omit [Inhabited α] in
theorem names_withName (name : String) (slot : Nat) (other : String) :
    (archive.withName name slot).names[other]? =
      if name = other then some slot else archive.names[other]? := by
  simp [withName, Std.ExtTreeMap.getElem?_insert]

omit [Inhabited α] in
theorem names_allocate (state : α) (archive : Archive α) :
    (archive.allocate state).2.names = archive.names := by
  unfold allocate
  split <;> rfl

theorem take_eq (name : String) :
    archive.take name =
      ((archive.allocate archive.liveState).2.withName name
        (archive.allocate archive.liveState).1).giveBack archive.names[name]? := by
  rw [← names_allocate archive.liveState archive]
  rcases made : archive.allocate archive.liveState with ⟨slot, after⟩
  unfold take
  simp only [made]
  cases after.names[name]? <;> rfl

/-- **The slot a name stood for is spared once the name stands for a new one.** -/
theorem GivenOut.tidy_withName {after : Archive α} {slot : Nat} {state : α}
    (given : GivenOut archive after slot state) (tidy : archive.Tidy none) (name : String) :
    (after.withName name slot).Tidy archive.names[name]? := by
  have unnamed : ∀ other : String, archive.names[other]? ≠ some slot := fun other named =>
    given.unused (.inr ⟨other, named⟩)
  have names : ∀ other : String, (after.withName name slot).names[other]? =
      if name = other then some slot else archive.names[other]? := by
    intro other
    rw [names_withName, given.names]
  have used : ∀ place, after.InUse place ↔ archive.InUse place := by
    intro place
    unfold InUse
    rw [given.live, given.names]
  refine ⟨?within, ?apart, given.tidy.once, ?free, given.tidy.blank⟩
  case within =>
    rintro place (live | ⟨other, named⟩)
    · exact given.tidy.within (.inl live)
    · rw [names] at named
      split at named
      · cases named
        exact given.within
      · exact given.tidy.within ((used place).mpr (.inr ⟨other, named⟩))
  case apart =>
    intro first second place one two
    rw [names] at one two
    split at one <;> split at two
    · rename_i here there
      rw [← here, ← there]
    · cases one
      exact absurd two (unnamed second)
    · cases two
      exact absurd one (unnamed first)
    · exact tidy.apart one two
  case free =>
    intro place
    refine (given.tidy.free place).trans (and_congr_right fun _ => ?_)
    rw [used]
    constructor
    · rintro ⟨free, different⟩
      refine ⟨?_, fun before => free (.inr ⟨name, before⟩)⟩
      rintro (live | ⟨other, named⟩)
      · exact free (.inl (live.trans given.live))
      · rw [names] at named
        split at named
        · exact different named
        · exact free (.inr ⟨other, named⟩)
    · rintro ⟨free, spared⟩
      refine ⟨?_, fun same => free (.inr ⟨name, by rw [names, if_pos rfl, same]⟩)⟩
      rintro (live | ⟨other, named⟩)
      · exact free (.inl (live.trans given.live.symm))
      · by_cases same : name = other
        · subst same
          exact spared named
        · exact free (.inr ⟨other, by rw [names, if_neg same, named]⟩)

/-- The slot that a name stood for is there. -/
theorem GivenOut.previous_within {after : Archive α} {slot : Nat} {state : α}
    (given : GivenOut archive after slot state) (name : String) :
    ∀ previous, archive.names[name]? = some previous →
      previous < (after.withName name slot).slots.size :=
  fun previous found => given.tidy.within (.inr ⟨name, by rw [given.names, found]⟩)

theorem tidy_take (tidy : archive.Tidy none) (name : String) : (archive.take name).Tidy none := by
  have given := tidy.allocate archive.liveState
  rw [take_eq]
  exact (given.tidy_withName tidy name).giveBack (given.previous_within name)

theorem liveState_take (tidy : archive.Tidy none) (name : String) :
    (archive.take name).liveState = archive.liveState := by
  have given := tidy.allocate archive.liveState
  rw [take_eq, liveState_giveBack (given.previous_within name)]
  show Archive.stateAt _ (archive.allocate archive.liveState).2.live = archive.stateAt archive.live
  rw [given.live]
  exact given.others (.inl rfl)

/-- The name stands for the live state, and the other names for what they stood for. -/
theorem state?_take (tidy : archive.Tidy none) (name other : String) :
    (archive.take name).state? other =
      if name = other then some archive.liveState else archive.state? other := by
  have given := tidy.allocate archive.liveState
  rw [take_eq, state?_giveBack (given.previous_within name), state?, names_withName, given.names]
  split
  · exact congrArg some given.here
  · cases found : archive.names[other]? with
    | none => rw [state?, found, Option.map_none, Option.map_none]
    | some slot =>
      rw [state?, found, Option.map_some, Option.map_some]
      exact congrArg some (given.others (.inr ⟨other, found⟩))

/-- The live slot is not the one that was named. -/
theorem aliased_take (tidy : archive.Tidy none) (name other : String) :
    (archive.take name).Aliased other ↔ name ≠ other ∧ archive.Aliased other := by
  have given := tidy.allocate archive.liveState
  rw [take_eq, Aliased, live_giveBack, names_giveBack, names_withName, given.names]
  show _ = some (archive.allocate archive.liveState).2.live ↔ _
  rw [given.live]
  by_cases same : name = other
  · rw [if_pos same]
    refine iff_of_false (fun equal => ?_) fun both => both.1 same
    exact given.unused (.inl (Option.some.inj equal))
  · rw [if_neg same]
    exact ⟨fun live => ⟨same, live⟩, fun both => both.2⟩

/-! ### Another live slot -/

/-- A spared slot becomes the live one. -/
theorem Tidy.goLive {slot : Nat} (tidy : archive.Tidy (some slot))
    (within : slot < archive.slots.size) : (archive.goLive slot).Tidy none := by
  have moved : ({ archive with live := slot } : Archive α).Tidy (some archive.live) := by
    refine ⟨?_, tidy.apart, tidy.once, fun other => ?_, tidy.blank⟩
    · rintro other (here | ⟨name, named⟩)
      · rw [here]
        exact within
      · exact tidy.within (.inr ⟨name, named⟩)
    · refine (tidy.free other).trans (and_congr_right fun _ => ?_)
      simp only [InUse, not_or, ne_eq, Option.some.injEq, eq_comm (b := other)]
      tauto
  refine moved.giveBack fun other same => ?_
  rw [← Option.some.inj same]
  exact tidy.within (.inl rfl)

/-- What is in use is spared as well as anything else. -/
theorem Tidy.spare {slot : Nat} (tidy : archive.Tidy none) (used : archive.InUse slot) :
    archive.Tidy (some slot) := by
  refine ⟨tidy.within, tidy.apart, tidy.once, fun other => ?_, tidy.blank⟩
  rw [tidy.free]
  refine and_congr_right fun _ => and_congr_right fun unused => iff_of_true (by simp) ?_
  rintro same
  exact unused (Option.some.inj same ▸ used)

theorem liveState_goLive (slot : Nat) (within : archive.live < archive.slots.size) :
    (archive.goLive slot).liveState = archive.stateAt slot := by
  show (({ archive with live := slot } : Archive α).giveBack (some archive.live)).liveState = _
  rw [liveState_giveBack]
  · rfl
  · intro other same
    rw [← Option.some.inj same]
    exact within

theorem state?_goLive (slot : Nat) (within : archive.live < archive.slots.size) (name : String) :
    (archive.goLive slot).state? name = archive.state? name := by
  show (({ archive with live := slot } : Archive α).giveBack (some archive.live)).state? name = _
  rw [state?_giveBack]
  · rfl
  · intro other same
    rw [← Option.some.inj same]
    exact within

theorem aliased_goLive (slot : Nat) (name : String) :
    (archive.goLive slot).Aliased name ↔ archive.names[name]? = some slot := by
  show (giveBack (some archive.live) { archive with live := slot }).names[name]? =
    some (giveBack (some archive.live) { archive with live := slot }).live ↔ _
  rw [live_giveBack, names_giveBack]

/-! ### Reverting -/

/-- **A name that is not there is refused.** -/
theorem outcome_revert (name : String) (archive : Archive α) :
    (revert name).outcome archive =
      settled
        (match archive.names[name]? with
          | some slot => .ok slot
          | none => .error (.noSuchSnapshot name))
        (fun slot => ((), archive.goLive slot)) archive := by
  unfold revert
  simp only [outcome_bind, outcome_get]
  cases archive.names[name]? <;> rfl

theorem outcome_revert_some {name : String} {slot : Nat}
    (found : archive.names[name]? = some slot) :
    (revert name).outcome archive = (.ok (), archive.goLive slot) := by
  rw [outcome_revert, found, settled_ok]

theorem outcome_revert_none {name : String} (missing : archive.names[name]? = none) :
    (revert name).outcome archive = (.error (.noSuchSnapshot name), archive) := by
  rw [outcome_revert, missing, settled_error]

/-! ### Replacing the live state -/

theorem tidy_replace (tidy : archive.Tidy none) (state : α) :
    (archive.replace state).Tidy none := by
  have given := tidy.allocate state
  exact given.tidy.goLive given.within

theorem liveState_replace (tidy : archive.Tidy none) (state : α) :
    (archive.replace state).liveState = state := by
  have given := tidy.allocate state
  show ((archive.allocate state).2.goLive (archive.allocate state).1).liveState = state
  rw [liveState_goLive _ (given.tidy.within (.inl rfl)), given.here]

theorem state?_replace (tidy : archive.Tidy none) (state : α) (name : String) :
    (archive.replace state).state? name = archive.state? name := by
  have given := tidy.allocate state
  show ((archive.allocate state).2.goLive (archive.allocate state).1).state? name = _
  rw [state?_goLive _ (given.tidy.within (.inl rfl)), state?, state?, given.names]
  cases found : archive.names[name]? with
  | none => rfl
  | some slot =>
    rw [Option.map_some, Option.map_some, given.others (.inr ⟨name, found⟩)]

/-- A state that was put in has no name. -/
theorem aliased_replace (tidy : archive.Tidy none) (state : α) (name : String) :
    ¬ (archive.replace state).Aliased name := by
  have given := tidy.allocate state
  show ¬ ((archive.allocate state).2.goLive (archive.allocate state).1).Aliased name
  rw [aliased_goLive, given.names]
  exact fun named => given.unused (.inr ⟨name, named⟩)

/-! ### Changing the live state -/

theorem tidy_withLive (tidy : archive.Tidy none) (state : α) :
    (archive.withLive state).Tidy none := by
  have size : (archive.withLive state).slots.size = archive.slots.size :=
    Array.size_setIfInBounds
  refine ⟨?_, tidy.apart, tidy.once, fun slot => ?_, fun slot member => ?_⟩
  · intro slot used
    rw [size]
    exact tidy.within used
  · rw [size]
    exact tidy.free slot
  · have before := (tidy.free slot).mp member
    have different : archive.live ≠ slot := fun same => before.2.1 (.inl same.symm)
    show (archive.slots.setIfInBounds archive.live state).getD slot default = default
    rw [getD_set (tidy.within (.inl rfl)), if_neg different]
    exact tidy.blank slot member

theorem liveState_withLive (tidy : archive.Tidy none) (state : α) :
    (archive.withLive state).liveState = state := by
  show (archive.slots.setIfInBounds archive.live state).getD archive.live default = state
  rw [getD_set (tidy.within (.inl rfl)), if_pos rfl]

/-- **A change of the live state is a change for the name of the live slot, and for no other.** -/
theorem state?_withLive (tidy : archive.Tidy none) (state : α) (name : String)
    [Decidable (archive.Aliased name)] :
    (archive.withLive state).state? name =
      if archive.Aliased name then some state else archive.state? name := by
  show archive.names[name]?.map
    (fun slot => (archive.slots.setIfInBounds archive.live state).getD slot default) = _
  cases found : archive.names[name]? with
  | none =>
    have apart : ¬ archive.Aliased name := fun live => by
      rw [Aliased, found] at live
      cases live
    rw [if_neg apart, state?, found, Option.map_none, Option.map_none]
  | some slot =>
    rw [Option.map_some, getD_set (tidy.within (.inl rfl)), state?, found, Option.map_some]
    by_cases here : archive.live = slot
    · have live : archive.Aliased name := by rw [Aliased, found, here]
      rw [if_pos here, if_pos live]
    · have apart : ¬ archive.Aliased name := fun live => by
        rw [Aliased, found] at live
        exact here (Option.some.inj live).symm
      rw [if_neg here, if_neg apart, stateAt]

end StakingDirectory.Archive
