/-
**Slots that are never mixed up.**

* `Tidy` is the invariant of an archive: names stand for slots of their own, and the free slots are
  exactly those that are neither live nor named, each of them once and emptied. While a slot is being
  given out or given back it is neither free nor in use; `Tidy` may leave out one such slot;
* `tidy_take`, `tidy_revert`, `tidy_replace`, `tidy_withLive`: every operation keeps it;
* for each operation there is what it does to the live state, to the states of the names, and to the
  name that the live slot has (`Aliased`). Nothing else of an archive can be seen from outside.
-/

import StakingDirectory.Archive
import StakingDirectory.Proofs.Outcome

namespace StakingDirectory

/-- The values of a map are those it has at some key. -/
theorem mem_values {κ β : Type} [Ord κ] [Std.TransOrd κ] [Std.LawfulEqOrd κ]
    {map : Std.ExtTreeMap κ β} {value : β} :
    value ∈ map.values ↔ ∃ key : κ, map[key]? = some value := by
  have listed : map.values = map.toList.map Prod.snd := by
    have folded : map.values = map.foldr (fun _ value rest => value :: rest) [] := by
      obtain ⟨⟨inner⟩⟩ := map
      rfl
    rw [folded, Std.ExtTreeMap.foldr_eq_foldr_toList]
    induction map.toList with
    | nil => rfl
    | cons entry rest ih => rw [List.foldr_cons, ih, List.map_cons]
  rw [listed, List.mem_map]
  simp only [Prod.exists, Std.ExtTreeMap.mem_toList_iff_getElem?_eq_some, exists_eq_right]

namespace Archive

open Operation

variable {α : Type} [Inhabited α] {archive : Archive α}

/-! ### What is in a slot -/

/-- The state in a slot. -/
def stateAt (archive : Archive α) (slot : Nat) : α :=
  archive.slots.getD slot default

/-- The state that a name stands for. -/
def state? (archive : Archive α) (name : String) : Option α :=
  archive.names[name]?.map archive.stateAt

/-- The name stands for the live slot. -/
def Aliased (archive : Archive α) (name : String) : Prop :=
  archive.names[name]? = some archive.live

/-- A slot is live or named. -/
def InUse (archive : Archive α) (slot : Nat) : Prop :=
  slot = archive.live ∨ ∃ name : String, archive.names[name]? = some slot

theorem getD_set {slots : Array α} {slot : Nat} (within : slot < slots.size) (state : α)
    (other : Nat) :
    (slots.setIfInBounds slot state).getD other default =
      if slot = other then state else slots.getD other default := by
  simp only [Array.getD_eq_getD_getElem?, Array.getElem?_setIfInBounds]
  by_cases same : slot = other
  · subst same
    rw [if_pos rfl, if_pos within, if_pos rfl, Option.getD_some]
  · rw [if_neg same, if_neg same]

theorem getD_push (slots : Array α) (state : α) (other : Nat) :
    (slots.push state).getD other default =
      if slots.size = other then state else slots.getD other default := by
  simp only [Array.getD_eq_getD_getElem?, Array.getElem?_push]
  by_cases same : slots.size = other
  · rw [if_pos same.symm, if_pos same, Option.getD_some]
  · rw [if_neg (Ne.symm same), if_neg same]

/-- A live state that was not changed is put back where it was. -/
theorem withLive_liveState (archive : Archive α) : archive.withLive archive.liveState = archive := by
  have same : archive.slots.setIfInBounds archive.live archive.liveState = archive.slots := by
    refine Array.ext_getElem? fun slot => ?_
    rw [Array.getElem?_setIfInBounds]
    by_cases here : archive.live = slot
    · subst here
      rw [if_pos rfl]
      split
      · rename_i within
        rw [liveState, Array.getD_eq_getD_getElem?, Array.getElem?_eq_getElem within,
          Option.getD_some]
      · rename_i outside
        rw [Array.getElem?_eq_none (Nat.le_of_not_lt outside)]
    · rw [if_neg here]
  unfold withLive
  rw [same]

/-! ### The invariant -/

/-- **Names stand for slots of their own, and the free slots are exactly those not in use.** One
slot may be spared: it is neither free nor in use. -/
structure Tidy (archive : Archive α) (spare : Option Nat) : Prop where
  within : ∀ {slot : Nat}, archive.InUse slot → slot < archive.slots.size
  apart : ∀ {name other : String} {slot : Nat},
    archive.names[name]? = some slot → archive.names[other]? = some slot → name = other
  /-- No slot is free twice. -/
  once : archive.free.Nodup
  free : ∀ slot, slot ∈ archive.free ↔
    slot < archive.slots.size ∧ ¬ archive.InUse slot ∧ spare ≠ some slot
  /-- A free slot was emptied. -/
  blank : ∀ slot ∈ archive.free, archive.stateAt slot = default

theorem tidy_ofState (state : α) : (ofState state).Tidy none where
  within := by
    rintro slot (live | ⟨name, named⟩)
    · rw [live]
      exact Nat.zero_lt_one
    · simp [ofState] at named
  apart named := by simp [ofState] at named
  once := List.nodup_nil
  free slot := by
    refine iff_of_false List.not_mem_nil ?_
    rintro ⟨within, unused, _⟩
    exact unused (.inl (Nat.lt_one_iff.mp within))
  blank slot member := absurd member List.not_mem_nil

/-! ### Giving a slot out -/

/-- A slot that was not in use holds a state now, and nothing else that can be seen changed. -/
structure GivenOut (before after : Archive α) (slot : Nat) (state : α) : Prop where
  tidy : after.Tidy (some slot)
  within : slot < after.slots.size
  unused : ¬ before.InUse slot
  live : after.live = before.live
  names : after.names = before.names
  here : after.stateAt slot = state
  others : ∀ {other : Nat}, before.InUse other → after.stateAt other = before.stateAt other

theorem Tidy.allocate (tidy : archive.Tidy none) (state : α) :
    GivenOut archive (archive.allocate state).2 (archive.allocate state).1 state := by
  cases list : archive.free with
  | nil =>
    -- There is one slot more, and it is the last one.
    have made : archive.allocate state =
        (archive.slots.size, { archive with slots := archive.slots.push state }) := by
      rw [Archive.allocate, list]
    have unused : ¬ archive.InUse archive.slots.size := fun used =>
      Nat.lt_irrefl _ (tidy.within used)
    rw [made]
    refine ⟨⟨?_, tidy.apart, tidy.once, ?_, ?_⟩, ?_, unused, rfl, rfl, ?_, ?_⟩
    · intro slot used
      rw [Array.size_push]
      exact Nat.lt_succ_of_lt (tidy.within used)
    · intro slot
      refine iff_of_false (by rw [list]; exact List.not_mem_nil) ?_
      rintro ⟨within, free, other⟩
      rw [Array.size_push] at within
      have before : slot < archive.slots.size := by
        have different : slot ≠ archive.slots.size := fun same => other (by rw [same])
        omega
      have member := (tidy.free slot).mpr ⟨before, free, by simp⟩
      rw [list] at member
      exact List.not_mem_nil member
    · intro slot member
      rw [list] at member
      exact absurd member List.not_mem_nil
    · rw [Array.size_push]
      exact Nat.lt_succ_self _
    · rw [stateAt, getD_push, if_pos rfl]
    · intro other used
      rw [stateAt, getD_push, if_neg (Nat.ne_of_gt (tidy.within used)), stateAt]
  | cons slot rest =>
    -- The slot that was freed last is used again.
    have made : archive.allocate state =
        (slot, { archive with slots := archive.slots.setIfInBounds slot state, free := rest }) := by
      rw [Archive.allocate, list]
    obtain ⟨within, unused, -⟩ := (tidy.free slot).mp (by rw [list]; exact List.mem_cons_self)
    have once : slot ∉ rest ∧ rest.Nodup := List.nodup_cons.mp (list ▸ tidy.once)
    rw [made]
    refine ⟨⟨?_, tidy.apart, once.2, ?_, ?_⟩, ?_, unused, rfl, rfl, ?_, ?_⟩
    · intro other used
      rw [Array.size_setIfInBounds]
      exact tidy.within used
    · intro other
      rw [Array.size_setIfInBounds]
      have before := tidy.free other
      rw [list, List.mem_cons] at before
      constructor
      · intro member
        obtain ⟨inside, free, -⟩ := before.mp (.inr member)
        refine ⟨inside, free, fun equal => once.1 ?_⟩
        have same : slot = other := Option.some.inj equal
        rw [same]
        exact member
      · rintro ⟨inside, free, different⟩
        exact (before.mpr ⟨inside, free, by simp⟩).resolve_left fun same => different (by rw [same])
    · intro other member
      have different : slot ≠ other := fun same => once.1 (same ▸ member)
      rw [stateAt, getD_set within, if_neg different]
      exact tidy.blank other (by rw [list]; exact List.mem_cons_of_mem slot member)
    · rw [Array.size_setIfInBounds]
      exact within
    · rw [stateAt, getD_set within, if_pos rfl]
    · intro other used
      have different : slot ≠ other := fun same => unused (same ▸ used)
      rw [stateAt, getD_set within, if_neg different, stateAt]

/-! ### Giving a slot back -/

/-- The archive after a spared slot, if there is one, was given back. -/
def giveBack (spare : Option Nat) (archive : Archive α) : Archive α :=
  match spare with
  | some slot => archive.release slot
  | none => archive

theorem release_of_inUse {slot : Nat} (used : archive.InUse slot) :
    archive.release slot = archive := by
  unfold release
  rw [if_pos (by rwa [mem_values])]

theorem release_of_not_inUse {slot : Nat} (unused : ¬ archive.InUse slot) :
    archive.release slot =
      { archive with
        slots := archive.slots.setIfInBounds slot default
        free := slot :: archive.free } := by
  unfold release
  rw [if_neg (by rwa [mem_values])]

theorem live_giveBack (spare : Option Nat) : (archive.giveBack spare).live = archive.live := by
  cases spare with
  | none => rfl
  | some slot =>
    show (archive.release slot).live = archive.live
    unfold release
    split <;> rfl

theorem names_giveBack (spare : Option Nat) : (archive.giveBack spare).names = archive.names := by
  cases spare with
  | none => rfl
  | some slot =>
    show (archive.release slot).names = archive.names
    unfold release
    split <;> rfl

/-- A slot that is in use is left alone. -/
theorem stateAt_giveBack {spare : Option Nat}
    (within : ∀ slot, spare = some slot → slot < archive.slots.size) {other : Nat}
    (used : archive.InUse other) :
    (archive.giveBack spare).stateAt other = archive.stateAt other := by
  cases spare with
  | none => rfl
  | some slot =>
    show (archive.release slot).stateAt other = archive.stateAt other
    by_cases inUse : archive.InUse slot
    · rw [release_of_inUse inUse]
    · have different : slot ≠ other := fun same => inUse (same ▸ used)
      rw [release_of_not_inUse inUse, stateAt, getD_set (within slot rfl), if_neg different, stateAt]

theorem liveState_giveBack {spare : Option Nat}
    (within : ∀ slot, spare = some slot → slot < archive.slots.size) :
    (archive.giveBack spare).liveState = archive.liveState := by
  show (archive.giveBack spare).stateAt (archive.giveBack spare).live = archive.stateAt archive.live
  rw [live_giveBack]
  exact stateAt_giveBack within (.inl rfl)

theorem state?_giveBack {spare : Option Nat}
    (within : ∀ slot, spare = some slot → slot < archive.slots.size) (name : String) :
    (archive.giveBack spare).state? name = archive.state? name := by
  unfold state?
  rw [names_giveBack]
  cases found : archive.names[name]? with
  | none => rfl
  | some slot =>
    rw [Option.map_some, Option.map_some, stateAt_giveBack within (.inr ⟨name, found⟩)]

theorem Tidy.giveBack {spare : Option Nat} (tidy : archive.Tidy spare)
    (within : ∀ slot, spare = some slot → slot < archive.slots.size) :
    (archive.giveBack spare).Tidy none := by
  cases spare with
  | none => exact tidy
  | some slot =>
    show (archive.release slot).Tidy none
    have inside := within slot rfl
    by_cases used : archive.InUse slot
    · rw [release_of_inUse used]
      refine ⟨tidy.within, tidy.apart, tidy.once, fun other => ?_, tidy.blank⟩
      rw [tidy.free]
      refine and_congr_right fun _ => and_congr_right fun unused => ?_
      exact iff_of_true (fun same => unused (Option.some.inj same ▸ used)) (by simp)
    · have outside : slot ∉ archive.free := fun member => ((tidy.free slot).mp member).2.2 rfl
      rw [release_of_not_inUse used]
      refine ⟨?_, tidy.apart, List.nodup_cons.mpr ⟨outside, tidy.once⟩, fun other => ?_, ?_⟩
      · intro other inUse
        rw [Array.size_setIfInBounds]
        exact tidy.within inUse
      · rw [Array.size_setIfInBounds, List.mem_cons, tidy.free]
        by_cases same : other = slot
        · subst same
          exact iff_of_true (.inl rfl) ⟨inside, used, by simp⟩
        · have different : some slot ≠ some other := fun equal => same (Option.some.inj equal).symm
          simp only [same, false_or, ne_eq, different, not_false_eq_true, and_true]
          exact and_congr_right fun _ => ⟨fun unused => ⟨unused, by simp⟩, fun both => both.1⟩
      · intro other member
        rw [stateAt, getD_set inside]
        split
        · rfl
        · rename_i different
          rcases List.mem_cons.mp member with same | before
          · exact absurd same.symm different
          · exact tidy.blank other before

end Archive

end StakingDirectory
