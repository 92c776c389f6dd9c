/-
**Every slot is accounted for.**

* `Tidy.length_free_add`: what is free and what is in use are all slots together, each of them once,
  so that the slots can be counted. In use are the slots of the names and the live one, which may
  have a name itself (`Tidy.retained_eq`);
* a slot is made only where none is free (`Compact.size_allocate`), and is then one of the few in
  use, so that an archive has never more than two slots more than names (`Compact`);
* `accounted_run` puts together what is true of the slots after any moves.
-/

import Mathlib.Data.List.Nodup
import StakingDirectory.Proofs.Archive.Cells

namespace StakingDirectory.Archive

open Operation

variable {α : Type} [Inhabited α] {archive : Archive α}

/-! ### Counting slots -/

/-- The slots of the names. -/
def namedSlots (archive : Archive α) : List Nat :=
  archive.names.toList.map Prod.snd

omit [Inhabited α] in
theorem mem_namedSlots {slot : Nat} :
    slot ∈ archive.namedSlots ↔ ∃ name : String, archive.names[name]? = some slot := by
  simp only [namedSlots, List.mem_map, Prod.exists,
    Std.ExtTreeMap.mem_toList_iff_getElem?_eq_some, exists_eq_right]

omit [Inhabited α] in
theorem length_namedSlots : archive.namedSlots.length = archive.nameList.length := by
  rw [namedSlots, List.length_map, Std.ExtTreeMap.length_toList, nameList,
    Std.ExtTreeMap.length_keys]

/-- No slot has two names. -/
theorem Tidy.nodup_namedSlots {spare : Option Nat} (tidy : archive.Tidy spare) :
    archive.namedSlots.Nodup := by
  have keys : (archive.names.toList.map Prod.fst).Nodup := by
    rw [Std.ExtTreeMap.map_fst_toList_eq_keys]
    exact Std.ExtTreeMap.nodup_keys
  refine List.Nodup.map_on ?_ (List.Nodup.of_map _ keys)
  rintro ⟨name, slot⟩ here ⟨other, slot'⟩ there same
  cases same
  rw [Std.ExtTreeMap.mem_toList_iff_getElem?_eq_some] at here there
  rw [tidy.apart here there]

/-- **What is free and what is in use are all slots together.** -/
theorem Tidy.length_free_add (tidy : archive.Tidy none) {used : List Nat} (once : used.Nodup)
    (all : ∀ slot, slot ∈ used ↔ archive.InUse slot) :
    archive.free.length + used.length = archive.slots.size := by
  have together : (archive.free ++ used).Perm (List.range archive.slots.size) := by
    refine (List.perm_ext_iff_of_nodup ?_ List.nodup_range).mpr fun slot => ?_
    · refine List.nodup_append.mpr ⟨tidy.once, once, fun slot free other member same => ?_⟩
      exact ((tidy.free slot).mp free).2.1 ((all slot).mp (same ▸ member))
    · rw [List.mem_append, List.mem_range, tidy.free, all]
      constructor
      · rintro (⟨within, -⟩ | used)
        · exact within
        · exact tidy.within used
      · intro within
        by_cases used : archive.InUse slot
        · exact .inr used
        · exact .inl ⟨within, used, by simp⟩
  rw [← List.length_append, together.length_eq, List.length_range]

/-- **In use are the slots of the names, and the live one if it has none.** -/
theorem Tidy.retained_eq (tidy : archive.Tidy none) :
    archive.free.length ≤ archive.slots.size ∧
      ((∃ name, archive.Aliased name) ∧ archive.retained = archive.nameList.length ∨
        (∀ name, ¬ archive.Aliased name) ∧ archive.retained = archive.nameList.length + 1) := by
  rw [← length_namedSlots, retained]
  by_cases aliased : ∃ name, archive.Aliased name
  · have count := tidy.length_free_add tidy.nodup_namedSlots fun slot => by
      rw [mem_namedSlots]
      refine ⟨.inr, ?_⟩
      rintro (rfl | named)
      · exact aliased
      · exact named
    exact ⟨by omega, .inl ⟨aliased, by omega⟩⟩
  · have unnamed : archive.live ∉ archive.namedSlots := fun member =>
      aliased (mem_namedSlots.mp member)
    have count := tidy.length_free_add (List.nodup_cons.mpr ⟨unnamed, tidy.nodup_namedSlots⟩)
      fun slot => by rw [List.mem_cons, mem_namedSlots, InUse]
    rw [List.length_cons] at count
    exact ⟨by omega, .inr ⟨not_exists.mp aliased, by omega⟩⟩

/-! ### How many slots there are -/

/-- **There are at most two slots more than names.** -/
structure Compact (archive : Archive α) : Prop where
  tidy : archive.Tidy none
  bounded : archive.slots.size ≤ archive.nameList.length + 2

theorem compact_ofState (state : α) : (ofState state).Compact where
  tidy := tidy_ofState state
  bounded := by
    show 1 ≤ _
    omega

theorem size_release (slot : Nat) (archive : Archive α) :
    (archive.release slot).slots.size = archive.slots.size := by
  unfold release
  split
  · rfl
  · exact Array.size_setIfInBounds

theorem size_giveBack (spare : Option Nat) (archive : Archive α) :
    (archive.giveBack spare).slots.size = archive.slots.size := by
  cases spare with
  | none => rfl
  | some slot => exact size_release slot archive

/-- **A slot is made only where none is free**, and so where few are in use. -/
theorem Compact.size_allocate (compact : archive.Compact) (state : α) :
    (archive.allocate state).2.slots.size ≤ archive.nameList.length + 2 := by
  obtain ⟨tidy, bounded⟩ := compact
  have retained := tidy.retained_eq.2
  unfold Archive.retained at retained
  unfold allocate
  cases free : archive.free with
  | nil =>
    rw [free, List.length_nil] at retained
    show (archive.slots.push state).size ≤ _
    rw [Array.size_push]
    omega
  | cons slot rest =>
    show (archive.slots.setIfInBounds slot state).size ≤ _
    rw [Array.size_setIfInBounds]
    exact bounded

/-- A slot that goes live makes none. -/
theorem size_goLive (slot : Nat) (archive : Archive α) :
    (archive.goLive slot).slots.size = archive.slots.size :=
  size_release _ _

omit [Inhabited α] in
theorem nameList_congr {other : Archive α} (same : other.names = archive.names) :
    other.nameList = archive.nameList := by
  rw [nameList, nameList, same]

theorem names_goLive (slot : Nat) (archive : Archive α) :
    (archive.goLive slot).names = archive.names :=
  names_giveBack (some archive.live)

theorem Compact.take (compact : archive.Compact) (name : String) : (archive.take name).Compact where
  tidy := tidy_take compact.tidy name
  bounded := by
    have size := compact.size_allocate archive.liveState
    have names : (archive.take name).names = archive.names.insert name
        (archive.allocate archive.liveState).1 := by
      rw [take_eq, names_giveBack, withName, names_allocate]
    have more : archive.nameList.length ≤ (archive.take name).nameList.length := by
      rw [nameList, nameList, Std.ExtTreeMap.length_keys, Std.ExtTreeMap.length_keys, names]
      exact Std.ExtTreeMap.size_le_size_insert
    rw [take_eq, size_giveBack]
    rw [take_eq] at more
    show (archive.allocate archive.liveState).2.slots.size ≤ _
    omega

theorem Compact.revert (compact : archive.Compact) (name : String) :
    ((revert name).outcome archive).2.Compact := by
  cases found : archive.names[name]? with
  | none =>
    rw [outcome_revert_none found]
    exact compact
  | some slot =>
    have used : archive.InUse slot := .inr ⟨name, found⟩
    rw [outcome_revert_some found]
    refine ⟨(compact.tidy.spare used).goLive (compact.tidy.within used), ?_⟩
    rw [size_goLive, nameList_congr (names_goLive slot archive)]
    exact compact.bounded

theorem Compact.replace (compact : archive.Compact) (state : α) :
    (archive.replace state).Compact where
  tidy := tidy_replace compact.tidy state
  bounded := by
    show ((archive.allocate state).2.goLive (archive.allocate state).1).slots.size ≤ _
    have names : (archive.replace state).names = archive.names :=
      (names_goLive _ _).trans (names_allocate state archive)
    rw [size_goLive, nameList_congr names]
    exact compact.size_allocate state

theorem Compact.withLive (compact : archive.Compact) (state : α) :
    (archive.withLive state).Compact where
  tidy := tidy_withLive compact.tidy state
  bounded := by
    show (archive.slots.setIfInBounds archive.live state).size ≤ _
    rw [Array.size_setIfInBounds]
    exact compact.bounded

/-- **Every move keeps an archive compact**, and so do whole runs. -/
theorem compact_move (move : Move α) {archive : Archive α} (compact : archive.Compact) :
    ((Archive.move move).outcome archive).2.Compact := by
  cases move with
  | take name => exact compact.take name
  | revert name => exact compact.revert name
  | replace state => exact compact.replace state
  | change wanted => exact compact.withLive _

theorem compact_run (initial : α) (moves : List (Move α)) : (run initial moves).2.Compact :=
  each_keeps compact_move moves (compact_ofState initial)

/-! ### The account -/

/-- **What every archive owes**: each slot is live, named or free, and few are free. -/
structure Accounted (archive : Archive α) : Prop where
  live : archive.live < archive.slots.size
  named : ∀ {name : String} {slot : Nat},
    archive.names[name]? = some slot → slot < archive.slots.size
  /-- No slot has two names. -/
  apart : ∀ {name other : String} {slot : Nat},
    archive.names[name]? = some slot → archive.names[other]? = some slot → name = other
  /-- No slot is free twice. -/
  once : archive.free.Nodup
  /-- The free slots are exactly those that are neither live nor named. -/
  free : ∀ slot, slot ∈ archive.free ↔ slot < archive.slots.size ∧ slot ≠ archive.live ∧
    ∀ name : String, archive.names[name]? ≠ some slot
  /-- A free slot was emptied. -/
  blank : ∀ slot ∈ archive.free, archive.slots[slot]? = some default
  /-- There are no more free slots than slots. -/
  fits : archive.free.length ≤ archive.slots.size
  /-- The slots that are retained are those of the names, and the live one if it has none. -/
  retained : (∃ name, archive.Aliased name) ∧ archive.retained = archive.nameList.length ∨
    (∀ name, ¬ archive.Aliased name) ∧ archive.retained = archive.nameList.length + 1
  bounded : archive.slots.size ≤ archive.nameList.length + 2

/-- **No slot is lost, and none is given out twice.** After any moves from a single live state, the
live slot and those of the names are there, the free slots are exactly the others, each of them once
and emptied, and no slot has two names. The slots retained are as many as the names, and one more if
the live one has no name; and there are never more than two slots more than names, however many
moves there were. -/
theorem accounted_run (initial : α) (moves : List (Move α)) : (run initial moves).2.Accounted := by
  obtain ⟨tidy, bounded⟩ := compact_run initial moves
  generalize (run initial moves).2 = archive at tidy bounded
  have free : ∀ slot, slot ∈ archive.free ↔ slot < archive.slots.size ∧ slot ≠ archive.live ∧
      ∀ name : String, archive.names[name]? ≠ some slot := by
    intro slot
    rw [tidy.free, InUse, not_or, not_exists]
    simp
  refine ⟨tidy.within (.inl rfl), fun named => tidy.within (.inr ⟨_, named⟩), tidy.apart, tidy.once,
    free, fun slot member => ?_, tidy.retained_eq.1, tidy.retained_eq.2, bounded⟩
  have within := ((free slot).mp member).1
  have empty := tidy.blank slot member
  rw [stateAt, Array.getD_eq_getD_getElem?, Array.getElem?_eq_getElem within,
    Option.getD_some] at empty
  rw [Array.getElem?_eq_getElem within, empty]

end StakingDirectory.Archive
