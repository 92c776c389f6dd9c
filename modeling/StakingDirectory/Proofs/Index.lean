/-
**An index beside a list.**

Users and sessions stand in lists that only grow, and are found through maps from names to
positions.

* `Indexes` says that a map leads from each name to the one item that has it;
* `Indexes.lt_length`: it leads to no position outside of the list;
* `Indexes.append` and `Indexes.set` keep this where an item with a new name comes last, and where
  an item is replaced by one of the same name;
* `Indexes.nodup`: no two items then have one name.
-/

import Mathlib.Data.List.Nodup
import Std.Data.ExtTreeMap

namespace StakingDirectory

variable {ι : Type} {index : Std.ExtTreeMap String Nat} {items : List ι} {key : ι → String}

/-- **Names lead to the items that have them.** -/
def Indexes (index : Std.ExtTreeMap String Nat) (items : List ι) (key : ι → String) : Prop :=
  ∀ (name : String) (position : Nat),
    index[name]? = some position ↔ (items[position]?).map key = some name

namespace Indexes

/-- A name that is not in the index is the name of no item. -/
theorem key_ne (indexes : Indexes index items key) {name : String} (fresh : index[name]? = none)
    {item : ι} (member : item ∈ items) : key item ≠ name := by
  rintro rfl
  obtain ⟨position, there⟩ := List.getElem?_of_mem member
  have known : index[key item]? = some position := (indexes _ _).mpr (by rw [there, Option.map_some])
  rw [fresh] at known
  cases known

/-- A name that is the name of no item is not in the index. -/
theorem eq_none (indexes : Indexes index items key) {name : String}
    (fresh : ∀ item ∈ items, key item ≠ name) : index[name]? = none := by
  refine Option.eq_none_iff_forall_ne_some.mpr fun position known => ?_
  obtain ⟨item, there, same⟩ := Option.map_eq_some_iff.mp ((indexes _ _).mp known)
  exact fresh item (List.mem_of_getElem? there) same

/-- A name leads to the position of an item that has it. -/
theorem getElem?_eq_some (indexes : Indexes index items key) (name : String) (position : Nat) :
    index[name]? = some position ↔ ∃ item, items[position]? = some item ∧ key item = name := by
  rw [indexes, Option.map_eq_some_iff]

/-- The index leads to no position outside of the list. -/
theorem lt_length (indexes : Indexes index items key) {name : String} {position : Nat}
    (known : index[name]? = some position) : position < items.length := by
  obtain ⟨item, there, -⟩ := (indexes.getElem?_eq_some name position).mp known
  exact (List.getElem?_eq_some_iff.mp there).1

/-- The last item is found at the end, and the others as before. -/
theorem append (indexes : Indexes index items key) (item : ι)
    (fresh : ∀ other ∈ items, key other ≠ key item) :
    Indexes (index.insert (key item) items.length) (items ++ [item]) key := by
  intro name position
  rw [Std.ExtTreeMap.getElem?_insert, List.getElem?_append]
  simp only [Std.LawfulEqCmp.compare_eq_iff_eq]
  by_cases inside : position < items.length
  · rw [if_pos inside, ← indexes name position]
    by_cases same : key item = name
    · subst same
      rw [if_pos rfl, indexes]
      refine iff_of_false (fun last => ?_) fun found => ?_
      · exact Nat.ne_of_gt inside (Option.some.inj last)
      · obtain ⟨other, there, equal⟩ := Option.map_eq_some_iff.mp found
        exact fresh other (List.mem_of_getElem? there) equal
    · rw [if_neg same]
  · rw [if_neg inside]
    have outside : index[name]? ≠ some position := fun found => by
      rw [indexes, List.getElem?_eq_none (Nat.le_of_not_lt inside)] at found
      cases found
    by_cases last : position = items.length
    · subst last
      rw [Nat.sub_self, List.getElem?_cons_zero, Option.map_some, Option.some.injEq]
      by_cases same : key item = name
      · rw [if_pos same]
        exact iff_of_true rfl same
      · rw [if_neg same]
        exact iff_of_false outside same
    · rw [List.getElem?_eq_none (by rw [List.length_singleton]; omega), Option.map_none]
      refine iff_of_false ?_ (by simp)
      split
      · exact fun equal => last (Option.some.inj equal).symm
      · exact outside

/-- An item may be replaced by another one with its name. -/
theorem set (indexes : Indexes index items key) {place : Nat} {before after : ι}
    (there : items[place]? = some before) (same : key after = key before) :
    Indexes index (items.set place after) key := by
  intro name position
  rw [indexes, List.getElem?_set]
  by_cases here : place = position
  · subst here
    obtain ⟨inside, -⟩ := List.getElem?_eq_some_iff.mp there
    rw [if_pos rfl, if_pos inside, there, Option.map_some, Option.map_some, same]
  · rw [if_neg here]

/-- **No two items have one name.** -/
theorem nodup (indexes : Indexes index items key) : (items.map key).Nodup := by
  rw [List.nodup_iff_getElem?_ne_getElem?]
  intro first second before within same
  rw [List.getElem?_map, List.getElem?_map] at same
  rw [List.length_map] at within
  obtain ⟨item, there⟩ : ∃ item, items[second]? = some item :=
    ⟨_, List.getElem?_eq_getElem within⟩
  rw [there, Option.map_some] at same
  have later : index[key item]? = some second := (indexes _ _).mpr (by rw [there, Option.map_some])
  have earlier : index[key item]? = some first := (indexes _ _).mpr same
  rw [later, Option.some.injEq] at earlier
  omega

end Indexes

end StakingDirectory
