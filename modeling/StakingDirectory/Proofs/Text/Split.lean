/-
**A list is split in one way.**

The parts of a list hold no separator and give the list back when they are joined
(`Text.joinAll_splitAll`), and no other parts do so (`splitAll_eq_iff`).
-/

import Mathlib.Data.List.Basic
import StakingDirectory.Text.Split

namespace StakingDirectory.Text

variable {α : Type} [DecidableEq α] {separator : α} {items part : List α} {parts : List (List α)}

theorem splitAll_of_not_mem (without : separator ∉ items) :
    splitAll separator items = [items] := by
  induction items with
  | nil => rfl
  | cons item rest ih =>
    obtain ⟨other, later⟩ := List.ne_and_not_mem_of_not_mem_cons without
    rw [splitAll, if_neg other.symm, ih later]

theorem splitAll_append (without : separator ∉ part) (rest : List α) :
    splitAll separator (part ++ separator :: rest) = part :: splitAll separator rest := by
  induction part with
  | nil => rw [List.nil_append, splitAll, if_pos rfl]
  | cons item others ih =>
    obtain ⟨other, later⟩ := List.ne_and_not_mem_of_not_mem_cons without
    rw [List.cons_append, splitAll, if_neg other.symm, ih later]

theorem not_mem_of_mem_splitAll (member : part ∈ splitAll separator items) :
    separator ∉ part := by
  induction items generalizing part with
  | nil =>
    rw [splitAll, List.mem_singleton] at member
    simp [member]
  | cons item rest ih =>
    rw [splitAll] at member
    split at member
    · rcases List.mem_cons.mp member with rfl | later
      · exact List.not_mem_nil
      · exact ih later
    · rename_i other
      cases known : splitAll separator rest with
      | nil => exact absurd known (splitAll_ne_nil separator rest)
      | cons first others =>
        rw [known] at member ih
        rcases List.mem_cons.mp member with rfl | later
        · exact List.not_mem_cons_of_ne_of_not_mem (Ne.symm other) (ih List.mem_cons_self)
        · exact ih (List.mem_cons_of_mem _ later)

theorem splitAll_joinAll (filled : parts ≠ []) (without : ∀ part ∈ parts, separator ∉ part) :
    splitAll separator (joinAll separator parts) = parts := by
  induction parts with
  | nil => exact absurd rfl filled
  | cons part others ih =>
    obtain ⟨first, later⟩ := List.forall_mem_cons.mp without
    cases others with
    | nil => exact splitAll_of_not_mem first
    | cons next others =>
      rw [joinAll, splitAll_append first, ih (List.cons_ne_nil _ _) later]
      exact List.cons_ne_nil _ _

/-- **A list is split in one way.** -/
theorem splitAll_eq_iff :
    splitAll separator items = parts ↔
      parts ≠ [] ∧ joinAll separator parts = items ∧ ∀ part ∈ parts, separator ∉ part := by
  constructor
  · rintro rfl
    exact ⟨splitAll_ne_nil separator items, joinAll_splitAll separator items,
      fun part => not_mem_of_mem_splitAll⟩
  · rintro ⟨filled, rfl, without⟩
    exact splitAll_joinAll filled without

theorem splitAll_eq_pair {first second : List α} :
    splitAll separator items = [first, second] ↔
      items = first ++ separator :: second ∧ separator ∉ first ∧ separator ∉ second := by
  rw [splitAll_eq_iff]
  simp only [joinAll, ne_eq, List.cons_ne_nil, not_false_eq_true, true_and, List.forall_mem_cons,
    List.not_mem_nil, IsEmpty.forall_iff, implies_true, and_true]
  rw [eq_comm (a := items)]

omit [DecidableEq α] in
/-- Nothing is added to the parts but the separator. -/
theorem mem_joinAll {item : α} (member : item ∈ joinAll separator parts) :
    item = separator ∨ ∃ part ∈ parts, item ∈ part := by
  induction parts with
  | nil => exact absurd member List.not_mem_nil
  | cons part others ih =>
    cases others with
    | nil => exact .inr ⟨part, List.mem_cons_self, member⟩
    | cons next others =>
      rw [joinAll, List.mem_append, List.mem_cons] at member
      · rcases member with here | same | later
        · exact .inr ⟨part, List.mem_cons_self, here⟩
        · exact .inl same
        · rcases ih later with same | ⟨part, known, there⟩
          · exact .inl same
          · exact .inr ⟨part, List.mem_cons_of_mem _ known, there⟩
      · exact List.cons_ne_nil _ _

end StakingDirectory.Text
