/-
**Which texts are numerals.**

`Spells` says what a numeral is: one or more of the ten digits, perhaps behind a plus sign, that
stand for a number in base ten, each digit for its place among the ten. The reader of numbers
accepts these texts up to its bound, and no others (`readNumeral_eq_some`).
-/

import Mathlib.Data.List.Basic
import Mathlib.Data.Nat.Digits.Defs
import Mathlib.Tactic.SplitIfs
import StakingDirectory.Text.Numeral

namespace StakingDirectory.Text

/-- The ten digits, each at the place of its value. -/
def decimals : List Char := "0123456789".toList

/-- One or more digits that stand for a number, perhaps behind a plus sign. -/
def Spells (text : String) (number : Nat) : Prop :=
  ∃ digits : List Char, (text.toList = digits ∨ text.toList = '+' :: digits) ∧ digits ≠ [] ∧
    digits ⊆ decimals ∧ Nat.ofDigits 10 (digits.reverse.map decimals.idxOf) = number

theorem isDigit_iff {char : Char} : char.isDigit = true ↔ char ∈ decimals := by
  have codes : decimals.map Char.toNat = List.range' 48 10 := by decide
  have injective : Function.Injective Char.toNat := fun _ _ => Char.toNat_inj.mp
  rw [← List.mem_map_of_injective injective, codes, List.mem_range'_1, Char.isDigit_iff_toNat]
  exact and_congr_right fun _ => Nat.lt_succ_iff.symm

/-- The code of a digit tells its value. -/
theorem code_of_mem_decimals {digit : Char} (member : digit ∈ decimals) :
    digit.toNat - '0'.toNat = decimals.idxOf digit := by
  have places : decimals.all fun digit => digit.toNat - '0'.toNat == decimals.idxOf digit := by
    decide
  exact beq_iff_eq.mp (List.all_eq_true.mp places digit member)

/-- **The first digit counts most.** -/
theorem digitsValue_eq {digits : List Char} (all : digits ⊆ decimals) :
    digitsValue digits = Nat.ofDigits 10 (digits.reverse.map decimals.idxOf) := by
  rw [Nat.ofDigits_eq_foldr, List.foldr_map, List.foldr_reverse, digitsValue]
  refine List.foldl_ext _ _ _ fun value digit member => ?_
  rw [code_of_mem_decimals (all member)]
  exact Nat.add_comm _ _

/-- What is left of a text behind its sign. -/
theorem unsigned_cases (chars : List Char) :
    chars = unsigned chars ∨ chars = '+' :: unsigned chars := by
  unfold unsigned
  split
  · exact .inr rfl
  · exact .inl rfl

theorem unsigned_of_subset {digits : List Char} (all : digits ⊆ decimals) :
    unsigned digits = digits := by
  unfold unsigned
  split
  · exact absurd (all List.mem_cons_self) (by decide)
  · rfl

/-- A text is refused unless it has digits behind its sign, and nothing else. -/
theorem refused_iff {digits : List Char} :
    (digits.isEmpty || digits.any fun digit => !digit.isDigit) = false ↔
      digits ≠ [] ∧ digits ⊆ decimals := by
  simp only [Bool.or_eq_false_iff, List.isEmpty_eq_false_iff, List.any_eq_false,
    Bool.not_eq_true', Bool.not_eq_false, isDigit_iff, List.subset_def, ne_eq]

/-- **The reader of numbers reads the numerals below its bound.** -/
theorem readNumeral_eq_some {bound number : Nat} {text : String} :
    readNumeral bound text = some number ↔ Spells text number ∧ number < bound := by
  have spelled : Spells text number ↔ (unsigned text.toList ≠ [] ∧
      unsigned text.toList ⊆ decimals) ∧ digitsValue (unsigned text.toList) = number := by
    constructor
    · rintro ⟨digits, front, filled, all, rfl⟩
      have same : unsigned text.toList = digits := by
        rcases front with plain | signed
        · rw [plain, unsigned_of_subset all]
        · rw [signed, unsigned]
      rw [same]
      exact ⟨⟨filled, all⟩, digitsValue_eq all⟩
    · rintro ⟨⟨filled, all⟩, rfl⟩
      exact ⟨_, unsigned_cases _, filled, all, (digitsValue_eq all).symm⟩
  rw [spelled, ← refused_iff]
  unfold readNumeral
  dsimp only
  split_ifs with refused below
  · simp [refused]
  · simp only [refused, Option.some.injEq, true_and]
    exact ⟨fun same => ⟨same, same ▸ below⟩, And.left⟩
  · refine iff_of_false (by simp) ?_
    rintro ⟨⟨-, rfl⟩, inside⟩
    exact below inside

end StakingDirectory.Text
