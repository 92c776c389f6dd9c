/-
**Readers take what was written.**

* `Takes` says that a reader takes some characters off the front of a text and gives a value for
  them; readers in turn take what each of them takes (`Takes.bind`);
* `takes_string`: a string is read back from between its quotation marks, whatever is escaped in it;
* `takes_amount`: a number of 64 bits is read back, if nothing follows that would go on with it;
* `takes_list`: an array is read back if its items are.
-/

import Mathlib.Data.List.Basic
import Mathlib.Tactic.SplitIfs
import StakingDirectory.Json.Codec

namespace StakingDirectory.Json

namespace Reader

variable {α β : Type}

/-- A reader takes these characters off the front of a text, and gives a value for them. -/
def Takes (reader : Reader α) (chars : List Char) (value : α) (rest : Text) : Prop :=
  reader (chars.map some ++ rest) = .ok (value, rest)

theorem takes_pure (value : α) (rest : Text) : Takes (pure value) [] value rest := rfl

theorem Takes.bind {first : Reader α} {next : α → Reader β} (chars : List Char)
    {others : List Char} {value : α} {result : β} {rest : Text}
    (earlier : Takes first chars value (others.map some ++ rest))
    (later : Takes (next value) others result rest) :
    Takes (first >>= next) (chars ++ others) result rest := by
  unfold Takes at *
  rw [List.map_append, List.append_assoc]
  show StateT.bind first next _ = _
  unfold StateT.bind
  rw [earlier]
  exact later

/-- A reader that only looks at what the next one takes. -/
theorem Takes.look {first : Reader α} {next : α → Reader β} {chars : List Char} {value : α}
    {result : β} {rest : Text} (earlier : Takes first [] value (chars.map some ++ rest))
    (later : Takes (next value) chars result rest) : Takes (first >>= next) chars result rest :=
  Takes.bind [] earlier later

/-- A reader behind which nothing more is taken. -/
theorem Takes.finish {first : Reader α} {next : α → Reader β} {chars : List Char} {value : α}
    {result : β} {rest : Text} (takes : Takes first chars value rest)
    (last : Takes (next value) [] result rest) : Takes (first >>= next) chars result rest := by
  rw [← List.append_nil chars]
  exact takes.bind chars last

theorem Takes.map {reader : Reader α} {chars : List Char} {value : α} {rest : Text}
    (takes : Takes reader chars value rest) (change : α → β) :
    Takes (change <$> reader) chars (change value) rest := by
  show StateT.map change reader _ = _
  unfold StateT.map
  rw [takes]
  rfl

/-- The next character is told and stays, unless it is a blank. -/
theorem takes_peek {char : Char} (solid : isBlank char = false) (rest : Text) :
    Takes peek [] (some char) (some char :: rest) := by
  show peek (some char :: rest) = _
  simp only [peek, dropBlanks, solid]
  rfl

theorem takes_drop (char : Char) (rest : Text) : Takes drop [char] () rest := rfl

theorem takes_get (rest : Text) : Takes get [] rest rest := rfl

theorem takes_word (chars : List Char) (rest : Text) : Takes (word chars) chars () rest := by
  induction chars with
  | nil => rfl
  | cons char others ih =>
    unfold word
    refine Takes.look (takes_get ((char :: others).map some ++ rest)) ?_
    show Takes (if char = char then _ else _) _ _ _
    rw [if_pos rfl]
    exact Takes.bind [char] (takes_drop char _) ih

theorem takes_token {char : Char} {others : List Char} (solid : isBlank char = false)
    (rest : Text) : Takes (token (char :: others)) (char :: others) () rest :=
  Takes.look (takes_peek solid _) (takes_word _ rest)

/-! ### Strings -/

theorem stringRest_pass (passed : List Char) (rest : Text) :
    stringRest passed.length (passed.map some ++ rest) = stringRest 0 rest := by
  induction passed with
  | nil => rfl
  | cons char others ih => exact ih

/-- A character that is read, and the rest behind its places. -/
theorem stringRest_character {next : Option Char} (passed : List Char) {chars : List Char}
    {char : Char} {rest left : Text} (inside : next ≠ some '"')
    (read : character? (next :: (passed.map some ++ rest)) = some (char, passed.length + 1))
    (later : stringRest 0 rest = .ok (chars, left)) :
    stringRest 0 (next :: (passed.map some ++ rest)) = .ok (char :: chars, left) := by
  unfold stringRest
  rw [if_neg inside, read]
  dsimp only
  rw [Nat.add_sub_cancel, stringRest_pass, later]

theorem hexDigit?_digitChar {value : Nat} (small : value < 16) :
    hexDigit? (some (Nat.digitChar value)) = some value := by
  have all : ∀ value < 16, hexDigit? (some (Nat.digitChar value)) = some value := by decide
  exact all value small

theorem stringRest_escape {char : Char} {chars : List Char} {rest left : Text}
    (later : stringRest 0 rest = .ok (chars, left)) :
    stringRest 0 ((escape char).map some ++ rest) = .ok (char :: chars, left) := by
  unfold escape
  split_ifs with quote backslash newline ret tab back feed control
  · subst quote
    exact stringRest_character ['"'] (by decide) rfl later
  · subst backslash
    exact stringRest_character ['\\'] (by decide) rfl later
  · subst newline
    exact stringRest_character ['n'] (by decide) rfl later
  · subst ret
    exact stringRest_character ['r'] (by decide) rfl later
  · subst tab
    exact stringRest_character ['t'] (by decide) rfl later
  · subst back
    exact stringRest_character ['b'] (by decide) rfl later
  · subst feed
    exact stringRest_character ['f'] (by decide) rfl later
  · refine stringRest_character ['u', '0', '0', _, _] (by decide) ?_ later
    have unit : codeUnit? (some '0') (some '0') (some (Nat.digitChar (char.toNat / 16)))
        (some (Nat.digitChar (char.toNat % 16))) = some char.toNat := by
      unfold codeUnit?
      rw [hexDigit?_digitChar (by omega), hexDigit?_digitChar (by omega)]
      show some (4096 * 0 + 256 * 0 + 16 * (char.toNat / 16) + char.toNat % 16) = _
      congr 1
      omega
    have whole : isLowHalf char.toNat = false ∧ isHighHalf char.toNat = false := by
      simp only [isLowHalf, isHighHalf, Bool.and_eq_false_iff, decide_eq_false_iff_not]
      omega
    simp only [List.map_cons, List.map_nil, List.cons_append, List.nil_append, character?, unit]
    rw [whole.1, whole.2, Char.ofNat_toNat]
    rfl
  · refine stringRest_character [] (by simpa using quote) ?_ later
    unfold character?
    split
    · rename_i same
      exact absurd (Option.some.inj (List.cons.inj same).1) backslash
    · rename_i same
      exact absurd (Option.some.inj (List.cons.inj same).1) backslash
    · rename_i same
      obtain rfl := Option.some.inj (List.cons.inj same).1
      exact if_neg (by simp [backslash, control])
    · rename_i other
      exact absurd rfl (other _ _)

/-- The inside of a string is read back, up to its end. -/
theorem stringRest_chars (chars : List Char) (rest : Text) :
    stringRest 0 ((chars.flatMap escape ++ ['"']).map some ++ rest) = .ok (chars, rest) := by
  induction chars with
  | nil => rfl
  | cons char others ih =>
    rw [List.flatMap_cons, List.append_assoc, List.map_append, List.append_assoc]
    exact stringRest_escape ih

/-- **A string is read back from between its quotation marks.** -/
theorem takes_string (text : String) (rest : Text) : Takes string (quoted text) text rest := by
  have chars : Takes (stringRest 0) (text.toList.flatMap escape ++ ['"']) text.toList rest :=
    stringRest_chars text.toList rest
  refine Takes.bind ['"'] (takes_token rfl _) ?_
  refine Takes.finish chars ?_
  rw [String.ofList_toList]
  exact takes_pure text rest

/-! ### Numbers -/

/-- What may follow a value inside another one. -/
def Closed (rest : Text) : Prop :=
  ∀ next ∈ rest.head?, next = some ',' ∨ next = some ']' ∨ next = some '\x7d'

theorem isBlank_of_isDigit {char : Char} (digit : char.isDigit = true) : isBlank char = false := by
  by_contra blank
  simp only [isBlank, Bool.not_eq_false, Bool.or_eq_true, beq_iff_eq] at blank
  rcases blank with ((rfl | rfl) | rfl) | rfl <;> exact absurd digit (by decide)

theorem exists_digits (value : Nat) :
    ∃ first others, Nat.toDigits 10 value = first :: others ∧ first.isDigit = true := by
  obtain ⟨first, others, spelled⟩ := List.exists_cons_of_ne_nil
    (Nat.toDigits_ne_nil (n := value) (b := 10))
  refine ⟨first, others, spelled, Nat.isDigit_of_mem_toDigits (b := 10) (n := value) (by decide)
    (by decide) ?_⟩
  rw [spelled]
  exact List.mem_cons_self

/-- A number above zero does not begin with zero. -/
theorem exists_toDigits {value : Nat} (positive : 0 < value) :
    ∃ first others, Nat.toDigits 10 value = first :: others ∧ first ≠ '0' := by
  induction value using Nat.strongRecOn with
  | ind value ih =>
    rw [Nat.toDigits_eq_if (by decide)]
    split_ifs with single
    · exact ⟨_, [], rfl, by simpa using Nat.pos_iff_ne_zero.mp positive⟩
    · obtain ⟨first, others, same, nonzero⟩ := ih (value / 10) (by omega) (by omega)
      rw [same]
      exact ⟨first, others ++ [_], rfl, nonzero⟩

theorem isWhole_toDigits (value : Nat) : isWhole (Nat.toDigits 10 value) = true := by
  rcases Nat.eq_zero_or_pos value with rfl | positive
  · rfl
  · obtain ⟨first, others, same, nonzero⟩ := exists_toDigits positive
    rw [same]
    unfold isWhole
    split
    · rename_i none
      cases none
    · rfl
    · rename_i same
      cases same
      simpa using nonzero

/-- Digits are taken as far as they go. -/
theorem takes_digits (value : Nat) {rest : Text} (closed : Closed rest) :
    Takes digits (Nat.toDigits 10 value) (Nat.toDigits 10 value) rest := by
  have stop : ∀ next ∈ rest.head?, ¬ next.any Char.isDigit := by
    intro next member
    rcases closed next member with rfl | rfl | rfl <;> decide
  have all : ∀ next ∈ (Nat.toDigits 10 value).map some, next.any Char.isDigit := by
    intro next member
    obtain ⟨digit, inside, rfl⟩ := List.mem_map.mp member
    exact Nat.isDigit_of_mem_toDigits (by decide) (by decide) inside
  have front : rest.takeWhile (fun next => next.any Char.isDigit) = [] ∧
      rest.dropWhile (fun next => next.any Char.isDigit) = rest := by
    cases rest with
    | nil => exact ⟨rfl, rfl⟩
    | cons next others =>
      have digit := stop next rfl
      exact ⟨List.takeWhile_cons_of_neg digit, List.dropWhile_cons_of_neg digit⟩
  unfold Takes digits
  dsimp only
  rw [List.takeWhile_append_of_pos all, List.dropWhile_append_of_pos all, front.1, front.2,
    List.append_nil, List.filterMap_map]
  simp

/-- **A number is read back**, if it is followed by what may follow a value. -/
theorem takes_amount (value : UInt64) {rest : Text} (closed : Closed rest) :
    Takes amount (Nat.toDigits 10 value.toNat) value rest := by
  obtain ⟨first, others, spelled, digit⟩ := exists_digits value.toNat
  have peeked : Takes peek [] (some first) ((Nat.toDigits 10 value.toNat).map some ++ rest) := by
    rw [spelled]
    exact takes_peek (isBlank_of_isDigit digit) _
  have number : (Nat.toDigits 10 value.toNat).foldl
      (fun value digit => 10 * value + (digit.toNat - 48)) 0 = value.toNat :=
    Nat.ofDigitChars_ten_toDigits
  refine Takes.look peeked (Takes.finish (takes_digits value.toNat closed) ?_)
  dsimp only
  rw [number]
  refine Takes.look (takes_get rest) ?_
  split
  all_goals rename_i head
  · exact absurd (closed _ head) (by decide)
  · exact absurd (closed _ head) (by decide)
  · exact absurd (closed _ head) (by decide)
  · rw [isWhole_toDigits, Bool.true_and, decide_eq_true value.toNat_lt_size, if_pos rfl,
      UInt64.ofNat_toNat]
    exact takes_pure value rest

/-! ### Values -/

theorem closed_of_mem {char : Char} (mark : char = ',' ∨ char = ']' ∨ char = '\x7d') (rest : Text) :
    Closed (some char :: rest) := by
  rintro next ⟨⟩
  simpa using mark

theorem takes_flag (value : Bool) (rest : Text) : Takes flag (Json.chars (.bool value)) value rest := by
  cases value with
  | true => exact Takes.look (takes_peek rfl _) (Takes.finish (takes_word _ _) rfl)
  | false => exact Takes.look (takes_peek rfl _) (Takes.finish (takes_word _ _) rfl)

theorem takes_nothing (rest : Text) : Takes nothing (Json.chars .null) () rest :=
  takes_token rfl rest

theorem chars_number (value : Nat) : Json.chars (.number value) = Nat.toDigits 10 value := by
  rw [Json.chars]
  show (toString value).toList = _
  rw [Nat.toString_eq_ofList_toDigits, String.toList_ofList]

/-- **The text of a value begins with neither a blank nor the end of something.** -/
theorem exists_front (value : Json) :
    ∃ first others, value.chars = first :: others ∧ isBlank first = false ∧ first ≠ ']' := by
  cases value with
  | null => exact ⟨_, _, rfl, by decide, by decide⟩
  | bool value => cases value <;> exact ⟨_, _, rfl, by decide, by decide⟩
  | number value =>
    cases value with
    | ofNat value =>
      obtain ⟨first, others, spelled, digit⟩ := exists_digits value
      refine ⟨first, others, (chars_number value).trans spelled, isBlank_of_isDigit digit, ?_⟩
      · rintro rfl
        exact absurd digit (by decide)
    | negSucc value =>
      refine ⟨'-', (toString (value + 1)).toList, ?_, by decide, by decide⟩
      rw [chars]
      show ("-" ++ toString (value + 1)).toList = _
      rw [String.toList_append]
      rfl
  | string text => exact ⟨_, _, rfl, by decide, by decide⟩
  | array items => cases items <;> exact ⟨_, _, rfl, by decide, by decide⟩
  | object members => cases members <;> exact ⟨_, _, rfl, by decide, by decide⟩

/-! ### Arrays -/

/-- A reader reads back what is written for some value. -/
def Restores {α : Type} (reader : Reader α) (value : α) (written : Json) : Prop :=
  ∀ rest, Closed rest → Takes reader written.chars value rest

theorem length_itemChars (items : List Json) : items.length < (itemChars items).length := by
  induction items with
  | nil => simp [itemChars]
  | cons item rest ih =>
    simp only [itemChars, List.length_cons, List.length_append]
    omega

variable {item : Reader α} {write : α → Json}

/-- Items are read up to the end of their array. -/
theorem takes_items (first : α) (others : List α)
    (restores : ∀ value ∈ first :: others, Restores item value (write value)) {bound : Text}
    (long : others.length < bound.length) (rest : Text) :
    Takes (items item bound) ((write first).chars ++ itemChars (others.map write))
      (first :: others) rest := by
  induction others generalizing first bound with
  | nil =>
    obtain ⟨mark, bound, rfl⟩ := List.exists_cons_of_length_pos long
    refine Takes.bind _ (restores first List.mem_cons_self _ (closed_of_mem (by simp) _)) ?_
    exact Takes.look (takes_peek rfl _) (Takes.finish (takes_drop _ _) rfl)
  | cons second others ih =>
    obtain ⟨mark, bound, rfl⟩ := List.exists_cons_of_length_pos (Nat.zero_lt_of_lt long)
    have short : others.length < bound.length := by simpa using long
    have later := ih second (fun value member => restores value (List.mem_cons_of_mem _ member)) short
    refine Takes.bind _ (restores first List.mem_cons_self _ (closed_of_mem (by simp) _)) ?_
    refine Takes.look (takes_peek rfl _) (Takes.bind _ (takes_drop _ _) ?_)
    exact Takes.finish later rfl

/-- **An array is read back**, if its items are. -/
theorem takes_list (values : List α)
    (restores : ∀ value ∈ values, Restores item value (write value)) (rest : Text) :
    Takes (list item) (Json.chars (.array (values.map write))) values rest := by
  cases values with
  | nil =>
    refine Takes.bind ['['] (takes_token rfl _) ?_
    exact Takes.look (takes_peek rfl _) (Takes.finish (takes_drop _ _) rfl)
  | cons first others =>
    obtain ⟨front, more, spelled, solid, inside⟩ := exists_front (write first)
    have peeked : Takes peek [] (some front)
        (((write first).chars ++ itemChars (others.map write)).map some ++ rest) := by
      rw [spelled]
      exact takes_peek solid _
    refine Takes.bind ['['] (takes_token rfl _) (Takes.look peeked ?_)
    split
    · rename_i same
      exact absurd (Option.some.inj same) inside
    · refine Takes.look (takes_get _) (takes_items first others restores ?_ rest)
      have long := length_itemChars (others.map write)
      rw [List.length_map] at long
      show others.length <
        (((write first).chars ++ itemChars (others.map write)).map some ++ rest).length
      simp only [List.length_append, List.length_map]
      omega

end Reader

end StakingDirectory.Json
