/-
**What hexadecimal text is, and where a text departs from it.**

The reader of hexadecimal text is measured by a grammar of its own:

* `Behind` takes one mark off a text, where it has one;
* `Numeral` is digits of either case, each the place of its value in the alphabet, and as many of
  them as bytes take; `pairValues` is what they stand for;
* `Offends` is the first byte of a text that is no digit, and where it stands.

The reader knows no more than this. Digits that do not pair up are found first, whatever they are
(`readDigits_odd`); pairs are read up to the first byte that offends (`readPairs_offending`) and
throughout if there is none (`exists_readPairs`). So `decode_grammar` lists all that can come of a
text, for the bytes themselves and for every type of fixed length.
-/

import Mathlib.Data.List.Induction
import StakingDirectory.Proofs.Text.Hex

namespace StakingDirectory.Hex

/-! ### The grammar -/

/-- What is left of a text behind its mark. A second mark is left where it is. -/
def Behind (text bare : String) : Prop :=
  text = "0x" ++ bare ∨ text = "0X" ++ bare ∨
    bare = text ∧ ∀ rest, text ≠ "0x" ++ rest ∧ text ≠ "0X" ++ rest

/-- The digits, each at the place of its value. -/
def alphabet : List Char := "0123456789abcdef".toList

/-- A character is a digit, in either case. -/
def IsDigit (char : Char) : Prop := char.toLower ∈ alphabet

instance (char : Char) : Decidable (IsDigit char) := inferInstanceAs (Decidable (_ ∈ alphabet))

/-- The value of a digit. -/
def placeValue (char : Char) : Nat := alphabet.idxOf char.toLower

/-- Digits that pair up. -/
structure Numeral (text : String) : Prop where
  digits : ∀ char ∈ text.toList, IsDigit char
  pairs : text.length % 2 = 0

/-- The bytes that pairs of digits stand for. -/
def pairValues : List Char → Bytes
  | high :: low :: rest => UInt8.ofNat (16 * placeValue high + placeValue low) :: pairValues rest
  | _ => []

/-- A byte is the code of a digit. -/
def IsDigitCode (byte : UInt8) : Prop := IsDigit (Char.ofNat byte.toNat)

instance (byte : UInt8) : Decidable (IsDigitCode byte) := inferInstanceAs (Decidable (IsDigit _))

/-- The first byte that is no digit, and its position. -/
def Offends (bytes : Bytes) (byte : UInt8) (position : Nat) : Prop :=
  ∃ front rest, bytes = front ++ byte :: rest ∧ front.length = position ∧
    (∀ other ∈ front, IsDigitCode other) ∧ ¬ IsDigitCode byte

/-! ### Marks -/

theorem ofList_small (rest : List Char) :
    String.ofList ('0' :: 'x' :: rest) = "0x" ++ String.ofList rest := by
  rw [← String.toList_inj]
  simp

theorem ofList_large (rest : List Char) :
    String.ofList ('0' :: 'X' :: rest) = "0X" ++ String.ofList rest := by
  rw [← String.toList_inj]
  simp

theorem behind_ofList (chars : List Char) :
    Behind (String.ofList chars) (String.ofList (dropMark chars)) := by
  unfold dropMark
  split
  · exact .inl (ofList_small _)
  · exact .inr (.inl (ofList_large _))
  · rename_i small large
    refine .inr (.inr ⟨rfl, fun rest => ⟨fun same => small rest.toList ?_,
      fun same => large rest.toList ?_⟩⟩)
    · rwa [← String.ofList_toList (s := rest), ← ofList_small, String.ofList_inj] at same
    · rwa [← String.ofList_toList (s := rest), ← ofList_large, String.ofList_inj] at same

theorem behind_unmarked (text : String) : Behind text (unmarked text) := by
  have behind := behind_ofList text.toList
  rwa [String.ofList_toList] at behind

/-- **What stands behind the mark** is what the reader goes on with. -/
theorem behind_iff {text bare : String} : Behind text bare ↔ bare = unmarked text := by
  constructor
  · rintro (rfl | rfl | ⟨rfl, without⟩)
    · simp [unmarked, dropMark]
    · simp [unmarked, dropMark]
    · rcases behind_unmarked bare with small | large | ⟨same, -⟩
      · exact absurd small (without _).1
      · exact absurd large (without _).2
      · exact same.symm
  · rintro rfl
    exact behind_unmarked text

/-! ### Digits -/

theorem mem_alphabet {char : Char} :
    char ∈ alphabet ↔ ∃ value < 16, char = Nat.digitChar value := by
  have digits : alphabet = (List.range 16).map Nat.digitChar := by decide
  simp only [digits, List.mem_map, List.mem_range, eq_comm]

/-- A character is read as the value of a digit if it is one and has this value. -/
theorem spells_iff {char : Char} {value : Nat} :
    Spells char value ↔ IsDigit char ∧ placeValue char = value := by
  have places : ∀ value < 16, alphabet.idxOf (Nat.digitChar value) = value := by decide
  constructor
  · intro spells
    obtain ⟨small, same⟩ := toLower_of_spells spells
    refine ⟨mem_alphabet.mpr ⟨value, small, same⟩, ?_⟩
    rw [placeValue, same, places value small]
  · rintro ⟨digit, rfl⟩
    obtain ⟨value, small, same⟩ := mem_alphabet.mp digit
    rw [placeValue, same, places value small]
    exact spells_of_toLower small same

/-- A byte is read as a digit if it is the code of one. -/
theorem isSome_digitValue? (byte : UInt8) : (digitValue? byte).isSome ↔ IsDigitCode byte := by
  have codes : ∀ code < 256,
      (digitValue? (UInt8.ofNat code)).isSome = decide (IsDigit (Char.ofNat code)) := by
    decide +kernel
  have code := codes byte.toNat byte.toNat_lt
  rw [UInt8.ofNat_toNat] at code
  rw [code, decide_eq_true_iff]
  rfl

theorem placeValue_lt {char : Char} (digit : IsDigit char) : placeValue char < 16 :=
  List.idxOf_lt_length_of_mem digit

/-- The halves of a byte are the values of two digits if the byte is what the digits stand for. -/
theorem halves_eq_iff {byte : UInt8} {high low : Char} (highDigit : IsDigit high)
    (lowDigit : IsDigit low) :
    placeValue high = byte.toNat / 16 ∧ placeValue low = byte.toNat % 16 ↔
      byte = UInt8.ofNat (16 * placeValue high + placeValue low) := by
  have lowSmall := placeValue_lt lowDigit
  rw [← UInt8.toNat_inj, toNat_pair (placeValue_lt highDigit) lowSmall]
  omega

/-- **Characters spell bytes** if they are digits that pair up, and the bytes are their values. -/
theorem spelled_iff_pairValues {chars : List Char} {bytes : Bytes} :
    List.Forall₂ Spells chars (Address.halves bytes) ↔
      (∀ char ∈ chars, IsDigit char) ∧ chars.length % 2 = 0 ∧ bytes = pairValues chars := by
  fun_induction pairValues chars generalizing bytes with
  | case1 high low rest ih =>
    cases bytes with
    | nil => simp [Address.halves]
    | cons byte others =>
      have whole : Address.halves (byte :: others) =
        byte.toNat / 16 :: byte.toNat % 16 :: Address.halves others := rfl
      simp only [whole, List.forall₂_cons, spells_iff, ih, List.forall_mem_cons, List.length_cons,
        List.cons.injEq]
      constructor
      · rintro ⟨⟨highDigit, upper⟩, ⟨lowDigit, lower⟩, digits, pairs, rfl⟩
        exact ⟨⟨highDigit, lowDigit, digits⟩, by omega,
          (halves_eq_iff highDigit lowDigit).mp ⟨upper, lower⟩, rfl⟩
      · rintro ⟨⟨highDigit, lowDigit, digits⟩, pairs, same, rfl⟩
        obtain ⟨upper, lower⟩ := (halves_eq_iff highDigit lowDigit).mpr same
        exact ⟨⟨highDigit, upper⟩, ⟨lowDigit, lower⟩, digits, by omega, rfl⟩
  | case2 chars single =>
    rcases chars with _ | ⟨high, _ | ⟨low, rest⟩⟩
    · cases bytes <;> simp [Address.halves]
    · cases bytes <;> simp [Address.halves]
    · exact absurd rfl (single high low rest)

/-! ### Pairs of digits -/

theorem readDigits_odd {bytes : Bytes} (odd : bytes.length % 2 = 1) :
    readDigits bytes = .error .oddLength :=
  if_pos odd

theorem readDigits_even {bytes : Bytes} (even : bytes.length % 2 = 0) :
    readDigits bytes = readPairs 0 bytes :=
  if_neg (by omega)

/-- Digits that pair up are read. -/
theorem exists_readPairs {bytes : Bytes} (even : bytes.length % 2 = 0)
    (digits : ∀ byte ∈ bytes, IsDigitCode byte) (position : Nat) :
    ∃ read, readPairs position bytes = .ok read := by
  fun_induction readPairs position bytes with
  | case1 => exact ⟨[], rfl⟩
  | case2 => simp at even
  | case3 position high low rest none =>
    have digit := (isSome_digitValue? high).mpr (digits high (by simp))
    rw [none] at digit
    cases digit
  | case4 position high low rest upper none =>
    have digit := (isSome_digitValue? low).mpr (digits low (by simp))
    rw [none] at digit
    cases digit
  | case5 position high low rest upper lower lowValue highValue ih =>
    obtain ⟨read, done⟩ := ih (by simp at even; omega)
      fun byte member => digits byte (List.mem_cons_of_mem _ (List.mem_cons_of_mem _ member))
    exact ⟨_, by rw [done]; rfl⟩

/-- **Pairs are read up to the first byte that is no digit.** -/
theorem readPairs_offending {front rest : Bytes} {byte : UInt8}
    (even : (front ++ byte :: rest).length % 2 = 0)
    (digits : ∀ other ∈ front, IsDigitCode other) (offends : ¬ IsDigitCode byte)
    (position : Nat) :
    readPairs position (front ++ byte :: rest) =
      .error (.badDigit byte (position + front.length)) := by
  have none : digitValue? byte = none := by
    rwa [← isSome_digitValue?, Option.not_isSome_iff_eq_none] at offends
  induction front using List.twoStepInduction generalizing position with
  | nil =>
    -- An even number of bytes leaves one behind the byte that offends.
    obtain ⟨low, others, rfl⟩ : ∃ low others, rest = low :: others := by
      refine List.exists_cons_of_ne_nil fun empty => ?_
      simp [empty] at even
    rw [List.nil_append, readPairs, none]
    rfl
  | singleton high =>
    obtain ⟨upper, known⟩ :=
      Option.isSome_iff_exists.mp ((isSome_digitValue? high).mpr (digits high (by simp)))
    rw [List.singleton_append, readPairs, known, none]
    rfl
  | cons_cons high low others ih _ =>
    have digit := fun byte member => (isSome_digitValue? byte).mpr (digits byte member)
    obtain ⟨upper, highKnown⟩ := Option.isSome_iff_exists.mp (digit high (by simp))
    obtain ⟨lower, lowKnown⟩ := Option.isSome_iff_exists.mp (digit low (by simp))
    have later := ih (by simp at even ⊢; omega)
      (fun byte member => digits byte (List.mem_cons_of_mem _ (List.mem_cons_of_mem _ member)))
      (position + 2)
    rw [List.cons_append, List.cons_append, readPairs, highKnown, lowKnown, later]
    show Except.error (Fault.badDigit byte (position + 2 + others.length)) = _
    rw [List.length_cons, List.length_cons]
    congr 2
    omega

/-- Bytes are all digits, or one of them is the first that is none. -/
theorem digits_or_offends (bytes : Bytes) :
    (∀ byte ∈ bytes, IsDigitCode byte) ∨ ∃ byte position, Offends bytes byte position := by
  induction bytes with
  | nil => exact .inl fun _ member => absurd member List.not_mem_nil
  | cons first rest ih =>
    by_cases digit : IsDigitCode first
    · rcases ih with digits | ⟨byte, _, front, others, rfl, rfl, digits, offends⟩
      · exact .inl (List.forall_mem_cons.mpr ⟨digit, digits⟩)
      · exact .inr ⟨byte, _, first :: front, others, rfl, rfl,
          List.forall_mem_cons.mpr ⟨digit, digits⟩, offends⟩
    · exact .inr ⟨first, 0, [], rest, rfl, rfl, by simp, digit⟩

/-! ### Texts -/

section

variable {text : String}

/-- **A text is read as what a numeral stands for**, and no other text is read. -/
theorem decode_numeral {bytes : Bytes} :
    decode text = .ok bytes ↔
      Numeral (unmarked text) ∧ bytes = pairValues (unmarked text).toList := by
  rw [decode_iff_spelled, spelled_iff_pairValues]
  exact ⟨fun ⟨digits, pairs, same⟩ => ⟨⟨digits, pairs⟩, same⟩,
    fun ⟨numeral, same⟩ => ⟨numeral.digits, numeral.pairs, same⟩⟩

theorem encode_of_decode {bytes : Bytes} (read : decode text = .ok bytes) :
    encode bytes = (unmarked text).toLower :=
  (toLower_eq_encode.mpr (decode_iff_spelled.mp read)).symm

theorem decode_odd (odd : (Bytes.ofText (unmarked text)).length % 2 = 1) :
    decode text = .error .oddLength :=
  readDigits_odd odd

theorem decode_offending {byte : UInt8} {position : Nat}
    (even : (Bytes.ofText (unmarked text)).length % 2 = 0)
    (offends : Offends (Bytes.ofText (unmarked text)) byte position) :
    decode text = .error (.badDigit byte position) := by
  obtain ⟨front, rest, whole, rfl, digits, offends⟩ := offends
  rw [whole] at even
  rw [decode, whole, readDigits_even even, readPairs_offending even digits offends, Nat.zero_add]

/-- **Nothing else can come of a text.** -/
theorem decode_cases (text : String) :
    (∃ bytes, decode text = .ok bytes) ∨ (Bytes.ofText (unmarked text)).length % 2 = 1 ∨
      (Bytes.ofText (unmarked text)).length % 2 = 0 ∧
        ∃ byte position, Offends (Bytes.ofText (unmarked text)) byte position := by
  rcases Nat.mod_two_eq_zero_or_one (Bytes.ofText (unmarked text)).length with even | odd
  · rcases digits_or_offends (Bytes.ofText (unmarked text)) with digits | offends
    · obtain ⟨bytes, read⟩ := exists_readPairs even digits 0
      exact .inl ⟨bytes, by rw [decode, readDigits_even even, read]⟩
    · exact .inr (.inr ⟨even, offends⟩)
  · exact .inr (.inl odd)

theorem decode_eq_error {fault : Fault} :
    decode text = .error fault ↔
      (Bytes.ofText (unmarked text)).length % 2 = 1 ∧ fault = .oddLength ∨
        (Bytes.ofText (unmarked text)).length % 2 = 0 ∧ ∃ byte position,
          Offends (Bytes.ofText (unmarked text)) byte position ∧
            fault = .badDigit byte position := by
  constructor
  · intro refused
    rcases decode_cases text with ⟨bytes, read⟩ | odd | ⟨even, byte, position, offends⟩
    · rw [read] at refused
      cases refused
    · rw [decode_odd odd] at refused
      cases refused
      exact .inl ⟨odd, rfl⟩
    · rw [decode_offending even offends] at refused
      cases refused
      exact .inr ⟨even, byte, position, offends, rfl⟩
  · rintro (⟨odd, rfl⟩ | ⟨even, byte, position, offends, rfl⟩)
    · exact decode_odd odd
    · exact decode_offending even offends

theorem decode_eq_oddLength :
    decode text = .error .oddLength ↔ (Bytes.ofText (unmarked text)).length % 2 = 1 := by
  simp [decode_eq_error]

theorem decode_eq_badDigit {byte : UInt8} {position : Nat} :
    decode text = .error (.badDigit byte position) ↔
      (Bytes.ofText (unmarked text)).length % 2 = 0 ∧
        Offends (Bytes.ofText (unmarked text)) byte position := by
  simp [decode_eq_error]

/-- Bytes that are read may be of any number. -/
theorem decode_ne_wrongLength {got expected : Nat} :
    decode text ≠ .error (.wrongLength got expected) := by
  simp [decode_eq_error]

end

/-! ### Values of fixed length -/

theorem length_pairValues (chars : List Char) : (pairValues chars).length = chars.length / 2 := by
  fun_induction pairValues chars with
  | case1 high low rest ih =>
    simp only [List.length_cons, ih]
    omega
  | case2 chars single =>
    rcases chars with _ | ⟨high, _ | ⟨low, rest⟩⟩
    · rfl
    · simp
    · exact absurd rfl (single high low rest)

/-- What is read of a numeral has one byte for two digits. -/
theorem Numeral.length_pairValues {bare : String} (numeral : Numeral bare) (count : Nat) :
    (pairValues bare.toList).length = count ↔ bare.length = 2 * count := by
  have pairs := numeral.pairs
  rw [Hex.length_pairValues, String.length_toList]
  omega

section

variable {text : String} {size : Nat}

theorem ofHex_iff_decode {value : FixedBytes size} :
    FixedBytes.ofHex text = .ok value ↔ decode text = .ok value.bytes := by
  rw [FixedBytes.ofHex_eq_ok, decode_eq_ok]

/-- A text of the right length is read as a value. -/
theorem exists_ofHex :
    (∃ value : FixedBytes size, FixedBytes.ofHex text = .ok value) ↔
      Numeral (unmarked text) ∧ (unmarked text).length = 2 * size := by
  constructor
  · rintro ⟨value, read⟩
    obtain ⟨numeral, same⟩ := decode_numeral.mp (ofHex_iff_decode.mp read)
    exact ⟨numeral, (numeral.length_pairValues size).mp (same ▸ value.length_bytes)⟩
  · rintro ⟨numeral, long⟩
    have fits := (numeral.length_pairValues size).mpr long
    exact ⟨⟨_, fits⟩, ofHex_iff_decode.mpr (decode_numeral.mpr ⟨numeral, rfl⟩)⟩

theorem ofHex_of_refused {fault : Fault} (refused : decode text = .error fault) :
    (FixedBytes.ofHex text : Except Fault (FixedBytes size)) = .error fault := by
  rw [FixedBytes.ofHex, refused]

/-- **Another length is reported** only of a text that is a numeral. -/
theorem ofHex_eq_wrongLength {got expected : Nat} :
    (FixedBytes.ofHex text : Except Fault (FixedBytes size)) =
        .error (.wrongLength got expected) ↔
      Numeral (unmarked text) ∧ (unmarked text).length = 2 * got ∧ got ≠ size ∧
        expected = size := by
  cases read : decode text with
  | ok bytes =>
    obtain ⟨numeral, rfl⟩ := decode_numeral.mp read
    rw [← numeral.length_pairValues, FixedBytes.ofHex, read]
    simp only [FixedBytes.ofBytes]
    split
    · rename_i fits
      refine iff_of_false (by simp) ?_
      rintro ⟨-, rfl, other, -⟩
      exact other fits
    · rename_i other
      simp only [Except.error.injEq, Fault.wrongLength.injEq]
      constructor
      · rintro ⟨rfl, rfl⟩
        exact ⟨numeral, rfl, other, rfl⟩
      · rintro ⟨-, rfl, -, rfl⟩
        exact ⟨rfl, rfl⟩
  | error fault =>
    refine iff_of_false ?_ ?_
    · rw [ofHex_of_refused read]
      rintro ⟨⟩
      exact decode_ne_wrongLength read
    · rintro ⟨numeral, -⟩
      rw [decode_numeral.mpr ⟨numeral, rfl⟩] at read
      cases read

end

/-- **All that can come of a text.** One mark is taken off at most. What is left is read if it is
digits that pair up, as their values, which are written as the digits in lower case; an odd number
of bytes is reported first, then the first byte that is no digit. A value of fixed length, such as
an address or a validator key, is read of a numeral of its length; another length is reported of a
numeral only, and what is wrong with any other text as before. -/
theorem decode_grammar (text : String) :
    ∃ bare, (∀ other, Behind text other ↔ other = bare) ∧
      (∀ bytes, decode text = .ok bytes ↔ Numeral bare ∧ bytes = pairValues bare.toList) ∧
      (∀ bytes, decode text = .ok bytes → encode bytes = bare.toLower) ∧
      (decode text = .error .oddLength ↔ (Bytes.ofText bare).length % 2 = 1) ∧
      (∀ byte position, decode text = .error (.badDigit byte position) ↔
        (Bytes.ofText bare).length % 2 = 0 ∧ Offends (Bytes.ofText bare) byte position) ∧
      ∀ size,
        (∀ value : FixedBytes size, FixedBytes.ofHex text = .ok value ↔
          Numeral bare ∧ value.bytes = pairValues bare.toList) ∧
        ((∃ value : FixedBytes size, FixedBytes.ofHex text = .ok value) ↔
          Numeral bare ∧ bare.length = 2 * size) ∧
        (∀ got expected, (FixedBytes.ofHex text : Except Fault (FixedBytes size)) =
            .error (.wrongLength got expected) ↔
          Numeral bare ∧ bare.length = 2 * got ∧ got ≠ size ∧ expected = size) ∧
        (∀ fault, decode text = .error fault →
          (FixedBytes.ofHex text : Except Fault (FixedBytes size)) = .error fault) := by
  refine ⟨unmarked text, fun other => behind_iff, fun _ => decode_numeral,
    fun _ => encode_of_decode, decode_eq_oddLength, fun _ _ => decode_eq_badDigit, ?_⟩
  intro size
  refine ⟨fun value => ?_, exists_ofHex, fun _ _ => ofHex_eq_wrongLength,
    fun _ => ofHex_of_refused⟩
  rw [ofHex_iff_decode, decode_numeral]

/-- The letter of a second mark is no digit, which is reported in front of the character behind it;
an address is refused alike. -/
theorem decode_grammar_doubledMark :
    decode "0x0Xé" = .error (.badDigit 88 1) ∧
      (FixedBytes.ofHex "0x0Xé" : Except Fault (FixedBytes 20)) = .error (.badDigit 88 1) ∧
      decode "0X0aF0" = .ok [10, 240] ∧
      ∃ bare, Behind "0X0aF0" bare ∧ encode [10, 240] = bare.toLower := by
  obtain ⟨_, -, -, -, -, -, fixed⟩ := decode_grammar "0x0Xé"
  obtain ⟨bare, behind, -, written, -⟩ := decode_grammar "0X0aF0"
  have refused : decode "0x0Xé" = .error (.badDigit 88 1) := by decide
  have read : decode "0X0aF0" = .ok [10, 240] := by decide
  exact ⟨refused, (fixed 20).2.2.2 _ refused, read, bare, (behind bare).mpr rfl, written _ read⟩

end StakingDirectory.Hex
