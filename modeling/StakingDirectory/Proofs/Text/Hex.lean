/-
**Hexadecimal text is read back.**

* `Spells` says that a character is a digit of some value, in either case. Characters that spell the
  halves of bytes are read as these bytes (`decode_spelled`);
* `decode_encode` and `decode_marked`: the bytes that were written, bare or behind the mark, are
  read back, so that different bytes have different texts;
* `Writes` is every way to write bytes, in digits of either case, bare or behind a mark; exactly
  these texts are read as the bytes (`decode_eq_ok`, `FixedBytes.ofHex_eq_ok`);
* `Pubkey.ofHex_text` and `Address.ofHex_checksumBy`: the same of validator keys, and of addresses
  with the case of their letters taken from any digest, in particular from that of the checksum.
-/

import Mathlib.Data.List.Forall2
import Mathlib.Logic.Function.Defs
import StakingDirectory.Address
import StakingDirectory.Proofs.Text.Utf8
import StakingDirectory.Pubkey

namespace StakingDirectory.Hex

/-! ### Digits -/

/-- A character is a digit of this value. -/
def Spells (char : Char) (value : Nat) : Prop :=
  ∃ byte, String.utf8EncodeChar char = [byte] ∧ digitValue? byte = some value

theorem spells_of_eq {char : Char} {value : Nat}
    (read : (String.utf8EncodeChar char).map digitValue? = [some value]) : Spells char value := by
  obtain ⟨byte, same, known⟩ := List.map_eq_singleton_iff.mp read
  exact ⟨byte, same, known⟩

/-- A digit has the value that it is written for, and as a capital as well. -/
theorem spells_digitChar {value : Nat} (small : value < 16) :
    Spells (Nat.digitChar value) value ∧ Spells (Nat.digitChar value).toUpper value := by
  have lower : ∀ value < 16,
      (String.utf8EncodeChar (Nat.digitChar value)).map digitValue? = [some value] := by decide
  have upper : ∀ value < 16,
      (String.utf8EncodeChar (Nat.digitChar value).toUpper).map digitValue? = [some value] := by
    decide
  exact ⟨spells_of_eq (lower value small), spells_of_eq (upper value small)⟩

/-- The letter of the mark is no digit. -/
theorem not_spells_mark {char : Char} {value : Nat} (mark : char = 'x' ∨ char = 'X') :
    ¬ Spells char value := by
  rintro ⟨byte, spelled, known⟩
  have none : (String.utf8EncodeChar char).map digitValue? = [Option.none] := by
    rcases mark with rfl | rfl <;> decide
  rw [spelled, List.map_singleton, known] at none
  cases none

/-! ### Texts -/

theorem length_halves (bytes : Bytes) : (Address.halves bytes).length = 2 * bytes.length := by
  induction bytes with
  | nil => rfl
  | cons byte rest ih =>
    rw [Address.halves, List.flatMap_cons, List.length_append]
    simp only [Address.halves] at ih
    rw [ih]
    simp only [List.length_cons, List.length_nil]
    omega

theorem length_spelled {chars : List Char} {values : List Nat}
    (spelled : List.Forall₂ Spells chars values) :
    (chars.flatMap String.utf8EncodeChar).length = values.length := by
  induction spelled with
  | nil => rfl
  | cons first _ ih =>
    obtain ⟨byte, same, -⟩ := first
    rw [List.flatMap_cons, same, List.length_append, ih, List.length_singleton, List.length_cons,
      Nat.add_comm]

/-- **Digits of the halves of bytes are read as these bytes.** -/
theorem readPairs_spelled {chars : List Char} {bytes : Bytes}
    (spelled : List.Forall₂ Spells chars (Address.halves bytes)) (position : Nat) :
    readPairs position (chars.flatMap String.utf8EncodeChar) = .ok bytes := by
  induction bytes generalizing chars position with
  | nil =>
    obtain rfl := List.forall₂_nil_right_iff.mp spelled
    rfl
  | cons byte rest ih =>
    obtain ⟨_, _, ⟨high, highByte, highValue⟩, others, rfl⟩ := List.forall₂_cons_right_iff.mp spelled
    obtain ⟨_, _, ⟨low, lowByte, lowValue⟩, rest', rfl⟩ := List.forall₂_cons_right_iff.mp others
    have halves : UInt8.ofNat (16 * (byte.toNat / 16) + byte.toNat % 16) = byte := by
      rw [Nat.div_add_mod, UInt8.ofNat_toNat]
    rw [List.flatMap_cons, List.flatMap_cons, highByte, lowByte, List.singleton_append,
      List.singleton_append, readPairs, highValue, lowValue, ih rest']
    show Except.ok (_ :: rest) = _
    rw [halves]

/-- **A text is read as the bytes that it spells behind its mark.** -/
theorem decode_spelled {text : String} {chars : List Char} {bytes : Bytes}
    (bare : dropMark text.toList = chars)
    (spelled : List.Forall₂ Spells chars (Address.halves bytes)) : decode text = .ok bytes := by
  have even : ¬ 2 * bytes.length % 2 = 1 := by omega
  unfold decode unmarked readDigits Bytes.ofText
  rw [bare, String.toList_ofList, length_spelled spelled, length_halves, if_neg even,
    readPairs_spelled spelled]

/-- Digits do not begin with a mark. -/
theorem dropMark_spelled {chars : List Char} {values : List Nat}
    (spelled : List.Forall₂ Spells chars values) : dropMark chars = chars := by
  have second : ∀ {first mark : Char} {rest : List Char},
      chars = first :: mark :: rest → ¬ (mark = 'x' ∨ mark = 'X') := by
    rintro first mark rest rfl marked
    obtain ⟨_, _, -, others, rfl⟩ := List.forall₂_cons_left_iff.mp spelled
    obtain ⟨_, _, spells, -, rfl⟩ := List.forall₂_cons_left_iff.mp others
    exact not_spells_mark marked spells
  unfold dropMark
  split
  · exact absurd (.inl rfl) (second rfl)
  · exact absurd (.inr rfl) (second rfl)
  · rfl

/-! ### Written bytes -/

/-- Bytes are written in digits that spell their halves, and do so as capitals as well. -/
theorem forall₂_digits (bytes : Bytes) :
    List.Forall₂ (fun char value => Spells char value ∧ Spells char.toUpper value)
      (bytes.flatMap digits) (Address.halves bytes) := by
  induction bytes with
  | nil => exact .nil
  | cons byte rest ih =>
    have bound : byte.toNat < 256 := byte.toNat_lt
    exact .cons (spells_digitChar (by omega)) (.cons (spells_digitChar (by omega)) ih)

theorem spelled_digits (bytes : Bytes) :
    List.Forall₂ Spells (bytes.flatMap digits) (Address.halves bytes) :=
  (forall₂_digits bytes).imp fun _ _ both => both.1

/-- **What is written bare is read back.** -/
theorem decode_encode (bytes : Bytes) : decode (encode bytes) = .ok bytes := by
  refine decode_spelled ?_ (spelled_digits bytes)
  rw [encode, String.toList_ofList, dropMark_spelled (spelled_digits bytes)]

/-- **What is written behind the mark is read back.** -/
theorem decode_marked (bytes : Bytes) : decode (marked bytes) = .ok bytes := by
  have text : (marked bytes).toList = '0' :: 'x' :: bytes.flatMap digits := by
    simp [marked, encode]
  exact decode_spelled (by rw [text, dropMark]) (spelled_digits bytes)

theorem marked_injective : Function.Injective marked := by
  intro first second same
  have read : decode (marked first) = decode (marked second) := by rw [same]
  rw [decode_marked, decode_marked] at read
  exact Except.ok.inj read

/-! ### All ways to write bytes -/

/-- A text is one of the ways to write bytes: in digits of either case, bare or behind the mark. -/
def Writes (text : String) (bytes : Bytes) : Prop :=
  ∃ mark ∈ ["", "0x", "0X"], ∃ digits : String,
    text = mark ++ digits ∧ digits.toLower = encode bytes

/-- A character that is a digit is, but for its case, the one written for its value. -/
theorem toLower_of_spells {char : Char} {value : Nat} (spells : Spells char value) :
    value < 16 ∧ char.toLower = Nat.digitChar value := by
  obtain ⟨byte, single, known⟩ := spells
  have ascii : char.toNat < 128 := by
    have size := String.length_utf8EncodeChar char
    rw [single, List.length_singleton, eq_comm, Char.utf8Size_eq_one_iff,
      UInt32.le_iff_toNat_le] at size
    exact Nat.lt_succ_of_le size
  have encoded := Utf8.encode_of_lt ascii
  have digits : ∀ code < 128, ∀ value ∈ digitValue? (UInt8.ofNat code),
      value < 16 ∧ (Char.ofNat code).toLower = Nat.digitChar value := by decide
  have read := digits char.toNat ascii value (by
    rw [← List.singleton_inj.mp (single.symm.trans encoded)]
    exact known)
  rwa [Char.ofNat_toNat] at read

/-- A character that is, but for its case, the digit of a value is read as that value. -/
theorem spells_of_toLower {char : Char} {value : Nat} (small : value < 16)
    (same : char.toLower = Nat.digitChar value) : Spells char value := by
  obtain ⟨lower, upper⟩ := spells_digitChar small
  by_cases capital : char.toNat - 65 < 26 ∧ 65 ≤ char.toNat
  · have capitals : ∀ place < 26,
        (Char.ofNat (place + 65)).toLower.toUpper = Char.ofNat (place + 65) := by decide
    have back := capitals _ capital.1
    rw [Nat.sub_add_cancel capital.2, Char.ofNat_toNat] at back
    rwa [← same, back] at upper
  · have kept : char.toLower = char := by
      refine dif_neg fun letter => capital ?_
      have bounds : 65 ≤ char.toNat ∧ char.toNat ≤ 90 :=
        ⟨UInt32.le_iff_toNat_le.mp letter.1, UInt32.le_iff_toNat_le.mp letter.2⟩
      omega
    rwa [← same, kept] at lower

/-- Characters spell bytes if they are, but for their case, what is written for the bytes. -/
theorem spelled_iff {chars : List Char} {bytes : Bytes} :
    List.Forall₂ Spells chars (Address.halves bytes) ↔
      chars.map Char.toLower = bytes.flatMap digits := by
  induction bytes generalizing chars with
  | nil => simp [Address.halves]
  | cons byte rest ih =>
    have small : byte.toNat < 256 := byte.toNat_lt
    have whole : Address.halves (byte :: rest) =
      byte.toNat / 16 :: byte.toNat % 16 :: Address.halves rest := rfl
    have digit : ∀ {char value}, value < 16 →
        (Spells char value ↔ char.toLower = Nat.digitChar value) := fun small =>
      ⟨fun spells => (toLower_of_spells spells).2, spells_of_toLower small⟩
    rw [whole, List.flatMap_cons]
    match chars with
    | [] => simp [digits]
    | [_] => simp [digits]
    | high :: low :: others =>
      simp only [List.forall₂_cons, ih, digits, List.map_cons, List.cons_append, List.nil_append,
        List.cons.injEq, digit (show byte.toNat / 16 < 16 by omega),
        digit (show byte.toNat % 16 < 16 by omega)]

theorem toList_toLower (text : String) : text.toLower.toList = text.toList.map Char.toLower :=
  String.toList_map

theorem toLower_eq_encode {digits : String} {bytes : Bytes} :
    digits.toLower = encode bytes ↔
      List.Forall₂ Spells digits.toList (Address.halves bytes) := by
  rw [spelled_iff, encode, ← String.toList_inj, toList_toLower, String.toList_ofList]

theorem digitValue?_eq_some {byte : UInt8} {value : Nat} (known : digitValue? byte = some value) :
    value < 16 ∧ byte.toNat < 128 := by
  unfold digitValue? at known
  simp only at known
  split at known
  · cases known
    omega
  · split at known
    · cases known
      omega
    · split at known
      · cases known
        omega
      · cases known

theorem toNat_pair {upper lower : Nat} (upperSmall : upper < 16) (lowerSmall : lower < 16) :
    (UInt8.ofNat (16 * upper + lower)).toNat = 16 * upper + lower :=
  UInt8.toNat_ofNat_of_lt' (show 16 * upper + lower < 256 by omega)

/-- **Pairs that are read** are the digits of the halves of what they are read as. -/
theorem forall₂_readPairs {position : Nat} {bytes read : Bytes}
    (done : readPairs position bytes = .ok read) :
    List.Forall₂ (fun byte value => digitValue? byte = some value) bytes
      (Address.halves read) := by
  fun_induction readPairs position bytes generalizing read with
  | case1 =>
    cases done
    exact .nil
  | case2 | case3 | case4 => cases done
  | case5 position high low rest upper lower lowValue highValue ih =>
    cases others : readPairs (position + 2) rest with
    | error fault =>
      rw [others] at done
      cases done
    | ok bytes =>
      rw [others] at done
      cases done
      have lowerSmall := (digitValue?_eq_some lowValue).1
      have whole := toNat_pair (digitValue?_eq_some highValue).1 lowerSmall
      have halves : Address.halves (UInt8.ofNat (16 * upper + lower) :: bytes) =
          upper :: lower :: Address.halves bytes := by
        show (UInt8.ofNat (16 * upper + lower)).toNat / 16 ::
          (UInt8.ofNat (16 * upper + lower)).toNat % 16 :: Address.halves bytes = _
        rw [whole, show (16 * upper + lower) / 16 = upper by omega,
          show (16 * upper + lower) % 16 = lower by omega]
      rw [halves]
      exact .cons highValue (.cons lowValue (ih others))

/-- A character that begins with a digit is one. -/
theorem utf8EncodeChar_of_digit {char : Char} {first : UInt8} {others : Bytes} {value : Nat}
    (encoded : String.utf8EncodeChar char = first :: others)
    (known : digitValue? first = some value) : others = [] := by
  have ascii := (digitValue?_eq_some known).2
  unfold String.utf8EncodeChar at encoded
  simp only at encoded
  split at encoded
  · exact (List.cons.inj encoded).2.symm
  · exfalso
    split at encoded
    · rw [← (List.cons.inj encoded).1, UInt8.toNat_ofNat'] at ascii
      omega
    · split at encoded <;>
      · rw [← (List.cons.inj encoded).1, UInt8.toNat_ofNat'] at ascii
        omega

/-- **Characters whose bytes are digits are digits.** -/
theorem forall₂_spells {chars : List Char} {values : List Nat}
    (read : List.Forall₂ (fun byte value => digitValue? byte = some value)
      (chars.flatMap String.utf8EncodeChar) values) :
    List.Forall₂ Spells chars values := by
  induction chars generalizing values with
  | nil =>
    rw [List.forall₂_nil_left_iff.mp read]
    exact .nil
  | cons char rest ih =>
    rw [List.flatMap_cons] at read
    obtain ⟨first, others, encoded⟩ :=
      List.exists_cons_of_ne_nil (String.utf8EncodeChar_ne_nil (c := char))
    rw [encoded, List.cons_append] at read
    obtain ⟨value, values', known, later, rfl⟩ := List.forall₂_cons_left_iff.mp read
    obtain rfl := utf8EncodeChar_of_digit encoded known
    exact .cons ⟨first, encoded, known⟩ (ih later)

/-- A text is its mark, if it has one, and what is behind it. -/
theorem exists_mark (text : String) :
    ∃ mark ∈ ["", "0x", "0X"], text = mark ++ unmarked text := by
  have behind : ∀ chars : List Char, ∃ mark ∈ ["", "0x", "0X"],
      chars = mark.toList ++ dropMark chars := by
    intro chars
    unfold dropMark
    split
    · exact ⟨"0x", by simp, rfl⟩
    · exact ⟨"0X", by simp, rfl⟩
    · exact ⟨"", by simp, rfl⟩
  obtain ⟨mark, known, split⟩ := behind text.toList
  refine ⟨mark, known, ?_⟩
  rw [← String.toList_inj, String.toList_append, unmarked, String.toList_ofList]
  exact split

/-- A text is read as the bytes that it spells behind its mark, and no other text is read. -/
theorem decode_iff_spelled {text : String} {bytes : Bytes} :
    decode text = .ok bytes ↔
      List.Forall₂ Spells (unmarked text).toList (Address.halves bytes) := by
  constructor
  · intro read
    refine forall₂_spells ?_
    unfold decode readDigits at read
    split at read
    · cases read
    · exact forall₂_readPairs read
  · exact decode_spelled (String.toList_ofList).symm

/-- **A text is read as the bytes that it is a way to write**, and no other text is read. -/
theorem decode_eq_ok {text : String} {bytes : Bytes} :
    decode text = .ok bytes ↔ Writes text bytes := by
  constructor
  · intro read
    obtain ⟨mark, known, split⟩ := exists_mark text
    exact ⟨mark, known, unmarked text, split, toLower_eq_encode.mpr (decode_iff_spelled.mp read)⟩
  · rintro ⟨mark, known, letters, rfl, written⟩
    have spelled := toLower_eq_encode.mp written
    refine decode_spelled ?_ spelled
    rw [String.toList_append]
    simp only [List.mem_cons, List.not_mem_nil, or_false] at known
    rcases known with rfl | rfl | rfl
    · exact dropMark_spelled spelled
    · rfl
    · rfl

end StakingDirectory.Hex

namespace StakingDirectory

open Hex

/-! ### Identifiers -/

theorem FixedBytes.ofHex_of_decode {size : Nat} {text : String} {value : FixedBytes size}
    (read : decode text = .ok value.bytes) : ofHex text = .ok value := by
  rw [ofHex, read]
  exact dif_pos value.length_bytes

/-- **A text is read as a value of fixed length** if it is a way to write it. -/
theorem FixedBytes.ofHex_eq_ok {size : Nat} {text : String} {value : FixedBytes size} :
    ofHex text = .ok value ↔ Writes text value.bytes := by
  rw [← decode_eq_ok]
  refine ⟨fun read => ?_, ofHex_of_decode⟩
  unfold ofHex at read
  split at read
  · rename_i bytes decoded
    rw [decoded]
    unfold ofBytes at read
    split at read
    · cases read
      rfl
    · cases read
  · cases read

/-- A validator key is read back from its text. -/
theorem Pubkey.ofHex_text (pubkey : Pubkey) : FixedBytes.ofHex pubkey.text = .ok pubkey :=
  FixedBytes.ofHex_of_decode (decode_marked pubkey.bytes)

namespace Address

/-- The checksum is in the case of the letters only. -/
theorem spelled_recase {chars : List Char} {values : List Nat}
    (spelled : List.Forall₂ (fun char value => Spells char value ∧ Spells char.toUpper value)
      chars values) (halves : List Nat) :
    List.Forall₂ Spells (recase chars halves) values := by
  induction spelled generalizing halves with
  | nil => exact .nil
  | cons first rest ih =>
    cases halves with
    | nil => exact .cons first.1 (rest.imp fun _ _ both => both.1)
    | cons half others =>
      refine .cons ?_ (ih others)
      split
      · exact first.2
      · exact first.1

/-! The case of the letters may be taken from any digest of the digits. -/

section

variable (digest : Bytes → Bytes) (address : Address)

/-- The digits of an address, with the case of the letters taken from a digest. -/
def digitsBy : String :=
  let lower := encode address.bytes
  String.ofList (recase lower.toList (halves (digest (Bytes.ofText lower))))

/-- The text of an address, with the case of the letters taken from a digest. -/
def checksumBy : String := "0x" ++ address.digitsBy digest

theorem checksumBy_keccak : address.checksumBy Keccak.digest = address.checksum := rfl

/-- Whatever the digest, the digits spell the bytes. -/
theorem spelled_digitsBy :
    List.Forall₂ Spells (address.digitsBy digest).toList (halves address.bytes) := by
  rw [digitsBy, encode, String.toList_ofList, String.toList_ofList]
  exact spelled_recase (forall₂_digits address.bytes) _

theorem length_digitsBy : (address.digitsBy digest).length = 40 := by
  rw [← String.length_toList, (address.spelled_digitsBy digest).length_eq, length_halves,
    address.length_bytes]

/-- **An address is read back from its text**, whatever the digest is. -/
theorem ofHex_checksumBy : FixedBytes.ofHex (address.checksumBy digest) = .ok address := by
  refine FixedBytes.ofHex_of_decode (decode_spelled ?_ (address.spelled_digitsBy digest))
  rw [checksumBy, String.toList_append]
  rfl

theorem checksumBy_injective : Function.Injective (checksumBy digest) := by
  intro first second same
  have read : (FixedBytes.ofHex (first.checksumBy digest) : Except Fault Address) =
      FixedBytes.ofHex (second.checksumBy digest) := by rw [same]
  rw [ofHex_checksumBy, ofHex_checksumBy] at read
  exact Except.ok.inj read

end

/-- The text of an address has as many characters as that of any other. -/
theorem length_checksum (address : Address) : address.checksum.toList.length = 42 := by
  rw [← checksumBy_keccak, checksumBy, String.toList_append, List.length_append,
    String.length_toList, String.length_toList, length_digitsBy]
  rfl

theorem ofHex_checksum (address : Address) : FixedBytes.ofHex address.checksum = .ok address :=
  address.ofHex_checksumBy Keccak.digest

theorem checksum_injective : Function.Injective checksum :=
  checksumBy_injective Keccak.digest

end Address

end StakingDirectory
