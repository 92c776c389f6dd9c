/-
**Texts are read back from their bytes.**

* `Leads` is what a lead byte and the byte behind it have to be for a character of some length;
* `readFirst_encode`: a character is read back from its bytes, and takes exactly those;
* `scan_ofText`: the bytes of a text are read as its characters, without faults, so that different
  texts have different bytes (`ofText_injective`).
-/

import Mathlib.Data.List.Basic
import Mathlib.Tactic.SplitIfs
import StakingDirectory.Text.Utf8

namespace StakingDirectory.Utf8

/-! ### Lead bytes -/

/-- The lead byte calls for so many bytes, and the second byte is within the bounds it sets. -/
def Leads (lead second : UInt8) (length : Nat) : Prop :=
  128 ≤ lead.toNat ∧ ∃ low high, plan? lead = some (length, low, high) ∧
    low.toNat ≤ second.toNat ∧ second.toNat ≤ high.toNat

/-- What a lead byte calls for, by its number. -/
theorem plan?_eq (lead : UInt8) :
    plan? lead =
      if 194 ≤ lead.toNat ∧ lead.toNat ≤ 223 then some (2, 0x80, 0xbf)
      else if lead.toNat = 224 then some (3, 0xa0, 0xbf)
      else if lead.toNat = 237 then some (3, 0x80, 0x9f)
      else if 225 ≤ lead.toNat ∧ lead.toNat ≤ 239 then some (3, 0x80, 0xbf)
      else if lead.toNat = 240 then some (4, 0x90, 0xbf)
      else if 241 ≤ lead.toNat ∧ lead.toNat ≤ 243 then some (4, 0x80, 0xbf)
      else if lead.toNat = 244 then some (4, 0x80, 0x8f)
      else none := by
  unfold plan?
  simp only [UInt8.le_iff_toNat_le, ← UInt8.toNat_inj]
  rfl

section

variable {lead second third fourth : UInt8}

theorem leads_two (within : 194 ≤ lead.toNat ∧ lead.toNat ≤ 223)
    (follow : 128 ≤ second.toNat ∧ second.toNat ≤ 191) : Leads lead second 2 :=
  ⟨by omega, _, _, (plan?_eq lead).trans (if_pos within), follow⟩

/-- The lead byte 224 rules out what two bytes could spell, and 237 the surrogates. -/
theorem leads_three (within : 224 ≤ lead.toNat ∧ lead.toNat ≤ 239)
    (follow : 128 ≤ second.toNat ∧ second.toNat ≤ 191)
    (first : lead.toNat = 224 → 160 ≤ second.toNat)
    (surrogate : lead.toNat = 237 → second.toNat ≤ 159) : Leads lead second 3 := by
  refine ⟨by omega, ?_⟩
  rw [plan?_eq, if_neg (by omega)]
  split_ifs with zero half other
  · exact ⟨_, _, rfl, first zero, follow.2⟩
  · exact ⟨_, _, rfl, follow.1, surrogate half⟩
  · exact ⟨_, _, rfl, follow⟩
  all_goals omega

/-- The lead byte 240 rules out what three bytes could spell, and 244 what is no character. -/
theorem leads_four (within : 240 ≤ lead.toNat ∧ lead.toNat ≤ 244)
    (follow : 128 ≤ second.toNat ∧ second.toNat ≤ 191)
    (first : lead.toNat = 240 → 144 ≤ second.toNat)
    (last : lead.toNat = 244 → second.toNat ≤ 143) : Leads lead second 4 := by
  refine ⟨by omega, ?_⟩
  rw [plan?_eq, if_neg (by omega), if_neg (by omega), if_neg (by omega), if_neg (by omega)]
  split_ifs with zero between top
  · exact ⟨_, _, rfl, first zero, follow.2⟩
  · exact ⟨_, _, rfl, follow⟩
  · exact ⟨_, _, rfl, follow.1, last top⟩
  all_goals omega

/-! ### Characters by length -/

theorem readFirst_one (small : lead.toNat < 128) (rest : Bytes) :
    readFirst lead rest = (some (Char.ofNat lead.toNat), 0) :=
  if_pos (UInt8.lt_iff_toNat_lt.mpr small)

theorem readFirst_two (leads : Leads lead second 2) (rest : Bytes) :
    readFirst lead (second :: rest) =
      (some (Char.ofNat (lead.toNat % 32 * 64 + payload second)), 1) := by
  obtain ⟨long, low, high, planned, above, below⟩ := leads
  simp only [readFirst, planned, UInt8.lt_iff_toNat_lt]
  rw [if_neg (by simpa using long), if_neg (by omega)]
  rfl

theorem readFirst_three (leads : Leads lead second 3) (follow : follows third = true)
    (rest : Bytes) :
    readFirst lead (second :: third :: rest) =
      (some (Char.ofNat (lead.toNat % 16 * 4096 + payload second * 64 + payload third)), 2) := by
  obtain ⟨long, low, high, planned, above, below⟩ := leads
  simp only [readFirst, planned, UInt8.lt_iff_toNat_lt, follow]
  rw [if_neg (by simpa using long), if_neg (by omega)]
  rfl

theorem readFirst_four (leads : Leads lead second 4) (follow : follows third = true)
    (follow' : follows fourth = true) (rest : Bytes) :
    readFirst lead (second :: third :: fourth :: rest) =
      (some (Char.ofNat (lead.toNat % 8 * 262144 + payload second * 4096 +
        payload third * 64 + payload fourth)), 3) := by
  obtain ⟨long, low, high, planned, above, below⟩ := leads
  simp only [readFirst, planned, UInt8.lt_iff_toNat_lt, follow, follow']
  rw [if_neg (by simpa using long), if_neg (by omega)]
  rfl

end

/-! ### Writing and reading -/

/-- A character of a small code is the byte of this code. -/
theorem encode_of_lt {char : Char} (small : char.toNat < 128) :
    String.utf8EncodeChar char = [UInt8.ofNat char.toNat] :=
  if_pos (Nat.le_of_lt_succ small)

/-- The number of a byte that carries the lowest six bits of a value. -/
theorem toNat_carrier (value : Nat) :
    (UInt8.ofNat (value % 0x40 + 0x80)).toNat = value % 64 + 128 := by
  rw [UInt8.toNat_ofNat']
  omega

theorem follows_carrier (value : Nat) : follows (UInt8.ofNat (value % 0x40 + 0x80)) = true := by
  simp only [follows, Bool.and_eq_true, decide_eq_true_eq, UInt8.le_iff_toNat_le, toNat_carrier]
  constructor
  · show 128 ≤ _
    omega
  · show _ ≤ 191
    omega

theorem payload_carrier (value : Nat) :
    payload (UInt8.ofNat (value % 0x40 + 0x80)) = value % 64 := by
  rw [payload, toNat_carrier]
  omega

/-- **A character is read back from its bytes**, and takes all of them. -/
theorem readFirst_encode (char : Char) :
    ∃ lead others, String.utf8EncodeChar char = lead :: others ∧
      ∀ rest, readFirst lead (others ++ rest) = (some char, others.length) := by
  have valid : char.toNat < 0xd800 ∨ 0xdfff < char.toNat ∧ char.toNat < 0x110000 := char.valid
  have back : ∀ {value : Nat}, value = char.toNat → Char.ofNat value = char := by
    rintro _ rfl
    exact Char.ofNat_toNat char
  unfold String.utf8EncodeChar
  rw [show char.val.toNat = char.toNat from rfl]
  dsimp only
  generalize char.toNat = value at valid back
  split_ifs with one two three
  · have number : (UInt8.ofNat value).toNat = value := by
      rw [UInt8.toNat_ofNat']
      omega
    refine ⟨_, _, rfl, fun rest => ?_⟩
    rw [List.nil_append, readFirst_one (by omega), back number]
    rfl
  · have number : (UInt8.ofNat (value / 64 % 0x20 + 0xc0)).toNat = value / 64 + 192 := by
      rw [UInt8.toNat_ofNat']
      omega
    refine ⟨_, _, rfl, fun rest => ?_⟩
    rw [List.singleton_append, readFirst_two, payload_carrier, number, back (by omega)]
    · rfl
    · refine leads_two ?_ ?_ <;> simp only [number, toNat_carrier] <;> omega
  · have number : (UInt8.ofNat (value / 4096 % 0x10 + 0xe0)).toNat = value / 4096 + 224 := by
      rw [UInt8.toNat_ofNat']
      omega
    refine ⟨_, _, rfl, fun rest => ?_⟩
    rw [List.cons_append, List.singleton_append, readFirst_three ?_ (follows_carrier value),
      payload_carrier, payload_carrier, number, back (by omega)]
    · rfl
    · refine leads_three ?_ ?_ ?_ ?_ <;> simp only [number, toNat_carrier] <;> omega
  · have number : (UInt8.ofNat (value / 262144 % 0x08 + 0xf0)).toNat = value / 262144 + 240 := by
      rw [UInt8.toNat_ofNat']
      omega
    refine ⟨_, _, rfl, fun rest => ?_⟩
    rw [List.cons_append, List.cons_append, List.singleton_append,
      readFirst_four ?_ (follows_carrier _) (follows_carrier value), payload_carrier,
      payload_carrier, payload_carrier, number, back (by omega)]
    · rfl
    · refine leads_four ?_ ?_ ?_ ?_ <;> simp only [number, toNat_carrier] <;> omega

theorem scanPast_append (bytes rest : Bytes) :
    scanPast bytes.length (bytes ++ rest) = scanPast 0 rest := by
  induction bytes with
  | nil => rfl
  | cons byte others ih => exact ih

/-- **The bytes of a text are read as its characters.** -/
theorem scan_ofText (text : String) : scan (Bytes.ofText text) = scanText text := by
  unfold scan Bytes.ofText scanText
  induction text.toList with
  | nil => rfl
  | cons char rest ih =>
    obtain ⟨lead, others, spelled, read⟩ := readFirst_encode char
    rw [List.flatMap_cons, spelled, List.cons_append, scanPast, read, List.map_cons, ← ih]
    exact congrArg (some char :: ·) (scanPast_append others _)

/-- Different texts have different bytes. -/
theorem ofText_injective : Function.Injective Bytes.ofText := by
  intro first second same
  have scanned : scanText first = scanText second := by
    rw [← scan_ofText, same, scan_ofText]
  exact String.toList_injective
    (List.map_injective_iff.mpr (fun _ _ => Option.some.inj) scanned)

end StakingDirectory.Utf8
