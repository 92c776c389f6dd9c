/-
**Hexadecimal text.**

A byte is written as two digits, high half first, in lower case. A text is read after one optional
mark `0x` or `0X`, with digits of either case:

* `encode` writes bytes bare and `marked` behind the mark;
* `decode` reads a text back. An odd number of bytes is reported before any bad digit, and of
  several bad digits the first one.
-/

import StakingDirectory.Bytes

namespace StakingDirectory.Hex

/-! ### What can be wrong with a text -/

/-- Why a text is not the hexadecimal form of the wanted value. -/
inductive Fault where
  /-- The digits spell `got` bytes where `expected` are needed. -/
  | wrongLength (got expected : Nat)
  /-- The byte at `position`, counted behind the mark, is no digit. -/
  | badDigit (byte : UInt8) (position : Nat)
  /-- The digits do not pair up. -/
  | oddLength
deriving DecidableEq, Repr

/-- The report of a fault. A bad byte is shown as the character with its code. -/
def Fault.message : Fault → String
  | .wrongLength got expected => s!"invalid length: got {got} bytes, expected {expected}"
  | .badDigit byte position =>
    s!"invalid hex character '{Char.ofNat byte.toNat}' at position {position}"
  | .oddLength => "odd number of hex digits"

/-! ### Writing -/

/-- The two digits of a byte. -/
def digits (byte : UInt8) : List Char :=
  [Nat.digitChar (byte.toNat / 16), Nat.digitChar (byte.toNat % 16)]

/-- Bytes as bare lower-case digits. -/
def encode (bytes : Bytes) : String :=
  String.ofList (bytes.flatMap digits)

/-- Bytes as lower-case digits behind the mark `0x`. -/
def marked (bytes : Bytes) : String :=
  "0x" ++ encode bytes

/-! ### Reading -/

/-- The characters of a text behind the mark, if it has one. -/
def dropMark : List Char → List Char
  | '0' :: 'x' :: rest => rest
  | '0' :: 'X' :: rest => rest
  | text => text

/-- A text without its mark. -/
def unmarked (text : String) : String :=
  String.ofList (dropMark text.toList)

/-- The value of a digit of either case. -/
def digitValue? (byte : UInt8) : Option Nat :=
  let code := byte.toNat
  if 48 ≤ code ∧ code ≤ 57 then some (code - 48)
  else if 97 ≤ code ∧ code ≤ 102 then some (code - 87)
  else if 65 ≤ code ∧ code ≤ 70 then some (code - 55)
  else none

/-- Reads digits in pairs; `position` is the place of the first of them. -/
def readPairs (position : Nat) : Bytes → Except Fault Bytes
  | [] => .ok []
  | [_] => .error .oddLength
  | high :: low :: rest =>
    match digitValue? high, digitValue? low with
    | none, _ => .error (.badDigit high position)
    | some _, none => .error (.badDigit low (position + 1))
    | some upper, some lower =>
      (readPairs (position + 2) rest).map (UInt8.ofNat (16 * upper + lower) :: ·)

/-- Reads bare digits, their number first. -/
def readDigits (bytes : Bytes) : Except Fault Bytes :=
  if bytes.length % 2 = 1 then .error .oddLength else readPairs 0 bytes

/-- Reads a text with or without the mark. -/
def decode (text : String) : Except Fault Bytes :=
  readDigits (Bytes.ofText (unmarked text))

end StakingDirectory.Hex
