/-
**Reading UTF-8 with faults.**

* `Utf8.scan` reads bytes as characters. A stretch of bytes that starts like a character and breaks
  off, or one byte that starts none, is one fault, given as `none`;
* `Utf8.scanText` is the same view of a text, which has no faults;
* `Utf8.lossy` is the text with a replacement character for every fault.
-/

import StakingDirectory.Bytes

namespace StakingDirectory.Utf8

/-- How many bytes the lead byte of a longer character calls for, and the bounds of the second. -/
def plan? (lead : UInt8) : Option (Nat × UInt8 × UInt8) :=
  if 0xc2 ≤ lead ∧ lead ≤ 0xdf then some (2, 0x80, 0xbf)
  else if lead = 0xe0 then some (3, 0xa0, 0xbf)
  else if lead = 0xed then some (3, 0x80, 0x9f)
  else if 0xe1 ≤ lead ∧ lead ≤ 0xef then some (3, 0x80, 0xbf)
  else if lead = 0xf0 then some (4, 0x90, 0xbf)
  else if 0xf1 ≤ lead ∧ lead ≤ 0xf3 then some (4, 0x80, 0xbf)
  else if lead = 0xf4 then some (4, 0x80, 0x8f)
  else none

/-- Whether a byte may follow inside a character. -/
def follows (byte : UInt8) : Bool :=
  0x80 ≤ byte && byte ≤ 0xbf

/-- The low six bits of a byte. -/
def payload (byte : UInt8) : Nat := byte.toNat % 64

/-- The character that a lead byte and the bytes behind it spell, and how many of those belong to it
or to the broken piece in its place. -/
def readFirst (lead : UInt8) (rest : Bytes) : Option Char × Nat :=
  if lead < 0x80 then (some (Char.ofNat lead.toNat), 0)
  else
    match plan? lead with
    | none => (none, 0)
    | some (length, low, high) =>
      match rest with
      | [] => (none, 0)
      | second :: rest =>
        if second < low ∨ high < second then (none, 0)
        else if length = 2 then (some (Char.ofNat (lead.toNat % 32 * 64 + payload second)), 1)
        else
          match rest with
          | [] => (none, 1)
          | third :: rest =>
            if !follows third then (none, 1)
            else if length = 3 then
              (some (Char.ofNat
                (lead.toNat % 16 * 4096 + payload second * 64 + payload third)), 2)
            else
              match rest with
              | [] => (none, 2)
              | fourth :: _ =>
                if !follows fourth then (none, 2)
                else
                  (some (Char.ofNat (lead.toNat % 8 * 262144 + payload second * 4096 +
                    payload third * 64 + payload fourth)), 3)

/-- Reads on after passing over some bytes. -/
def scanPast : Nat → Bytes → List (Option Char)
  | _, [] => []
  | skipped + 1, _ :: rest => scanPast skipped rest
  | 0, lead :: rest =>
    let first := readFirst lead rest
    first.1 :: scanPast first.2 rest

/-- Reads bytes as characters, with `none` for every fault. -/
def scan (bytes : Bytes) : List (Option Char) :=
  scanPast 0 bytes

/-- The characters of a text. -/
def scanText (text : String) : List (Option Char) :=
  text.toList.map some

/-- The text that bytes spell, with a replacement character for every fault. -/
def lossy (bytes : Bytes) : String :=
  String.ofList ((scan bytes).map fun read => read.getD '\ufffd')

end StakingDirectory.Utf8
