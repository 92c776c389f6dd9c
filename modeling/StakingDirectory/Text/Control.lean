/-
**Control characters made visible.**

Some control characters steer a terminal. Where a text may hold them and is shown to people, each of
them is written as an escape:

* bell, backspace, form feed, escape and delete as `\x` and two digits;
* those from `80` to `9f` as `\u` and two digits in braces.

`escapeControls` does so for a text.
-/

import StakingDirectory.Text.Hex

namespace StakingDirectory.Text

/-- The steering characters of ASCII. -/
def steering : List Char := ['\x07', '\x08', '\x0c', '\x1b', '\x7f']

/-- Whether a character is one of the later steering characters. -/
def isLateControl (char : Char) : Bool :=
  0x80 ≤ char.toNat && char.toNat ≤ 0x9f

/-- The two hexadecimal digits of a character below `100`. -/
def twoDigits (char : Char) : List Char :=
  (Hex.encode [UInt8.ofNat char.toNat]).toList

/-- A character, or its escape if it is a steering one. -/
def escapeControl (char : Char) : List Char :=
  if char ∈ steering then '\\' :: 'x' :: twoDigits char
  else if isLateControl char then ['\\', 'u', '\x7b'] ++ twoDigits char ++ ['\x7d']
  else [char]

/-- A text with escapes for all steering characters. -/
def escapeControls (text : String) : String :=
  String.ofList (text.toList.flatMap escapeControl)

end StakingDirectory.Text
