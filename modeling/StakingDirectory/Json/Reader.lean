/-
**Reading JSON from the front of a text.**

A reader takes a value off the front of a text and stops at the first fault it meets, so that of
several faults the leftmost counts. The text is a list of characters in which `none` stands for
bytes that spell no character; such a place is a fault, except inside the strings of a value that is
passed over.

* `string`, `amount`, `flag`, `nothing` read one value of a kind, blanks in front of it included;
* `list` reads an array;
* `skip` passes over any value, checking only its form.
-/

import StakingDirectory.Text.Hex
import StakingDirectory.Json.Value

namespace StakingDirectory.Json

/-- The rest of a text: characters, with `none` for bytes that spell none. -/
abbrev Text := List (Option Char)

/-- Why a text is not accepted. -/
inductive Fault where
  /-- The text is not JSON, or not of the wanted shape. -/
  | malformed
  /-- A string is not the wanted hexadecimal text. -/
  | hex (fault : Hex.Fault)
deriving DecidableEq

/-- The report of a fault. -/
def Fault.message : Fault → String
  | .malformed => "<json>"
  | .hex fault => fault.message

/-- Takes a value off the front of a text. -/
abbrev Reader := StateT Text (Except Fault)

namespace Reader

/-- Stops at a malformed place. -/
def fail {α : Type} : Reader α := throw .malformed

/-! ### Single characters -/

/-- Whether a character may stand between values. -/
def isBlank (char : Char) : Bool :=
  char == ' ' || char == '\t' || char == '\n' || char == '\r'

/-- The text without the blanks at its front. -/
def dropBlanks : Text → Text
  | [] => []
  | none :: rest => none :: rest
  | some char :: rest => if isBlank char then dropBlanks rest else some char :: rest

/-- Passes over blanks and tells the next character without taking it. -/
def peek : Reader (Option Char) := fun text =>
  match dropBlanks text with
  | some char :: rest => .ok (some char, some char :: rest)
  | rest => .ok (none, rest)

/-- Takes one character, whatever it is. -/
def drop : Reader Unit := modify List.tail

/-- Takes exactly these characters. -/
def word : List Char → Reader Unit
  | [] => pure ()
  | char :: rest => do
    match ← get with
    | some next :: _ => if next = char then drop else fail
    | _ => fail
    word rest

/-- Passes over blanks and takes exactly these characters. -/
def token (chars : List Char) : Reader Unit := do
  let _ ← peek
  word chars

/-! ### Strings -/

/-- The value of a hexadecimal digit of either case. -/
def hexDigit? : Option Char → Option Nat
  | none => none
  | some char =>
    let code := char.toNat
    if 48 ≤ code ∧ code ≤ 57 then some (code - 48)
    else if 97 ≤ code ∧ code ≤ 102 then some (code - 87)
    else if 65 ≤ code ∧ code ≤ 70 then some (code - 55)
    else none

/-- The number that four hexadecimal digits spell. -/
def codeUnit? (first second third fourth : Option Char) : Option Nat := do
  let a ← hexDigit? first
  let b ← hexDigit? second
  let c ← hexDigit? third
  let d ← hexDigit? fourth
  return 4096 * a + 256 * b + 16 * c + d

/-- The character that a letter behind a backslash stands for. -/
def escaped? (letter : Char) : Option Char :=
  if letter = '"' ∨ letter = '\\' ∨ letter = '/' then some letter
  else if letter = 'b' then some '\x08'
  else if letter = 'f' then some '\x0c'
  else if letter = 'n' then some '\n'
  else if letter = 'r' then some '\r'
  else if letter = 't' then some '\t'
  else none

/-- Whether a number is the first half of a pair of code units. -/
def isHighHalf (unit : Nat) : Bool := 0xd800 ≤ unit && unit < 0xdc00

/-- Whether a number is the second half of a pair of code units. -/
def isLowHalf (unit : Nat) : Bool := 0xdc00 ≤ unit && unit < 0xe000

/-- The character at the front of the inside of a string, and how many places it takes. -/
def character? : Text → Option (Char × Nat)
  | some '\\' :: some 'u' :: a :: b :: c :: d :: rest =>
    match codeUnit? a b c d with
    | none => none
    | some unit =>
      if isLowHalf unit then none
      else if isHighHalf unit then
        match rest with
        | some '\\' :: some 'u' :: e :: f :: g :: h :: _ =>
          match codeUnit? e f g h with
          | none => none
          | some second =>
            if isLowHalf second then
              some (Char.ofNat (0x10000 + (unit - 0xd800) * 1024 + (second - 0xdc00)), 12)
            else none
        | _ => none
      else some (Char.ofNat unit, 6)
  | some '\\' :: some letter :: _ => (escaped? letter).map fun char => (char, 2)
  | some char :: _ => if char = '\\' ∨ char.toNat < 32 then none else some (char, 1)
  | _ => none

/-- Reads the inside of a string and its end, after passing over some places. -/
def stringRest : Nat → Text → Except Fault (List Char × Text)
  | _, [] => .error .malformed
  | passed + 1, _ :: rest => stringRest passed rest
  | 0, next :: rest =>
    if next = some '"' then .ok ([], rest)
    else
      match character? (next :: rest) with
      | none => .error .malformed
      | some (char, places) =>
        match stringRest (places - 1) rest with
        | .ok (chars, rest) => .ok (char :: chars, rest)
        | .error fault => .error fault

/-- Reads a string. -/
def string : Reader String := do
  token ['"']
  let chars ← stringRest 0
  return String.ofList chars

/-! ### Numbers and words -/

/-- Takes the decimal digits at the front. -/
def digits : Reader (List Char) := fun text =>
  let isDigit : Option Char → Bool := fun next => next.any Char.isDigit
  .ok ((text.takeWhile isDigit).filterMap id, text.dropWhile isDigit)

/-- Whether digits spell a number as JSON has it: at least one, and no zero in front of others. -/
def isWhole : List Char → Bool
  | [] => false
  | ['0'] => true
  | first :: _ => first != '0'

/-- Reads a number of 64 bits, written in digits alone. -/
def amount : Reader UInt64 := do
  let _ ← peek
  let read ← digits
  let value := read.foldl (fun value digit => 10 * value + (digit.toNat - 48)) 0
  match (← get).head? with
  | some (some '.') | some (some 'e') | some (some 'E') => fail
  | _ => if isWhole read && value < UInt64.size then return UInt64.ofNat value else fail

/-- Reads `true` or `false`. -/
def flag : Reader Bool := do
  match ← peek with
  | some 't' => word "true".toList; return true
  | some 'f' => word "false".toList; return false
  | _ => fail

/-- Reads `null`. -/
def nothing : Reader Unit := token "null".toList

/-! ### Arrays -/

/-- Reads the items of an array from one item on. The bound is at least as long as the text. -/
def items {α : Type} (item : Reader α) : Text → Reader (List α)
  | [] => fail
  | _ :: bound => do
    let first ← item
    match ← peek with
    | some ',' => drop; return first :: (← items item bound)
    | some ']' => drop; return [first]
    | _ => fail

/-- Reads an array of any length. -/
def list {α : Type} (item : Reader α) : Reader (List α) := do
  token ['[']
  match ← peek with
  | some ']' => drop; return []
  | _ => items item (← get)

/-! ### Passing over a value -/

/-- Passes over the inside of a string and its end, after passing over some places. Characters may
be any, but an escape has to be one. -/
def passString : Nat → Text → Except Fault Text
  | _, [] => .error .malformed
  | passed + 1, _ :: rest => passString passed rest
  | 0, next :: rest =>
    if next = some '"' then .ok rest
    else if next = some '\\' then
      match rest with
      | some 'u' :: a :: b :: c :: d :: _ =>
        if (codeUnit? a b c d).isSome then passString 5 rest else .error .malformed
      | some letter :: _ =>
        if (escaped? letter).isSome then passString 1 rest else .error .malformed
      | _ => .error .malformed
    else if next.any fun char => char.toNat < 32 then .error .malformed
    else passString 0 rest

/-- Passes over a string. -/
def skipString : Reader Unit := do
  token ['"']
  set (← passString 0 (← get))

/-- Passes over digits, of which there has to be one. -/
def someDigits : Reader Unit := do
  if (← digits).isEmpty then fail

/-- Passes over a number of any form. -/
def skipNumber : Reader Unit := do
  if (← get).head? = some (some '-') then drop
  if !isWhole (← digits) then fail
  if (← get).head? = some (some '.') then do
    drop
    someDigits
  match (← get).head? with
  | some (some 'e') | some (some 'E') =>
    drop
    match (← get).head? with
    | some (some '+') | some (some '-') => drop
    | _ => pure ()
    someDigits
  | _ => pure ()

/-- What is expected next inside open arrays and objects. -/
inductive Wanted where
  /-- A value. -/
  | value
  /-- A value or the end of an array. -/
  | firstItem
  /-- The name of a member. -/
  | name
  /-- The name of a member or the end of an object. -/
  | firstName
  /-- What may follow a value. -/
  | next

/-- Passes over the rest of a value; `inside` tells of each open bracket, innermost first, whether
it is of an array. The bound is at least as long as the text. -/
def skipRest : Text → List Bool → Wanted → Reader Unit
  | [], _, _ => fail
  | _ :: bound, inside, wanted => do
    match wanted, inside, ← peek with
    | .next, [], _ => pure ()
    | .next, true :: outer, some ']' => drop; skipRest bound outer .next
    | .next, true :: outer, some ',' => drop; skipRest bound (true :: outer) .value
    | .next, false :: outer, some '\x7d' => drop; skipRest bound outer .next
    | .next, false :: outer, some ',' => drop; skipRest bound (false :: outer) .name
    | .next, _ :: _, _ => fail
    | .firstItem, true :: outer, some ']' => drop; skipRest bound outer .next
    | .firstName, false :: outer, some '\x7d' => drop; skipRest bound outer .next
    | .firstName, inside, _ | .name, inside, _ =>
      skipString
      token [':']
      skipRest bound inside .value
    | .value, inside, some '[' | .firstItem, inside, some '[' =>
      drop
      skipRest bound (true :: inside) .firstItem
    | .value, inside, some '\x7b' | .firstItem, inside, some '\x7b' =>
      drop
      skipRest bound (false :: inside) .firstName
    | .value, inside, some '"' | .firstItem, inside, some '"' =>
      skipString
      skipRest bound inside .next
    | .value, inside, some 't' | .firstItem, inside, some 't' =>
      word "true".toList
      skipRest bound inside .next
    | .value, inside, some 'f' | .firstItem, inside, some 'f' =>
      word "false".toList
      skipRest bound inside .next
    | .value, inside, some 'n' | .firstItem, inside, some 'n' =>
      word "null".toList
      skipRest bound inside .next
    | .value, inside, _ | .firstItem, inside, _ =>
      skipNumber
      skipRest bound inside .next

/-- Passes over a value. -/
def skip : Reader Unit := do
  let text ← get
  skipRest (none :: none :: text) [] .value

end Reader

end StakingDirectory.Json
