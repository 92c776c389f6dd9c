/-
**The query of a request.**

A query is pieces between `&`, each a name and a value around the first `=`. A plus sign is a blank,
and `%` with two hexadecimal digits is a byte; where no digits follow, the `%` stands for itself.
Bytes that spell no character are read as a replacement character.

* `Query.parse` reads a query;
* `Query.value?` is the last value of a name, `Query.require` one that has to be there and not
  empty.
-/

import StakingDirectory.Refusal
import StakingDirectory.Text.Split
import StakingDirectory.Text.Utf8

namespace StakingDirectory

/-- The names and values of a query in their order. -/
abbrev Query := List (String × String)

namespace Query

/-! ### Reading -/

/-- The byte that two hexadecimal digits at the front spell. -/
def escapedByte? : Bytes → Option UInt8
  | high :: low :: _ => do
    return UInt8.ofNat (16 * (← Hex.digitValue? high) + (← Hex.digitValue? low))
  | _ => none

/-- Decodes bytes after passing over some. -/
def decodePast : Nat → Bytes → Bytes
  | _, [] => []
  | passed + 1, _ :: rest => decodePast passed rest
  | 0, byte :: rest =>
    if byte = 37 then
      match escapedByte? rest with
      | some escaped => escaped :: decodePast 2 rest
      | none => byte :: decodePast 0 rest
    else if byte = 43 then 32 :: decodePast 0 rest
    else byte :: decodePast 0 rest

/-- The text that a name or a value stands for. -/
def decode (bytes : Bytes) : String :=
  Utf8.lossy (decodePast 0 bytes)

/-- The name and the value of a piece. -/
def readPiece (piece : Bytes) : String × String :=
  (decode (piece.takeWhile (· ≠ 61)), decode ((piece.dropWhile (· ≠ 61)).drop 1))

/-- Reads a query. -/
def parse (text : String) : Query :=
  ((Text.splitAll 38 (Bytes.ofText text)).filter (· ≠ [])).map readPiece

/-! ### Arguments -/

/-- The last value of a name. -/
def value? (query : Query) (name : String) : Option String :=
  query.reverse.lookup name

/-- The value of a name, which has to be there and not empty. -/
def require (query : Query) (name : String) : Except Refusal String :=
  match (query.value? name).filter (· ≠ "") with
  | some value => .ok value
  | none => .error (.invalidInput (.missingArgument name))

/-- The address that the value of a name spells. -/
def requireAddress (query : Query) (name : String) : Except Refusal Address := do
  let text ← query.require name
  match FixedBytes.ofHex text with
  | .ok address => return address
  | .error fault => throw (.invalidInput (.address name text fault))

end Query

end StakingDirectory
