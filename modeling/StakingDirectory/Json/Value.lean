/-
**JSON values and their text.**

Numbers are whole numbers, and objects keep their members in order.

* `Json.render` writes a value without blanks. Inside strings a quotation mark, a backslash and the
  control characters are escaped, and nothing else is.
-/

namespace StakingDirectory

/-- A JSON value with whole numbers. -/
inductive Json where
  | null
  | bool (value : Bool)
  | number (value : Int)
  | string (text : String)
  | array (items : List Json)
  | object (members : List (String × Json))
deriving Inhabited

namespace Json

/-! ### Writing -/

/-- A character as it stands inside a string. -/
def escape (char : Char) : List Char :=
  if char = '"' then ['\\', '"']
  else if char = '\\' then ['\\', '\\']
  else if char = '\n' then ['\\', 'n']
  else if char = '\r' then ['\\', 'r']
  else if char = '\t' then ['\\', 't']
  else if char = '\x08' then ['\\', 'b']
  else if char = '\x0c' then ['\\', 'f']
  else if char.toNat < 32 then
    ['\\', 'u', '0', '0', Nat.digitChar (char.toNat / 16), Nat.digitChar (char.toNat % 16)]
  else [char]

/-- A text between quotation marks. -/
def quoted (text : String) : List Char :=
  '"' :: (text.toList.flatMap escape ++ ['"'])

mutual

/-- The characters of a value. -/
def chars : Json → List Char
  | .null => "null".toList
  | .bool true => "true".toList
  | .bool false => "false".toList
  | .number value => (toString value).toList
  | .string text => quoted text
  | .array [] => ['[', ']']
  | .array (first :: rest) => '[' :: (chars first ++ itemChars rest)
  | .object [] => ['\x7b', '\x7d']
  | .object ((name, value) :: rest) =>
    '\x7b' :: (quoted name ++ ':' :: (chars value ++ memberChars rest))

/-- The characters of the items behind the first one, up to the end of the array. -/
def itemChars : List Json → List Char
  | [] => [']']
  | item :: rest => ',' :: (chars item ++ itemChars rest)

/-- The characters of the members behind the first one, up to the end of the object. -/
def memberChars : List (String × Json) → List Char
  | [] => ['\x7d']
  | (name, value) :: rest => ',' :: (quoted name ++ ':' :: (chars value ++ memberChars rest))

end

/-- The text of a value. -/
def render (value : Json) : String :=
  String.ofList value.chars

end Json

end StakingDirectory
