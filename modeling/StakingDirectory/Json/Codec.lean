/-
**Values in their JSON form.**

A codec reads and writes the values of one type. Records are described by their fields in order:

* an object may have its fields in any order and others beside them, which are passed over; a field
  that comes twice is a fault at its second place;
* an array has the values of all fields in order and nothing else;
* a field says what stands for it where it is missing, and when it is not written.

`decode` reads a whole text, with blanks around the value and nothing else.
-/

import StakingDirectory.FixedBytes
import StakingDirectory.Text.Utf8
import StakingDirectory.Json.Reader

namespace StakingDirectory.Json

/-- How the values of a type are read and written. -/
structure Codec (α : Type) where
  read : Reader α
  write : α → Json

namespace Codec

variable {α β : Type}

/-- Reads a whole text. -/
def decode (codec : Codec α) (text : Text) : Except Fault α :=
  match codec.read text with
  | .error fault => .error fault
  | .ok (value, rest) => if (Reader.dropBlanks rest).isEmpty then .ok value else .error .malformed

/-- The text of a value. -/
def encode (codec : Codec α) (value : α) : String :=
  (codec.write value).render

/-- The same form under another type. -/
def map (codec : Codec α) (into : α → β) (back : β → α) : Codec β where
  read := into <$> codec.read
  write value := codec.write (back value)

/-! ### Single values -/

/-- A text as a string. -/
def text : Codec String := ⟨Reader.string, .string⟩

/-- A number of 64 bits as a number. -/
def amount : Codec UInt64 := ⟨Reader.amount, fun value => .number value.toNat⟩

/-- A truth value. -/
def flag : Codec Bool := ⟨Reader.flag, .bool⟩

/-- A value in a textual form that not every string is. -/
def spelled (read : String → Except Hex.Fault α) (write : α → String) : Codec α where
  read := do
    match read (← Reader.string) with
    | .ok value => return value
    | .error fault => throw (.hex fault)
  write value := .string (write value)

/-- Bytes as bare hexadecimal text, with or without the mark on reading. -/
def bytes : Codec Bytes := spelled Hex.decode Hex.encode

/-- One of finitely many names, as a string or as the only name of an object with value `null`. -/
def name (read : String → Option α) (write : α → String) : Codec α where
  read := do
    let known : Reader α := do
      match read (← Reader.string) with
      | some value => return value
      | none => Reader.fail
    match ← Reader.peek with
    | some '\x7b' =>
      Reader.drop
      let value ← known
      Reader.token [':']
      Reader.nothing
      Reader.token ['\x7d']
      return value
    | _ => known
  write value := .string (write value)

/-- A value or `null`. -/
def optional (codec : Codec α) : Codec (Option α) where
  read := do
    match ← Reader.peek with
    | some 'n' => Reader.nothing; return none
    | _ => some <$> codec.read
  write
    | none => .null
    | some value => codec.write value

/-- A list as an array. -/
def list (codec : Codec α) : Codec (List α) where
  read := Reader.list codec.read
  write values := .array (values.map codec.write)

end Codec

/-! ### Records -/

/-- What a field does where its value is left out. -/
structure Presence (α : Type) where
  /-- The value of the field where an object does not have it. -/
  ifMissing : Option α
  /-- The value of the field where an array ends before it. -/
  ifShort : Option α
  /-- Whether the field is left out in writing a value. -/
  omits : α → Bool

/-- The field is always there. -/
def Presence.required {α : Type} : Presence α := ⟨none, none, fun _ => false⟩

/-- The field stands for this value where it is missing, and is left out for it. -/
def Presence.defaultTo {α : Type} [BEq α] (value : α) : Presence α :=
  ⟨some value, some value, fun written => written == value⟩

/-- The field may be missing in an object but not in an array. -/
def Presence.optional {α : Type} : Presence (Option α) := ⟨some none, none, Option.isNone⟩

/-- The fields of a record in order; the type is that of all their values together. -/
inductive Fields : Type → Type 1 where
  | done : Fields Unit
  | field {α β : Type} (name : String) (codec : Codec α) (presence : Presence α)
    (rest : Fields β) : Fields (α × β)

namespace Fields

/-- The values of those fields that were met. -/
def Slots : {τ : Type} → Fields τ → Type
  | _, .done => Unit
  | _, @Fields.field α _ _ _ _ rest => Option α × rest.Slots

/-- No field was met. -/
def empty : {τ : Type} → (fields : Fields τ) → fields.Slots
  | _, .done => ()
  | _, .field _ _ _ rest => (none, rest.empty)

/-- Reads the value of the field with this name, if there is one; it must not have been met. -/
def fill : {τ : Type} → (fields : Fields τ) → String → fields.Slots → Option (Reader fields.Slots)
  | _, .done, _, _ => none
  | _, @Fields.field α _ key codec _ rest, name, slots =>
    let (slot, slots) : Option α × rest.Slots := slots
    if name = key then
      some do
        if slot.isSome then Reader.fail
        Reader.token [':']
        let value ← codec.read
        return (some value, slots)
    else
      (rest.fill name slots).map fun reader => do
        return (slot, ← reader)

/-- The values of all fields, with those that were not met filled in. -/
def close : {τ : Type} → (fields : Fields τ) → fields.Slots → Option τ
  | _, .done, _ => some ()
  | _, @Fields.field α _ _ _ presence rest, slots => do
    let (slot, slots) : Option α × rest.Slots := slots
    let value ← slot <|> presence.ifMissing
    let values ← rest.close slots
    return (value, values)

/-- Reads the members of an object from one member on. The bound is at least as long as the text. -/
def readMembers {τ : Type} (fields : Fields τ) : Text → fields.Slots → Reader fields.Slots
  | [], _ => Reader.fail
  | _ :: bound, slots => do
    let name ← Reader.string
    let slots ←
      match fields.fill name slots with
      | some reader => reader
      | none => do
        Reader.token [':']
        Reader.skip
        pure slots
    match ← Reader.peek with
    | some ',' => Reader.drop; fields.readMembers bound slots
    | some '\x7d' => Reader.drop; return slots
    | _ => Reader.fail

/-- Reads an object behind its opening brace. -/
def readObject {τ : Type} (fields : Fields τ) : Reader τ := do
  let slots ←
    match ← Reader.peek with
    | some '\x7d' => do
      Reader.drop
      pure fields.empty
    | _ => fields.readMembers (← get) fields.empty
  match fields.close slots with
  | some values => return values
  | none => Reader.fail

/-- Reads the items of an array up to its end; `first` tells whether no item was read yet. -/
def readItems : {τ : Type} → (fields : Fields τ) → (first : Bool) → Reader τ
  | _, .done, _ => Reader.token [']']
  | _, .field _ codec presence rest, first => do
    match ← Reader.peek, presence.ifShort with
    | some ']', some value => return (value, ← rest.readItems first)
    | some ']', none => Reader.fail
    | _, _ =>
      if !first then Reader.token [',']
      let value ← codec.read
      return (value, ← rest.readItems false)

/-- The members that are written for the values. -/
def members : {τ : Type} → Fields τ → τ → List (String × Json)
  | _, .done, _ => []
  | _, .field name codec presence rest, (value, values) =>
    if presence.omits value then rest.members values
    else (name, codec.write value) :: rest.members values

/-- The record with these fields. -/
def record {τ : Type} (fields : Fields τ) : Codec τ where
  read := do
    match ← Reader.peek with
    | some '\x7b' => Reader.drop; fields.readObject
    | some '[' => Reader.drop; fields.readItems true
    | _ => Reader.fail
  write values := .object (fields.members values)

end Fields

end StakingDirectory.Json
