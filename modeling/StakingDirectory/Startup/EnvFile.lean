/-
**Env files.**

An env file sets variables, a line `NAME=value` each. A line goes on behind its end while a
quotation mark is open, and what stands behind a blank and `#` is a remark. The text must not end in
an open quotation mark, nor in a backslash or a blank.

* `EnvFile.logicalLines` puts such lines together;
* `EnvFile.parseLine` reads the name and the value of a line. In the value, `'…'` is taken as it is,
  a backslash stands in front of a character with a meaning of its own, and `$NAME` and `${NAME}`
  stand for variables;
* `EnvFile.lookUp` finds the value of a name among variables;
* `EnvFile.load` sets the variables line by line, up to the first faulty line, whose fault it
  reports. A variable that is set already keeps its value.
-/

import StakingDirectory.Text.Blank
import StakingDirectory.Text.Letter

namespace StakingDirectory.EnvFile

/-! ### Lines -/

/-- What is open at a place of a line. -/
inductive Open where
  | nothing
  /-- A blank came last. -/
  | blank
  /-- A backslash came last. -/
  | escape
  | single
  | singleEscape
  | double
  | doubleEscape
deriving DecidableEq

/-- What is open behind a character, outside quotation marks. -/
def Open.behind (char : Char) : Open :=
  if char = '\\' then .escape
  else if char = '"' then .double
  else if char = '\'' then .single
  else .nothing

/-- What is open behind one more character; `none` where a remark begins. -/
def Open.step : Open → Char → Option Open
  | .nothing, char =>
    if Text.isBlank char ∧ char ≠ '\n' ∧ char ≠ '\r' then some .blank else some (.behind char)
  | .blank, char => if char = '#' then none else some (.behind char)
  | .escape, _ => some .nothing
  | .single, char =>
    some (if char = '\\' then .singleEscape else if char = '\'' then .nothing else .single)
  | .singleEscape, _ => some .single
  | .double, char =>
    some (if char = '\\' then .doubleEscape else if char = '"' then .nothing else .double)
  | .doubleEscape, _ => some .double

/-- The characters in front of a remark, and what is open at the end; `none` if a remark began. -/
def Open.run : Open → List Char → List Char × Option Open
  | state, [] => ([], some state)
  | state, char :: rest =>
    match state.step char with
    | none => ([], none)
    | some next =>
      let (kept, last) := run next rest
      (char :: kept, last)

/-- The lines of a text, each with its end. -/
def physicalLines : List Char → List (List Char)
  | [] => []
  | char :: rest =>
    if char = '\n' then [char] :: physicalLines rest
    else
      match physicalLines rest with
      | [] => [[char]]
      | line :: lines => (char :: line) :: lines

/-- A line without its end. -/
def chomp (line : List Char) : List Char :=
  match line.reverse with
  | '\n' :: '\r' :: rest => rest.reverse
  | '\n' :: rest => rest.reverse
  | _ => line

/-- Puts lines together behind what is pending, and gives what is pending in the end. -/
def joinLines : List Char → Open → List (List Char) → List (List Char) × List Char
  | pending, _, [] => ([], pending)
  | pending, state, line :: rest =>
    let whole := pending ++ line
    let remark := (whole.dropWhile Text.isBlank).head? == some '#'
    let finish (found : List Char) : List (List Char) × List Char :=
      let (lines, last) := joinLines [] .nothing rest
      (found :: lines, last)
    if remark then finish []
    else
      match state.run line with
      | (kept, none) => finish (pending ++ kept)
      | (_, some .nothing) => finish (chomp whole)
      | (_, some next) => joinLines whole next rest

/-- The lines that belong together, and what is left at the end because something stays open. -/
def logicalLines (text : List Char) : List (List Char) × List Char :=
  joinLines [] .nothing (physicalLines text)

/-! ### Faults -/

/-- A fault in a line or a value, and where it is. -/
structure Fault where
  text : List Char
  /-- How much of the text is in front of the fault: bytes, or characters inside of a value. -/
  index : Nat
deriving DecidableEq, Repr

/-- The report of a fault. -/
def Fault.message (fault : Fault) : String :=
  s!"Error parsing line: '{String.ofList fault.text}', error at line index: {fault.index}"

/-- The number of bytes of a text. -/
def byteCount (text : List Char) : Nat :=
  text.foldl (fun count char => count + char.utf8Size) 0

/-! ### Values -/

/-- Where the reading of a value stands. The flag tells whether it is inside `"…"`. -/
inductive Place where
  /-- Outside of everything, or inside `"…"`. -/
  | plain (quoted : Bool)
  /-- Behind a backslash. -/
  | escape (quoted : Bool)
  /-- Inside `'…'`. -/
  | single
  /-- Inside a name behind `$`. -/
  | name (quoted : Bool) (name : List Char)
  /-- Inside a name behind `${`. -/
  | braced (quoted : Bool) (name : List Char)
  /-- Behind a blank, where only blanks and a remark may follow. -/
  | ending

/-- The character that an escaped one stands for. -/
def unescape? (char : Char) : Option Char :=
  if char = 'n' then some '\n'
  else if char ∈ ['\\', '\'', '"', '$', ' '] then some char
  else none

/-- What a value holds for one more character at a place, and the next place. -/
def Place.step (known : List Char → List Char) :
    Place → Char → Option (List Char × Place)
  | .ending, char => if char = ' ' ∨ char = '\t' then some ([], .ending) else none
  | .escape quoted, char => (unescape? char).map fun char => ([char], .plain quoted)
  | .single, char => some (if char = '\'' then ([], .plain false) else ([char], .single))
  | .name quoted letters, char =>
    if Text.isAlphanumeric char then some ([], .name quoted (letters ++ [char]))
    else if char = '\x7b' ∧ letters = [] then some ([], .braced quoted [])
    else if char = '$' then some (known letters, .name quoted [])
    else some (known letters ++ [char], .plain quoted)
  | .braced quoted letters, char =>
    some (if char = '\x7d' then (known letters, .plain quoted)
      else ([], .braced quoted (letters ++ [char])))
  | .plain quoted, char =>
    some <|
      if char = '$' then ([], .name quoted [])
      else if char = '\\' then ([], .escape quoted)
      else if char = '"' then ([], .plain (!quoted))
      else if quoted then ([char], .plain true)
      else if char = '\'' then ([], .single)
      else if char = ' ' ∨ char = '\t' then ([], .ending)
      else ([char], .plain false)

/-- What a value holds at its end, unless something is still open. -/
def Place.finish? (known : List Char → List Char) : Place → Option (List Char)
  | .plain false | .escape false | .ending => some []
  | .name false letters => some (known letters)
  | _ => none

/-- Reads a value from a place on, of which `index` characters are in front. The fault is the number
of characters in front of a bad one, and `last` at the end. -/
def readPlaces (known : List Char → List Char) (last : Nat) :
    Nat → Place → List Char → Except Nat (List Char)
  | _, place, [] =>
    match place.finish? known with
    | some held => .ok held
    | none => .error last
  | _, .ending, '#' :: _ => .ok []
  | index, place, char :: rest =>
    match place.step known char with
    | none => .error index
    | some (held, next) => (readPlaces known last (index + 1) next rest).map (held ++ ·)

/-- Reads a value. What stays open at the end is a fault of the last byte. -/
def readValue (known : List Char → List Char) (text : List Char) : Except Fault (List Char) :=
  match readPlaces known (byteCount text - 1) 0 (.plain false) text with
  | .ok held => .ok held
  | .error index => .error ⟨text, index⟩

/-! ### Assignments -/

/-- Whether a character may begin the name of a variable. -/
def beginsName (char : Char) : Bool := char.isAlpha || char == '_'

/-- Whether a character may stand in the name of a variable. -/
def insideName (char : Char) : Bool := char.isAlphanum || char == '_' || char == '.'

/-- Reads a name and the blanks behind it. The fault is the text that no name begins. -/
def readName (text : List Char) : Except (List Char) (List Char × List Char) :=
  if text.head?.any beginsName then
    .ok (text.takeWhile insideName, (text.dropWhile insideName).dropWhile Text.isBlank)
  else .error text

/-- Passes over the sign between name and value and the blanks behind it. The fault is the text that
does not begin with the sign. -/
def passEquals : List Char → Except (List Char) (List Char)
  | '=' :: rest => .ok (rest.dropWhile Text.isBlank)
  | text => .error text

/-- Reads the name and the text of the value. The word `export` may stand in front of the name, and
may be the name itself. The fault is the text from where it cannot be read on. -/
def readAssignment (text : List Char) : Except (List Char) (List Char × List Char) := do
  let (name, rest) ← readName text
  match passEquals rest with
  | .ok value => return (name, value)
  | .error fault =>
    if name = "export".toList then
      let (name, rest) ← readName rest
      return (name, ← passEquals rest)
    else throw fault

/-- The value under a name. A variable is found by the text of its name, an equals sign and its
value, so that a name with an equals sign finds what stands behind it in a value. -/
def lookUp (known : String → Option String) (name : List Char) : Option (List Char) := do
  let value := (← known (String.ofList (name.takeWhile (· ≠ '=')))).toList
  match name.dropWhile (· ≠ '=') with
  | [] => some value
  | _ :: rest => (rest ++ ['=']).isPrefixOf? value

/-- What a line does: nothing, or set a variable. -/
def parseLine (known : String → Option String) (line : List Char) :
    Except Fault (Option (String × String)) :=
  let whole := Text.trimEnd line
  let text := whole.dropWhile Text.isBlank
  if text.isEmpty || text.head? == some '#' then .ok none
  else
    match readAssignment text with
    | .error rest => .error ⟨line, byteCount whole - byteCount rest⟩
    | .ok (name, value) =>
      if value.isEmpty || value.head? == some '#' then .ok (some (String.ofList name, ""))
      else
        (readValue (fun name => (lookUp known name).getD []) value).map fun held =>
          some (String.ofList name, String.ofList held)

/-- The names that may stand at the front of a text: of the variable that it sets or stands for. -/
def nameAtFront : List Char → List Char
  | '$' :: '\x7b' :: rest => rest.takeWhile fun char => char ≠ '\x7d' ∧ char ≠ '='
  | '$' :: rest => rest.takeWhile Text.isAlphanumeric
  | text => if text.head?.any beginsName then text.takeWhile insideName else []

/-- The names of all variables that reading a text may ask for. -/
def mentioned : List Char → List String
  | [] => []
  | char :: rest => String.ofList (nameAtFront (char :: rest)) :: mentioned rest

/-! ### Loading -/

/-- Variables by name, a later setting of one in front of the earlier ones. -/
abbrev Variables := List (String × String)

/-- The value of a variable: as it was before the file, or else as the file sets it. -/
def value (before : String → Option String) (set : Variables) (name : String) : Option String :=
  before name <|> set.lookup name

/-- Sets variables line by line up to a fault. -/
def loadLines (before : String → Option String) (set : Variables) :
    List (List Char) → Variables × Option Fault
  | [] => (set, none)
  | line :: rest =>
    match parseLine (value before set) line with
    | .error fault => (set, some fault)
    | .ok none => loadLines before set rest
    | .ok (some (name, held)) =>
      let isSet := (value before set name).isSome
      loadLines before (if isSet then set else (name, held) :: set) rest

/-- The variables that a file sets, and its first fault if it has one. A byte order mark at the
front does not count. -/
def load (before : String → Option String) (text : String) : Variables × Option Fault :=
  let chars :=
    match text.toList with
    | '\ufeff' :: rest => rest
    | chars => chars
  let (lines, last) := logicalLines chars
  let (set, fault) := loadLines before [] lines
  (set, fault <|> if last.isEmpty then none else some ⟨last, byteCount last⟩)

end StakingDirectory.EnvFile
