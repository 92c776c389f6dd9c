/-
**Internet addresses in their text form.**

* `IpAddress.ofText?` reads four decimal octets, or eight groups of hexadecimal digits of which a
  run may be left out as `::` and the last two may be written as four octets;
* `IpAddress.text` writes an address, the longest run of zero groups as `::`, the first of equally
  long ones, and a single zero in full;
* `IpAddress.endpoint` adds the number that is listened on.
-/

namespace StakingDirectory

/-- An internet address: four octets, or eight groups of 16 bits. -/
inductive IpAddress where
  | v4 (octets : List Nat)
  | v6 (groups : List Nat)
deriving DecidableEq, Repr

namespace IpAddress

/-! ### Reading -/

/-- Reads an octet: at most three digits, no zero in front of others, below 256. -/
def readOctet (text : List Char) : Option (Nat × List Char) :=
  let digits := text.takeWhile Char.isDigit
  let value := digits.foldl (fun value digit => 10 * value + (digit.toNat - 48)) 0
  let padded := digits.head? == some '0' && digits.length != 1
  if digits.isEmpty || 3 < digits.length || padded || 255 < value then none
  else some (value, text.drop digits.length)

/-- Reads further octets, each behind a dot. -/
def readOctets : Nat → List Char → Option (List Nat × List Char)
  | 0, text => some ([], text)
  | count + 1, '.' :: text => do
    let (octet, text) ← readOctet text
    let (octets, text) ← readOctets count text
    return (octet :: octets, text)
  | _ + 1, _ => none

/-- Reads four octets between dots. -/
def readV4 (text : List Char) : Option (List Nat × List Char) := do
  let (octet, text) ← readOctet text
  let (octets, text) ← readOctets 3 text
  return (octet :: octets, text)

/-- The value of a hexadecimal digit of either case. -/
def hexValue? (char : Char) : Option Nat :=
  if char.isDigit then some (char.toNat - 48)
  else if 'a' ≤ char ∧ char ≤ 'f' then some (char.toNat - 87)
  else if 'A' ≤ char ∧ char ≤ 'F' then some (char.toNat - 55)
  else none

/-- Reads a group: one to four hexadecimal digits. -/
def readGroup (text : List Char) : Option (Nat × List Char) :=
  let digits := text.takeWhile fun char => (hexValue? char).isSome
  let value := digits.foldl (fun value digit => 16 * value + (hexValue? digit).getD 0) 0
  if digits.isEmpty || 4 < digits.length then none
  else some (value, text.drop digits.length)

/-- What stands behind the colon that every group but the first one has in front. -/
def behindColon : Bool → List Char → Option (List Char)
  | true, text => some text
  | false, ':' :: text => some text
  | false, _ => none

/-- Reads at most `count` groups, as many as there are, and tells whether the last two were octets.
Octets take the room of two groups. -/
def readGroups : Nat → Bool → List Char → List Nat × Bool × List Char
  | 0, _, text => ([], false, text)
  | count + 1, first, text =>
    let octets := if count = 0 then none else (behindColon first text).bind readV4
    match octets with
    | some ([a, b, c, d], rest) => ([256 * a + b, 256 * c + d], true, rest)
    | _ =>
      match (behindColon first text).bind readGroup with
      | none => ([], false, text)
      | some (group, rest) =>
        let (groups, mixed, rest) := readGroups count false rest
        (group :: groups, mixed, rest)

/-- Reads eight groups, or fewer with `::` for the missing ones. -/
def readV6 (text : List Char) : Option (List Nat × List Char) :=
  let (front, mixed, rest) := readGroups 8 true text
  if front.length = 8 then some (front, rest)
  else if mixed then none
  else
    match rest with
    | ':' :: ':' :: rest =>
      let (back, _, rest) := readGroups (7 - front.length) true rest
      some (front ++ List.replicate (8 - front.length - back.length) 0 ++ back, rest)
    | _ => none

/-- The address that a text spells. -/
def ofText? (text : String) : Option IpAddress :=
  match readV4 text.toList with
  | some (octets, []) => some (.v4 octets)
  | _ =>
    match readV6 text.toList with
    | some (groups, []) => some (.v6 groups)
    | _ => none

/-! ### Writing -/

/-- Octets between dots. -/
def dotted (octets : List Nat) : String :=
  ".".intercalate (octets.map toString)

/-- Groups in hexadecimal between colons. -/
def coloned (groups : List Nat) : String :=
  ":".intercalate (groups.map fun group => String.ofList (Nat.toDigits 16 group))

/-- The longest run of zeros, the first of equally long ones: how many groups stand in front of it
and how many it has. -/
def longestZeros : Nat → Nat → Nat × Nat → List Nat → Nat × Nat
  | _, _, best, [] => best
  | place, run, best, group :: rest =>
    let run := if group = 0 then run + 1 else 0
    longestZeros (place + 1) run (if best.2 < run then (place + 1 - run, run) else best) rest

/-- The text of an address. -/
def text : IpAddress → String
  | .v4 octets => dotted octets
  | .v6 [0, 0, 0, 0, 0, 0xffff, high, low] =>
    "::ffff:" ++ dotted [high / 256, high % 256, low / 256, low % 256]
  | .v6 groups =>
    let (start, length) := longestZeros 0 0 (0, 0) groups
    if 1 < length then
      coloned (groups.take start) ++ "::" ++ coloned (groups.drop (start + length))
    else coloned groups

/-- The text of an address with the number that is listened on. -/
def endpoint (address : IpAddress) (listenPort : UInt16) : String :=
  match address with
  | .v4 _ => s!"{address.text}:{listenPort}"
  | .v6 _ => s!"[{address.text}]:{listenPort}"

end IpAddress

end StakingDirectory
