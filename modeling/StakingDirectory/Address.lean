/-
**Addresses.**

An address is twenty bytes. Its text is the mark `0x` and forty digits, whose letters carry a
checksum in their case: a letter is a capital where the Keccak digest of the lower-case digits has a
half byte of eight or more. Reading takes digits of any case.

* `recase` changes letters only in their case, whatever the half bytes are;
* `Address.checksum` is the text of an address.
-/

import StakingDirectory.FixedBytes
import StakingDirectory.Digest.Keccak

namespace StakingDirectory

/-- An account: twenty bytes. -/
abbrev Address := FixedBytes 20

namespace Address

instance : Std.TransOrd Address := inferInstance

instance : Std.LawfulEqOrd Address := inferInstance

/-- The two halves of each byte, high half first. -/
def halves (bytes : Bytes) : List Nat :=
  bytes.flatMap fun byte => [byte.toNat / 16, byte.toNat % 16]

/-- Turns a letter into a capital where the half byte beside it is eight or more. -/
def recase : List Char → List Nat → List Char
  | [], _ => []
  | digit :: digits, [] => digit :: digits
  | digit :: digits, half :: rest =>
    (if 8 ≤ half then digit.toUpper else digit) :: recase digits rest

/-- The text of an address, with the checksum in the case of its letters. -/
def checksum (address : Address) : String :=
  let lower := Hex.encode address.bytes
  "0x" ++ String.ofList (recase lower.toList (halves (Keccak.digest (Bytes.ofText lower))))

instance : ToString Address := ⟨checksum⟩

end Address

end StakingDirectory
