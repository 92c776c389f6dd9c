/-
**The bearer of a token.**

The header `Authorization` carries the token of a session as `Bearer`, one blank and the token. Of
several such headers the first one counts, and the case of a header's name does not matter.

* `Bearer.value` writes the header;
* `Bearer.token` reads it out of all headers of a request.
-/

import StakingDirectory.Text.Split
import StakingDirectory.Refusal

namespace StakingDirectory.Bearer

/-- A header: its name and the bytes of its value. -/
abbrev Header := String × Bytes

/-- The scheme that the header names. -/
def scheme : String := "Bearer"

/-- The value of the header for a token. -/
def value (token : String) : String := scheme ++ " " ++ token

/-- Whether this is the header that carries tokens. -/
def isAuthorization (header : Header) : Bool :=
  header.1.toLower == "authorization"

/-- Whether a byte may stand in a header that is read as text: visible, a blank or a tab. -/
def isPlain (byte : UInt8) : Bool :=
  byte == 9 || (32 ≤ byte && byte < 127)

/-- The token of the first header that carries one. -/
def token (headers : List Header) : Except Refusal String :=
  match headers.find? isAuthorization with
  | none => .error .missingAuthHeader
  | some (_, bytes) =>
    if bytes.all isPlain then
      let chars := bytes.map fun byte => Char.ofNat byte.toNat
      match Text.splitAll ' ' chars with
      | [first, second] =>
        if first = scheme.toList ∧ second ≠ [] then .ok (String.ofList second)
        else .error .invalidAuthHeader
      | _ => .error .invalidAuthHeader
    else .error .invalidAuthHeader

end StakingDirectory.Bearer
