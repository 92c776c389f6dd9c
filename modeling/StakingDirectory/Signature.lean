/-
**Wallet signatures of texts.**

A signature is 65 bytes: `r`, `s` and the recovery tag, which is 0 or 1 or those plus 27. What is
signed is the Keccak digest of the signed form of a text, which puts a fixed head and the number of
bytes in front of it:

* `signedForm` is that form, `textHash` its digest;
* `recoverAddress` finds the account that signed a text, and checks in the order length, tag, range
  of `r` and `s`, recovery;
* `sign` signs a text;
* `registrationText` and `loginText` are the texts that a node signs, and `verifyRegistration` and
  `verifyLogin` accept exactly the node's own signatures of them.
-/

import StakingDirectory.Address
import StakingDirectory.Curve.Ecdsa

namespace StakingDirectory.Signature

/-- Why a signature is not accepted. -/
inductive Fault where
  /-- The signature has `found` bytes instead of 65. -/
  | wrongLength (found : Nat)
  /-- The last byte is no recovery tag. -/
  | badTag (tag : UInt8)
  /-- A scalar is out of range. -/
  | malformed
  /-- No key could have made the signature. -/
  | unrecoverable
  /-- Another account signed. -/
  | otherSigner (recovered expected : Address)
  /-- The secret key is not 32 bytes of a number between zero and the group order. -/
  | badSecret
  /-- The signature is not hexadecimal text. -/
  | hex (fault : Hex.Fault)
deriving DecidableEq

/-- The number of bytes of a signature. -/
def size : Nat := 65

/-- The report of a fault. -/
def Fault.message : Fault → String
  | .wrongLength found => s!"invalid signature length: expected {size}, found {found}"
  | .badTag tag => s!"invalid recovery id {tag}"
  | .malformed => "malformed signature"
  | .unrecoverable => "public key recovery failed"
  | .otherSigner recovered expected =>
    s!"signature was produced by {recovered.checksum}, expected {expected.checksum}"
  | .badSecret => "invalid secret key"
  | .hex fault => s!"hex decode error: {fault.message}"

/-! ### Digests and accounts -/

/-- The bytes that are digested for a signed message. -/
def signedForm (message : Bytes) : Bytes :=
  Bytes.ofText "\x19Ethereum Signed Message:\n" ++ Bytes.ofText (toString message.length) ++ message

/-- The digest that a signature of the message is made over. -/
def textHash (message : Bytes) : Bytes :=
  Keccak.digest (signedForm message)

/-- The account of a public key: the last twenty bytes of the digest of its coordinates. -/
def addressOfKey (key : Curve.Coordinate × Curve.Coordinate) : Address :=
  FixedBytes.alignRight
    ((Keccak.digest (Bytes.ofNat 32 key.1.val ++ Bytes.ofNat 32 key.2.val)).drop 12)

/-- The secret key that 32 bytes spell. -/
def secretOfBytes (bytes : Bytes) : Except Fault Curve.Scalar :=
  let value := Bytes.toNat bytes
  if bytes.length = 32 ∧ 0 < value ∧ value < Curve.groupOrder then .ok (Curve.residue value)
  else .error .badSecret

/-- The account of a secret key. -/
def addressOfSecret (secret : Curve.Scalar) : Except Fault Address :=
  match Curve.publicKey secret with
  | some key => .ok (addressOfKey key)
  | none => .error .badSecret

/-! ### Recovering and signing -/

/-- The parity that a recovery tag stands for. -/
def parityOfTag? (tag : UInt8) : Option Bool :=
  if tag = 0 ∨ tag = 27 then some false
  else if tag = 1 ∨ tag = 28 then some true
  else none

/-- A number below the group order as a scalar. -/
def scalar? (bytes : Bytes) : Option Curve.Scalar :=
  let value := Bytes.toNat bytes
  if value < Curve.groupOrder then some (Curve.residue value) else none

/-- The account that signed the message. -/
def recoverAddress (signature message : Bytes) : Except Fault Address :=
  if signature.length ≠ size then .error (.wrongLength signature.length)
  else
    let tag := signature.getD 64 0
    match parityOfTag? tag with
    | none => .error (.badTag tag)
    | some odd =>
      match scalar? (signature.take 32), scalar? ((signature.drop 32).take 32) with
      | some r, some s =>
        match Curve.recover r s odd (textHash message) with
        | some key => .ok (addressOfKey key)
        | none => .error .unrecoverable
      | _, _ => .error .malformed

/-- The signature of a message, with the recovery tag in the form that starts at 27. -/
def sign (secret : Curve.Scalar) (message : Bytes) : Option Bytes :=
  (Curve.sign secret (textHash message)).map fun made =>
    let tag := 27 + made.odd.toNat + 2 * made.reduced.toNat
    Bytes.ofNat 32 made.r.val ++ Bytes.ofNat 32 made.s.val ++ [UInt8.ofNat tag]

/-- Reads the hexadecimal text of a signature. -/
def ofHex (text : String) : Except Fault Bytes :=
  match Hex.decode text with
  | .ok bytes => .ok bytes
  | .error fault => .error (.hex fault)

/-! ### The signed texts -/

/-- The text that a node signs to be registered under an account. -/
def registrationText (email : String) (node : Address) : String :=
  "\x7b\"email\":\"" ++ email ++ "\",\"node_address\":\"" ++ node.checksum ++ "\"\x7d"

/-- The text that a node signs to log in with a nonce. -/
def loginText (nonce : String) (node : Address) : String :=
  "\x7b\"nonce\":\"" ++ nonce ++ "\",\"address\":\"" ++ node.checksum ++ "\"\x7d"

/-- Accepts a signature of the text by the expected account only. -/
def verify (signature : Bytes) (text : String) (expected : Address) : Except Fault Unit :=
  match recoverAddress signature (Bytes.ofText text) with
  | .error fault => .error fault
  | .ok recovered =>
    if recovered = expected then .ok () else .error (.otherSigner recovered expected)

/-- Accepts the node's own signature of its registration text. -/
def verifyRegistration (email : String) (node : Address) (signature : Bytes) : Except Fault Unit :=
  verify signature (registrationText email node) node

/-- Accepts the node's own signature of its login text. -/
def verifyLogin (nonce : String) (node : Address) (signature : Bytes) : Except Fault Unit :=
  verify signature (loginText nonce node) node

end StakingDirectory.Signature
