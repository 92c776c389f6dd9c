/-
**ECDSA with key recovery.**

A signature of a 256-bit digest is a pair `r`, `s` of scalars and a recovery tag, which names the
point that `r` came from:

* `recover` finds the public key that made a signature;
* `sign` signs with the nonces that the key and the digest determine, and gives the lower one of the
  two values of `s`;
* `publicKey` is the point of a secret key.
-/

import StakingDirectory.Curve.Point
import StakingDirectory.Digest.Sha256

namespace StakingDirectory.Curve

/-- A signature with its recovery tag: the parity of the point's ordinate, and whether its abscissa
was reduced. -/
structure Signature where
  r : Scalar
  s : Scalar
  odd : Bool
  reduced : Bool
deriving DecidableEq

/-- The scalar that a digest stands for. -/
def scalarOfDigest (digest : Bytes) : Scalar :=
  residue (Bytes.toNat digest)

/-- The public key of a secret key. -/
def publicKey (secret : Scalar) : Option (Coordinate × Coordinate) :=
  (Point.scale secret Point.generator).affine

/-- The public key under which a signature of the digest holds, given the parity of the point that
`r` came from. -/
def recover (r s : Scalar) (odd : Bool) (digest : Bytes) : Option (Coordinate × Coordinate) :=
  if r.val = 0 ∨ s.val = 0 then none
  else do
    let point ← Point.lift (residue r.val) odd
    let share := inverse r
    let own := Point.scale (share * s) point
    let base := Point.scale (share * -scalarOfDigest digest) Point.generator
    (Point.add own base).affine

/-! ### Signing -/

/-- The generator of nonces: a key and a value of 32 bytes each. -/
structure NonceState where
  key : Bytes
  value : Bytes

/-- Mixes a text into the key and renews the value. -/
def NonceState.mix (state : NonceState) (text : Bytes) : NonceState :=
  let key := Sha256.keyed state.key (state.value ++ text)
  ⟨key, Sha256.keyed key state.value⟩

/-- The state that a secret key and a digest start from. -/
def NonceState.start (secret : Scalar) (digest : Bytes) : NonceState :=
  let seed := Bytes.ofNat 32 secret.val ++ Bytes.ofNat 32 (scalarOfDigest digest).val
  ((NonceState.mix ⟨List.replicate 32 0, List.replicate 32 1⟩ (0 :: seed)).mix (1 :: seed))

/-- The signature made with one nonce, if the nonce serves. -/
def signWith (nonce secret message : Scalar) : Option Signature := do
  let (x, y) ← (Point.scale nonce Point.generator).affine
  let r : Scalar := residue x.val
  let s := inverse nonce * (message + r * secret)
  let odd := y.val % 2 == 1
  let reduced := groupOrder ≤ x.val
  if s.val = 0 then none
  else if groupOrder / 2 < s.val then some ⟨r, -s, !odd, reduced⟩
  else some ⟨r, s, odd, reduced⟩

/-- Tries the nonces in turn, at most `attempts` of them. -/
def signFrom (secret message : Scalar) : Nat → NonceState → Option Signature
  | 0, _ => none
  | attempts + 1, state =>
    let value := Sha256.keyed state.key state.value
    let candidate := Bytes.toNat value
    let made :=
      if candidate = 0 ∨ groupOrder ≤ candidate then none
      else signWith (residue candidate) secret message
    match made with
    | some signature => some signature
    | none => signFrom secret message attempts ((NonceState.mk state.key value).mix [0])

/-- The signature of a digest. A nonce fails about once in `2 ^ 127` times, so one of the 64 that
are tried serves. -/
def sign (secret : Scalar) (digest : Bytes) : Option Signature :=
  signFrom secret (scalarOfDigest digest) 64 (NonceState.start secret digest)

end StakingDirectory.Curve
