/-
**Accepted signatures.**

* `verify_eq_ok`: a signature of a text is accepted for exactly the account that it leads back to;
* `verify_of_recover`: that is the account of the key that is recovered from it;
* the accounts of the secret keys 1 and 2, whose signatures of a registration and of a login are
  accepted.
-/

import StakingDirectory.Proofs.Digest.Keccak
import StakingDirectory.Signature

namespace StakingDirectory.Signature

/-- A signature is accepted if it leads back to the expected account. -/
theorem verify_eq_ok {signature : Bytes} {text : String} {expected : Address} :
    verify signature text expected = .ok () ↔
      recoverAddress signature (Bytes.ofText text) = .ok expected := by
  unfold verify
  cases recoverAddress signature (Bytes.ofText text) with
  | error fault => simp
  | ok recovered => by_cases same : recovered = expected <;> simp [same]

/-- The numbers that a signature holds. -/
def scalarsOf (signature : Bytes) : Curve.Scalar × Curve.Scalar :=
  (Curve.residue (Bytes.toNat (signature.take 32)),
    Curve.residue (Bytes.toNat ((signature.drop 32).take 32)))

/-- The key that the numbers of a signature lead back to. -/
def recoveredKey (signature : Bytes) (text : String) (odd : Bool) :
    Option (Curve.Coordinate × Curve.Coordinate) :=
  Curve.recover (scalarsOf signature).1 (scalarsOf signature).2 odd (textHash (Bytes.ofText text))

/-- **A well-formed signature is accepted for the account of the key that is recovered from it.** -/
theorem verify_of_recover {signature : Bytes} {text : String} {expected : Address} {odd : Bool}
    {key : Curve.Coordinate × Curve.Coordinate} (length : signature.length = size)
    (tag : parityOfTag? (signature.getD 64 0) = some odd)
    (small : Bytes.toNat (signature.take 32) < Curve.groupOrder ∧
      Bytes.toNat ((signature.drop 32).take 32) < Curve.groupOrder)
    (recovered : recoveredKey signature text odd = some key)
    (account : addressOfKey key = expected) : verify signature text expected = .ok () := by
  have first : scalar? (signature.take 32) = some (scalarsOf signature).1 := if_pos small.1
  have second : scalar? ((signature.drop 32).take 32) = some (scalarsOf signature).2 :=
    if_pos small.2
  rw [recoveredKey] at recovered
  rw [verify_eq_ok, recoverAddress, if_neg (not_not_intro length)]
  simp only [tag, first, second, recovered, account]

/-! ### Two accounts -/

/-- The account of the secret key 1. -/
def firstAccount : Address where
  bytes :=
    [126, 95, 69, 82, 9, 26, 105, 18, 93, 93, 252, 183, 184, 194, 101, 144, 41, 57, 91, 223]
  length_bytes := rfl

/-- Its signature to be registered under the email `a`. -/
def firstRegistration : Bytes :=
  [162, 31, 231, 50, 195, 69, 18, 186, 172, 71, 150, 227, 57, 79, 158, 165, 39, 109, 253, 50, 74,
    30, 220, 217, 84, 219, 102, 104, 229, 55, 148, 183, 110, 99, 85, 36, 102, 7, 128, 226, 143, 223,
    238, 111, 105, 111, 43, 143, 117, 168, 33, 160, 192, 42, 36, 56, 170, 247, 207, 84, 164, 11, 36,
    173, 28]

/-- The nonce of the first numbered token. -/
def firstNonce : String :=
  "0xdb8055e0e0307d5a016bec4dc338d69875eb0fb7e614a8b125b08fb082095d98"

/-- Its signature to log in with that nonce. -/
def firstLogin : Bytes :=
  [197, 160, 15, 116, 21, 142, 221, 179, 140, 22, 102, 177, 96, 68, 250, 213, 129, 158, 252, 129,
    78, 224, 210, 177, 60, 50, 29, 134, 141, 149, 142, 151, 24, 253, 2, 33, 55, 109, 11, 50, 90,
    149, 204, 60, 116, 190, 5, 206, 126, 4, 95, 248, 132, 29, 186, 203, 65, 51, 141, 63, 178, 42,
    248, 191, 28]

/-- The public key of the secret key 1. -/
def generatorKey : Curve.Coordinate × Curve.Coordinate :=
  (Curve.Point.generator.x, Curve.Point.generator.y)

/-- The public key of the secret key 2. -/
def doubledGenerator : Curve.Coordinate × Curve.Coordinate :=
  (Curve.residue 0xc6047f9441ed7d6d3045406e95c07cd85c778e4b8cef3ca7abac09b95c709ee5,
    Curve.residue 0x1ae168fea63dc339a3c58419466ceaeef7f632653266d0e1236431a950cfe52a)

/-- The account of the secret key 2. -/
def secondAccount : Address where
  bytes :=
    [43, 90, 213, 196, 121, 92, 2, 101, 20, 248, 49, 124, 122, 33, 94, 33, 141, 204, 214, 207]
  length_bytes := rfl

/-- Its signature to be registered under the email `a`. -/
def secondRegistration : Bytes :=
  [90, 104, 190, 241, 25, 99, 113, 211, 14, 108, 11, 20, 62, 194, 12, 83, 52, 157, 250, 176, 52,
    139, 45, 180, 50, 223, 229, 64, 67, 23, 205, 140, 88, 45, 174, 241, 202, 198, 13, 91, 75, 136,
    71, 246, 121, 73, 247, 154, 135, 73, 150, 49, 80, 145, 235, 24, 79, 186, 82, 250, 98, 98, 239,
    139, 27]

/-- The nonce of the second numbered token. -/
def secondNonce : String :=
  "0x11e594f481958c10e3015d0bf0447a22f068a8a647f475df15ce2c7ab4b8f3f1"

/-- Its signature to log in with that nonce. -/
def secondLogin : Bytes :=
  [57, 143, 7, 80, 102, 31, 104, 208, 22, 198, 198, 87, 203, 233, 5, 144, 151, 49, 225, 97, 176,
    168, 219, 228, 43, 245, 4, 13, 95, 74, 5, 158, 86, 28, 214, 183, 130, 109, 91, 98, 200, 91, 189,
    207, 233, 123, 21, 42, 160, 43, 217, 201, 188, 171, 98, 19, 5, 98, 75, 104, 253, 43, 165, 34,
    28]

/-! ### What the accounts sign

The digests and the curve are computed in the first three lemmas only, which takes seconds. -/

theorem checksum_accounts :
    firstAccount.checksum = "0x7E5F4552091A69125d5DfCb7b8C2659029395Bdf" ∧
      secondAccount.checksum = "0x2B5AD5c4795c026514f8317c7a215E218DcCD6cF" := by
  simp only [Address.checksum, Keccak.digest_eq]
  decide +kernel

theorem addressOfKey_accounts :
    addressOfKey generatorKey = firstAccount ∧ addressOfKey doubledGenerator = secondAccount := by
  simp only [addressOfKey, Keccak.digest_eq]
  decide +kernel

/-- Each signature leads back to the key of its account. -/
theorem recoveredKey_accounts :
    (recoveredKey firstRegistration (registrationText "a" firstAccount) true = some generatorKey ∧
      recoveredKey firstLogin (loginText firstNonce firstAccount) true = some generatorKey) ∧
    recoveredKey secondRegistration (registrationText "a" secondAccount) false =
        some doubledGenerator ∧
      recoveredKey secondLogin (loginText secondNonce secondAccount) true =
        some doubledGenerator := by
  simp only [recoveredKey, registrationText, loginText, checksum_accounts, textHash,
    Keccak.digest_eq]
  -- One at a time, since a computation of all four takes as much more room.
  refine ⟨⟨?_, ?_⟩, ?_, ?_⟩ <;> decide +kernel

theorem verifyRegistration_firstAccount :
    verifyRegistration "a" firstAccount firstRegistration = .ok () :=
  verify_of_recover (by decide) (by decide) (by decide) recoveredKey_accounts.1.1
    addressOfKey_accounts.1

theorem verifyLogin_firstAccount : verifyLogin firstNonce firstAccount firstLogin = .ok () :=
  verify_of_recover (by decide) (by decide) (by decide) recoveredKey_accounts.1.2
    addressOfKey_accounts.1

theorem verifyRegistration_secondAccount :
    verifyRegistration "a" secondAccount secondRegistration = .ok () :=
  verify_of_recover (by decide) (by decide) (by decide) recoveredKey_accounts.2.1
    addressOfKey_accounts.2

theorem verifyLogin_secondAccount :
    verifyLogin secondNonce secondAccount secondLogin = .ok () :=
  verify_of_recover (by decide) (by decide) (by decide) recoveredKey_accounts.2.2
    addressOfKey_accounts.2

end StakingDirectory.Signature
