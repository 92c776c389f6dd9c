/-
**Signing and recovering fit together.**

Signer and recoverer share the layout of a signature: two numbers of 32 bytes, which are read back
as they were written (`scalar?_ofNat`), and a tag behind them. What comes of a signature hangs on
the tag by its parity only (`recoverAddress_tagged`), and both forms of a tag have the same one.

Of the curve nothing is proved. `Curve.Recovers` is what it is relied on for when a digest is signed
with a secret key, and `sign_recover` says what follows for the signatures of texts.
-/

import Mathlib.Algebra.Ring.Nat
import StakingDirectory.Proofs.Digest.Sha256
import StakingDirectory.Proofs.Signature.Payload

namespace StakingDirectory

/-! ### Numbers in bytes -/

namespace Bytes

theorem toNat_concat (bytes : Bytes) (byte : UInt8) :
    toNat (bytes ++ [byte]) = 256 * toNat bytes + byte.toNat := by
  rw [toNat, List.foldl_append]
  rfl

/-- A number is read back from as many bytes as it takes. -/
theorem toNat_ofNat (width value : Nat) : toNat (ofNat width value) = value % 256 ^ width := by
  induction width generalizing value with
  | zero => simp [ofNat, toNat, Nat.mod_one]
  | succ width ih =>
    have low : (UInt8.ofNat value).toNat = value % 256 := UInt8.toNat_ofNat'
    rw [ofNat, toNat_concat, ih, low, Nat.pow_succ', Nat.mod_mul]
    omega

end Bytes

/-! ### The curve -/

/-- **What the curve is relied on for** when a digest is signed with a secret key: the key has a
public key, the digest is signed, with a point whose abscissa was not reduced, so that the parity is
all of its tag, and the public key is recovered from the signature. -/
structure Curve.Recovers (secret : Scalar) (digest : Bytes) : Prop where
  key : ∃ key, publicKey secret = some key
  signs : ∃ made, sign secret digest = some made ∧ made.reduced = false
  recovers : ∀ made, sign secret digest = some made →
    recover made.r made.s made.odd digest = publicKey secret

/-- The first nonce that a key and a digest determine. -/
def Curve.derivedNonce (secret : Scalar) (digest : Bytes) : Nat :=
  let state := NonceState.start secret digest
  Bytes.toNat (Sha256.keyed state.key state.value)

/-- A digest is signed with the first nonce, if it serves. -/
theorem Curve.sign_of_derivedNonce {secret : Scalar} {digest : Bytes} {nonce : Nat}
    {made : Signature} (derived : derivedNonce secret digest = nonce)
    (proper : nonce ≠ 0 ∧ nonce < groupOrder)
    (serves : signWith (residue nonce) secret (scalarOfDigest digest) = some made) :
    sign secret digest = some made := by
  have kept : ¬ (nonce = 0 ∨ groupOrder ≤ nonce) := by omega
  rw [← derived] at kept serves
  unfold derivedNonce at kept serves
  rw [sign, signFrom]
  simp only [if_neg kept, serves]

/-- The curve can be relied on where a nonce, a signature and a key were computed that fit. -/
theorem Curve.recovers_of_nonce {secret : Scalar} {digest : Bytes} {nonce : Nat}
    {key : Coordinate × Coordinate} (made : Signature)
    (derived : derivedNonce secret digest = nonce) (proper : nonce ≠ 0 ∧ nonce < groupOrder)
    (serves : signWith (residue nonce) secret (scalarOfDigest digest) = some made)
    (whole : made.reduced = false) (known : publicKey secret = some key)
    (back : recover made.r made.s made.odd digest = some key) : Recovers secret digest where
  key := ⟨key, known⟩
  signs := ⟨made, sign_of_derivedNonce derived proper serves, whole⟩
  recovers other signs := by
    obtain rfl := Option.some.inj ((sign_of_derivedNonce derived proper serves).symm.trans signs)
    rw [back, known]

namespace Signature

/-! ### The layout of a signature -/

/-- The account that the numbers of a signature lead back to, given the parity of the point. -/
def recoverNumbers (numbers : Bytes) (odd : Bool) (message : Bytes) : Except Fault Address :=
  match scalar? (numbers.take 32), scalar? ((numbers.drop 32).take 32) with
  | some r, some s =>
    match Curve.recover r s odd (textHash message) with
    | some key => .ok (addressOfKey key)
    | none => .error .unrecoverable
  | _, _ => .error .malformed

section

variable {numbers : Bytes} {message : Bytes}

/-- **The tag counts by its parity only.** -/
theorem recoverAddress_tagged (long : numbers.length = 64) (tag : UInt8) :
    recoverAddress (numbers ++ [tag]) message =
      match parityOfTag? tag with
      | none => .error (.badTag tag)
      | some odd => recoverNumbers numbers odd message := by
  have sized : ¬ (numbers ++ [tag]).length ≠ size := by simp [long, size]
  have last : (numbers ++ [tag]).getD 64 0 = tag := by simp [List.getD, ← long]
  have first : (numbers ++ [tag]).take 32 = numbers.take 32 :=
    List.take_append_of_le_length (by omega)
  have second : ((numbers ++ [tag]).drop 32).take 32 = (numbers.drop 32).take 32 := by
    rw [List.drop_append_of_le_length (by omega),
      List.take_append_of_le_length (by rw [List.length_drop]; omega)]
  rw [recoverAddress, if_neg sized]
  simp only [last, first, second]
  rfl

/-- A signature of the right length is numbers and a tag. -/
theorem exists_tagged {signature : Bytes} (long : signature.length = size) :
    ∃ numbers tag, signature = numbers ++ [tag] ∧ numbers.length = 64 := by
  have filled : signature ≠ [] := by
    rintro rfl
    cases long
  refine ⟨_, _, (List.dropLast_concat_getLast filled).symm, ?_⟩
  rw [List.length_dropLast, long]
  rfl

theorem parityOfTag?_eq_none {tag : UInt8} :
    parityOfTag? tag = none ↔ tag ∉ [0, 1, 27, 28] := by
  grind [parityOfTag?]

/-- Numbers alone are never reported as another length or as a bad tag. -/
theorem recoverNumbers_error {odd : Bool} {fault : Fault}
    (refused : recoverNumbers numbers odd message = .error fault) :
    fault = .malformed ∨ fault = .unrecoverable := by
  unfold recoverNumbers at refused
  split at refused
  · split at refused
    · cases refused
    · cases refused
      exact .inr rfl
  · cases refused
    exact .inl rfl

theorem recoverAddress_eq_wrongLength {signature : Bytes} {found : Nat} :
    recoverAddress signature message = .error (.wrongLength found) ↔
      signature.length = found ∧ found ≠ size := by
  by_cases long : signature.length = size
  · refine iff_of_false ?_ fun known => known.2 (known.1 ▸ long)
    obtain ⟨numbers, tag, rfl, filled⟩ := exists_tagged long
    rw [recoverAddress_tagged filled]
    split
    · simp
    · intro refused
      rcases recoverNumbers_error refused with same | same <;> cases same
  · rw [recoverAddress, if_pos long, Except.error.injEq, Fault.wrongLength.injEq]
    exact ⟨fun same => ⟨same, same ▸ long⟩, And.left⟩

theorem recoverAddress_eq_badTag {signature : Bytes} {tag : UInt8} :
    recoverAddress signature message = .error (.badTag tag) ↔
      signature.length = size ∧ signature.getLast? = some tag ∧ tag ∉ [0, 1, 27, 28] := by
  by_cases long : signature.length = size
  · obtain ⟨numbers, last, rfl, filled⟩ := exists_tagged long
    rw [recoverAddress_tagged filled, List.getLast?_concat, ← parityOfTag?_eq_none]
    cases parity : parityOfTag? last with
    | none =>
      simp only [Except.error.injEq, Fault.badTag.injEq, Option.some.injEq]
      exact ⟨fun same => ⟨long, same, same ▸ parity⟩, fun known => known.2.1⟩
    | some odd =>
      refine iff_of_false (fun refused => ?_) ?_
      · rcases recoverNumbers_error refused with same | same <;> cases same
      · rintro ⟨-, same, none⟩
        rw [← Option.some.inj same, parity] at none
        cases none
  · rw [recoverAddress, if_pos long]
    exact iff_of_false (by simp) fun known => long known.1

/-- The tag of a point may be written in either form. -/
theorem recoverAddress_raised (long : numbers.length = 64) {bit : UInt8} (known : bit ∈ [0, 1]) :
    recoverAddress (numbers ++ [27 + bit]) message = recoverAddress (numbers ++ [bit]) message := by
  have same : parityOfTag? (27 + bit) = parityOfTag? bit ∧ parityOfTag? bit ≠ none := by
    simp only [List.mem_cons, List.not_mem_nil, or_false] at known
    rcases known with rfl | rfl <;> decide
  rw [recoverAddress_tagged long, recoverAddress_tagged long, same.1]
  cases parity : parityOfTag? bit with
  | none => exact absurd parity same.2
  | some odd => rfl

end

/-! ### Signing -/

/-- The signature with its last byte lowered, as a tag in the form that starts at zero. -/
def lowered (signature : Bytes) : Bytes :=
  signature.dropLast ++ signature.getLast?.toList.map (· - 27)

/-- The numbers of a signature as they are written. -/
def numbersOf (made : Curve.Signature) : Bytes :=
  Bytes.ofNat 32 made.r.val ++ Bytes.ofNat 32 made.s.val

theorem length_numbersOf (made : Curve.Signature) : (numbersOf made).length = 64 := by
  simp [numbersOf]

/-- A number is read back as it was written. -/
theorem scalar?_ofNat (number : Curve.Scalar) :
    scalar? (Bytes.ofNat 32 number.val) = some number := by
  have small : number.val < Curve.groupOrder := number.isLt
  have fits : Curve.groupOrder < 256 ^ 32 := by decide
  have read : Bytes.toNat (Bytes.ofNat 32 number.val) = number.val := by
    rw [Bytes.toNat_ofNat, Nat.mod_eq_of_lt (Nat.lt_trans small fits)]
  simp only [scalar?, read]
  rw [if_pos small]
  exact congrArg some (Fin.ext (Nat.mod_eq_of_lt small))

theorem recoverNumbers_numbersOf (made : Curve.Signature) (odd : Bool) (message : Bytes) :
    recoverNumbers (numbersOf made) odd message =
      match Curve.recover made.r made.s odd (textHash message) with
      | some key => .ok (addressOfKey key)
      | none => .error .unrecoverable := by
  have first : (numbersOf made).take 32 = Bytes.ofNat 32 made.r.val :=
    List.take_left' (Bytes.length_ofNat 32 _)
  have second : ((numbersOf made).drop 32).take 32 = Bytes.ofNat 32 made.s.val := by
    rw [numbersOf, List.drop_left' (Bytes.length_ofNat 32 _),
      List.take_of_length_le (Nat.le_of_eq (Bytes.length_ofNat 32 _))]
  rw [recoverNumbers, first, second, scalar?_ofNat, scalar?_ofNat]

/-- The tag for a parity, in the form that starts at zero. -/
def tagOf (odd : Bool) : UInt8 := UInt8.ofNat odd.toNat

theorem tagOf_mem (odd : Bool) : tagOf odd ∈ [0, 1] := by
  cases odd <;> decide

theorem parityOfTag?_tagOf (odd : Bool) : parityOfTag? (tagOf odd) = some odd := by
  cases odd <;> decide

theorem lowered_tagged (numbers : Bytes) (odd : Bool) :
    lowered (numbers ++ [27 + tagOf odd]) = numbers ++ [tagOf odd] := by
  have same : 27 + tagOf odd - 27 = tagOf odd := by cases odd <;> decide
  simp [lowered, same]

/-- A signature is written as its numbers and its tag, if the abscissa was not reduced. -/
theorem sign_eq {secret : Curve.Scalar} {message : Bytes} {made : Curve.Signature}
    (signs : Curve.sign secret (textHash message) = some made) (whole : made.reduced = false) :
    sign secret message = some (numbersOf made ++ [27 + tagOf made.odd]) := by
  have tag : UInt8.ofNat (27 + made.odd.toNat + 2 * made.reduced.toNat) = 27 + tagOf made.odd := by
    rw [whole]
    cases made.odd <;> decide
  rw [sign, signs, ← tag]
  rfl

section

variable {secret : Curve.Scalar} {message : Bytes}

/-- **What is signed leads back to the account of the key**, from the signature and from the lowered
signature. -/
theorem exists_signed (relied : Curve.Recovers secret (textHash message)) :
    ∃ signature account, sign secret message = some signature ∧
      addressOfSecret secret = .ok account ∧
      recoverAddress signature message = .ok account ∧
      recoverAddress (lowered signature) message = .ok account := by
  obtain ⟨key, known⟩ := relied.key
  obtain ⟨made, signs, whole⟩ := relied.signs
  have back : Curve.recover made.r made.s made.odd (textHash message) = some key :=
    (relied.recovers made signs).trans known
  have account : addressOfSecret secret = .ok (addressOfKey key) := by
    rw [addressOfSecret, known]
  have low : recoverAddress (numbersOf made ++ [tagOf made.odd]) message =
      .ok (addressOfKey key) := by
    rw [recoverAddress_tagged (length_numbersOf made), parityOfTag?_tagOf]
    simp only [recoverNumbers_numbersOf, back]
  refine ⟨_, _, sign_eq signs whole, account, ?_, ?_⟩
  · rw [recoverAddress_raised (length_numbersOf made) (tagOf_mem made.odd), low]
  · rw [lowered_tagged, low]

end

/-- What a signature of another account is refused with. -/
theorem verify_eq {signature : Bytes} {text : String} {account expected : Address}
    (recovered : recoverAddress signature (Bytes.ofText text) = .ok account) :
    verify signature text expected =
      if expected = account then .ok () else .error (.otherSigner account expected) := by
  rw [verify, recovered]
  simp only [eq_comm]

/-- **Signing and recovering fit together.** Where the curve can be relied on, what a key signs
leads back to its account, with the tag in either form, and the signature of a registration or a
login is accepted for this account only; another node is reported with both accounts. Of all other
byte strings, those of another length are reported first and then those with a bad tag, whatever the
numbers are, and both forms of a good tag count the same. -/
theorem sign_recover (message : Bytes) :
    (∀ secret, Curve.Recovers secret (textHash message) →
      ∃ signature account, sign secret message = some signature ∧
        addressOfSecret secret = .ok account ∧
        recoverAddress signature message = .ok account ∧
        recoverAddress (lowered signature) message = .ok account ∧
        (∀ email node, message = Bytes.ofText (registrationText email node) →
          verifyRegistration email node signature =
            if node = account then .ok () else .error (.otherSigner account node)) ∧
        ∀ nonce node, message = Bytes.ofText (loginText nonce node) →
          verifyLogin nonce node signature =
            if node = account then .ok () else .error (.otherSigner account node)) ∧
    (∀ signature found, recoverAddress signature message = .error (.wrongLength found) ↔
      signature.length = found ∧ found ≠ size) ∧
    (∀ signature tag, recoverAddress signature message = .error (.badTag tag) ↔
      signature.length = size ∧ signature.getLast? = some tag ∧ tag ∉ [0, 1, 27, 28]) ∧
    ∀ numbers bit, numbers.length = 64 → bit ∈ [0, 1] →
      recoverAddress (numbers ++ [27 + bit]) message =
        recoverAddress (numbers ++ [bit]) message := by
  refine ⟨fun secret relied => ?_, fun _ _ => recoverAddress_eq_wrongLength,
    fun _ _ => recoverAddress_eq_badTag, fun _ _ long known => recoverAddress_raised long known⟩
  obtain ⟨signature, account, signed, owner, recovered, again⟩ := exists_signed relied
  refine ⟨signature, account, signed, owner, recovered, again, ?_, ?_⟩
  · rintro email node rfl
    exact verify_eq recovered
  · rintro nonce node rfl
    exact verify_eq recovered

/-- The digest of the registration of the first account. -/
def firstDigest : Bytes :=
  [214, 85, 241, 44, 199, 236, 208, 142, 28, 128, 227, 43, 29, 178, 74, 92, 200, 112, 72, 238, 212,
    30, 74, 235, 204, 65, 11, 221, 70, 98, 32, 95]

/-- What the first account makes of the digest. -/
def firstMade : Curve.Signature where
  r := (scalarsOf firstRegistration).1
  s := (scalarsOf firstRegistration).2
  odd := true
  reduced := false

/-- What the second account makes of the digest. -/
def secondMade : Curve.Signature where
  r := Curve.residue 0x5b2e8bdf1c94056f0aa7106fab469349b973b22f5282ed1fb539480be1c3f207
  s := Curve.residue 0x76295bb7268b87d1d1df2060524b97c96c82e19664de3e5be7168cad131b9c1b
  odd := true
  reduced := false

theorem publicKey_accounts :
    Curve.publicKey (Curve.residue 1) = some generatorKey ∧
      Curve.publicKey (Curve.residue 2) = some doubledGenerator := by
  decide +kernel

theorem textHash_firstDigest :
    textHash (Bytes.ofText (registrationText "a" firstAccount)) = firstDigest := by
  simp only [registrationText, checksum_accounts, textHash, Keccak.digest_eq]
  decide +kernel

/-- Either key is recovered from what is made with it. -/
theorem recovers_firstDigest :
    Curve.Recovers (Curve.residue 1) firstDigest ∧
      Curve.Recovers (Curve.residue 2) firstDigest := by
  have derived : Curve.derivedNonce (Curve.residue 1) firstDigest =
        0xd5957157b2cb15e7fe3a86a65d3f7a18733988fd0a8f594fcafa7422068a3b77 ∧
      Curve.derivedNonce (Curve.residue 2) firstDigest =
        0x40c40e25c40e8b9b1e67581542c2f5a6d66d1b48e32fade7f17a334e587a8322 := by
    simp only [Curve.derivedNonce, Curve.NonceState.start, Curve.NonceState.mix, Sha256.keyed,
      Sha256.digest_eq]
    decide +kernel
  have back := recoveredKey_accounts.1.1
  rw [recoveredKey, textHash_firstDigest] at back
  exact ⟨Curve.recovers_of_nonce firstMade derived.1 (by decide) (by decide +kernel) rfl
      publicKey_accounts.1 back,
    Curve.recovers_of_nonce secondMade derived.2 (by decide) (by decide +kernel) rfl
      publicKey_accounts.2 (by decide +kernel)⟩

theorem addressOfSecret_accounts :
    addressOfSecret (Curve.residue 1) = .ok firstAccount ∧
      addressOfSecret (Curve.residue 2) = .ok secondAccount := by
  rw [addressOfSecret, addressOfSecret, publicKey_accounts.1, publicKey_accounts.2,
    ← addressOfKey_accounts.1, ← addressOfKey_accounts.2]
  exact ⟨rfl, rfl⟩

/-- The first account may sign its own registration, and the second account may not. -/
theorem sign_recover_bothKeys :
    Curve.Recovers (Curve.residue 1) firstDigest ∧ Curve.Recovers (Curve.residue 2) firstDigest ∧
    ∃ own foreign,
      sign (Curve.residue 1) (Bytes.ofText (registrationText "a" firstAccount)) = some own ∧
      verifyRegistration "a" firstAccount own = .ok () ∧
      sign (Curve.residue 2) (Bytes.ofText (registrationText "a" firstAccount)) = some foreign ∧
      verifyRegistration "a" firstAccount foreign =
        .error (.otherSigner secondAccount firstAccount) := by
  obtain ⟨first, second⟩ := recovers_firstDigest
  have signing := (sign_recover (Bytes.ofText (registrationText "a" firstAccount))).1
  rw [textHash_firstDigest] at signing
  obtain ⟨own, account, signed, owner, -, -, accepted, -⟩ := signing _ first
  obtain ⟨foreign, other, signed', owner', -, -, refused, -⟩ := signing _ second
  obtain rfl := Except.ok.inj (owner.symm.trans addressOfSecret_accounts.1)
  obtain rfl := Except.ok.inj (owner'.symm.trans addressOfSecret_accounts.2)
  refine ⟨first, second, own, foreign, signed, ?_, signed', ?_⟩
  · rw [accepted "a" firstAccount rfl, if_pos rfl]
  · rw [refused "a" firstAccount rfl, if_neg (by decide)]

end Signature

end StakingDirectory
