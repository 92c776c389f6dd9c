/-
**Signed texts are unambiguous.**

* `signedForm_injective`: the bytes that are digested for a message determine the message. They are
  a fixed head, the length of the message in digits and the message, so all of them together are
  longer for a longer message (`length_sizeDigits_mono`), and messages of one length stand behind the
  same digits;
* `Payload.text_injective`: the text that a node signs determines its kind, the email or nonce in it
  and the node. Nothing in the email or nonce is escaped, but what stands behind it has a fixed
  length (`Address.length_checksum`), and an address is determined by its checksum form;
* `Payload.signed_unambiguous` puts the two together: two payloads with one digest are the same,
  or the digest has a collision on them.
-/

import StakingDirectory.Proofs.Signature
import StakingDirectory.Proofs.Text.Hex
import StakingDirectory.Proofs.Text.Utf8

namespace StakingDirectory.Signature

/-! ### The signed form of a message -/

/-- The length of a message, as it is written in front of the message. -/
def sizeDigits (length : Nat) : Bytes :=
  Bytes.ofText (toString length)

theorem length_ofText_digits {digits : List Char} (all : ∀ digit ∈ digits, digit.isDigit = true) :
    (digits.flatMap String.utf8EncodeChar).length = digits.length := by
  induction digits with
  | nil => rfl
  | cons digit others ih =>
    have first := all digit List.mem_cons_self
    have small : digit.toNat < 128 :=
      Nat.lt_of_le_of_lt (Char.isDigit_iff_toNat.mp first).2 (by decide)
    rw [List.flatMap_cons, Utf8.encode_of_lt small, List.singleton_append, List.length_cons,
      ih fun other member => all other (List.mem_cons_of_mem _ member), List.length_cons]

theorem length_sizeDigits (length : Nat) :
    (sizeDigits length).length = (Nat.toDigits 10 length).length := by
  rw [sizeDigits, Bytes.ofText, Nat.toString_eq_ofList_toDigits, String.toList_ofList]
  exact length_ofText_digits fun digit => Nat.isDigit_of_mem_toDigits (by decide) (by decide)

theorem length_sizeDigits_mono {short long : Nat} (le : short ≤ long) :
    (sizeDigits short).length ≤ (sizeDigits long).length := by
  have positive : 0 < (Nat.toDigits 10 long).length :=
    List.length_pos_iff.mpr Nat.toDigits_ne_nil
  have below : long < 10 ^ (Nat.toDigits 10 long).length :=
    (Nat.length_toDigits_le_iff (by decide) positive).mp (Nat.le_refl _)
  rw [length_sizeDigits, length_sizeDigits]
  exact (Nat.length_toDigits_le_iff (by decide) positive).mpr (Nat.lt_of_le_of_lt le below)

/-- **The bytes that are digested for a message determine the message.** -/
theorem signedForm_injective : Function.Injective signedForm := by
  intro first second same
  unfold signedForm at same
  rw [List.append_assoc, List.append_assoc] at same
  have bodies : sizeDigits first.length ++ first = sizeDigits second.length ++ second :=
    List.append_cancel_left same
  have total := congrArg List.length bodies
  rw [List.length_append, List.length_append] at total
  have length : first.length = second.length := by
    rcases Nat.le_total first.length second.length with le | le
    · have mono := length_sizeDigits_mono le
      omega
    · have mono := length_sizeDigits_mono le
      omega
  rw [length] at bodies
  exact List.append_cancel_left bodies

/-! ### Payloads -/

/-- What a node signs. -/
inductive Payload where
  /-- To be registered under the account with this email. -/
  | registration (email : String) (node : Address)
  /-- To log in with this nonce. -/
  | login (nonce : String) (node : Address)
deriving DecidableEq

namespace Payload

/-- The text that is signed. -/
def text : Payload → String
  | .registration email node => registrationText email node
  | .login nonce node => loginText nonce node

/-- The bytes that are digested for the signature. -/
def signed (payload : Payload) : Bytes :=
  signedForm (Bytes.ofText payload.text)

/-- A text in front of an address and a fixed end is told from every other one. -/
theorem framed_inj {head middle last first second : String} {node other : Address}
    (same : head ++ first ++ middle ++ node.checksum ++ last =
      head ++ second ++ middle ++ other.checksum ++ last) : first = second ∧ node = other := by
  have chars := congrArg String.toList same
  simp only [String.toList_append] at chars
  have lengths : node.checksum.toList.length = other.checksum.toList.length := by
    rw [Address.length_checksum, Address.length_checksum]
  obtain ⟨fronts, checksums⟩ := List.append_inj' (List.append_cancel_right chars) lengths
  have texts := List.append_cancel_left (List.append_cancel_right fronts)
  exact ⟨String.toList_inj.mp texts, Address.checksum_injective (String.toList_inj.mp checksums)⟩

/-- The third character of a text tells the kinds apart. -/
theorem registrationText_ne_loginText (email nonce : String) (node other : Address) :
    registrationText email node ≠ loginText nonce other := by
  intro same
  have chars := congrArg (fun text => text.toList[2]?) same
  simp [registrationText, loginText] at chars

/-- **The text that a node signs determines what it signs.** -/
theorem text_injective : Function.Injective text := by
  intro first second same
  cases first with
  | registration email node =>
    cases second with
    | registration email' node' =>
      obtain ⟨rfl, rfl⟩ := framed_inj same
      rfl
    | login nonce node' => exact absurd same (registrationText_ne_loginText _ _ _ _)
  | login nonce node =>
    cases second with
    | registration email node' => exact absurd same.symm (registrationText_ne_loginText _ _ _ _)
    | login nonce' node' =>
      obtain ⟨rfl, rfl⟩ := framed_inj same
      rfl

/-- **What is digested determines what is signed.** -/
theorem signed_injective : Function.Injective signed :=
  fun _ _ same => text_injective (Utf8.ofText_injective (signedForm_injective same))

end Payload

/-! ### Digests -/

/-- Two byte strings with one digest. -/
def Collide (first second : Bytes) : Prop :=
  first ≠ second ∧ Keccak.digest first = Keccak.digest second

/-- The account that signed a digest. -/
def recoverFrom (signature digest : Bytes) : Except Fault Address :=
  if signature.length ≠ size then .error (.wrongLength signature.length)
  else
    let tag := signature.getD 64 0
    match parityOfTag? tag with
    | none => .error (.badTag tag)
    | some odd =>
      match scalar? (signature.take 32), scalar? ((signature.drop 32).take 32) with
      | some r, some s =>
        match Curve.recover r s odd digest with
        | some key => .ok (addressOfKey key)
        | none => .error .unrecoverable
      | _, _ => .error .malformed

theorem recoverAddress_eq (signature message : Bytes) :
    recoverAddress signature message = recoverFrom signature (textHash message) := rfl

namespace Payload

/-- The node that signs. -/
def node : Payload → Address
  | .registration _ node => node
  | .login _ node => node

/-- The digest that a signature is checked against. -/
def digest (payload : Payload) : Bytes :=
  textHash (Bytes.ofText payload.text)

/-- How a signature of the payload is checked. -/
def check : Payload → Bytes → Except Fault Unit
  | .registration email node, signature => verifyRegistration email node signature
  | .login nonce node, signature => verifyLogin nonce node signature

theorem check_eq_ok {payload : Payload} {signature : Bytes} :
    payload.check signature = .ok () ↔
      recoverFrom signature payload.digest = .ok payload.node := by
  cases payload with
  | registration email node =>
    rw [check, verifyRegistration, verify_eq_ok, recoverAddress_eq]
    rfl
  | login nonce node =>
    rw [check, verifyLogin, verify_eq_ok, recoverAddress_eq]
    rfl

/-- **A signature is accepted for what has the digest that it signs, and one digest belongs to one
payload only**, or the payloads are a collision. -/
theorem signed_unambiguous :
    Function.Injective signedForm ∧ Function.Injective signed ∧
    (∀ payload signature, check payload signature = .ok () ↔
      recoverFrom signature payload.digest = .ok payload.node) ∧
    ∀ first second : Payload, first.digest = second.digest →
      first = second ∨ Collide first.signed second.signed := by
  refine ⟨signedForm_injective, signed_injective, fun _ _ => check_eq_ok, ?_⟩
  intro first second same
  by_cases equal : first = second
  · exact .inl equal
  · exact .inr ⟨fun signs => equal (signed_injective signs), same⟩

end Payload

end StakingDirectory.Signature
