/-
**What goes over the wire comes back.**

Every value that a request or an answer carries is decoded from the text, and from the bytes, that
are written for it (`Record.decode_written`). A record is read back because its fields are
(`Fields.readsBack_record`), so each form below asks for two things only: that the names of its
fields differ, and that a field that is left out stands for what was left out. An identifier is read
back from its own text (`Hex.decode_encode`, `Pubkey.ofHex_text`, `Address.ofHex_checksum`).
-/

import StakingDirectory.Record.Envelope
import StakingDirectory.Record.Message
import StakingDirectory.Proofs.Json.Codec
import StakingDirectory.Proofs.Text.Hex

namespace StakingDirectory

open Json

/-! ### Identifiers and statuses -/

theorem Json.Codec.readsBack_bytes : Codec.bytes.ReadsBack :=
  Codec.readsBack_spelled Hex.decode_encode

theorem Address.readsBack_codec : Address.codec.ReadsBack :=
  Codec.readsBack_spelled Address.ofHex_checksum

theorem Pubkey.readsBack_codec : Pubkey.codec.ReadsBack :=
  Codec.readsBack_spelled Pubkey.ofHex_text

theorem Status.readsBack_codec : Status.codec.ReadsBack :=
  Codec.readsBack_name Status.ofName?_name

/-! ### Records -/

section Records

open Codec Presence Fields

theorem Deposit.readsBack_codec : Deposit.codec.ReadsBack := by
  refine ReadsBack.map (readsBack_record (by decide) ?_) fun _ => rfl
  exact .required readsBack_bytes <| .required readsBack_bytes <| .required readsBack_amount <|
    .required readsBack_bytes <| .required readsBack_bytes <| .required readsBack_bytes <|
    .required readsBack_bytes <| .required readsBack_text trivial

theorem ExitWish.readsBack_codec : ExitWish.codec.ReadsBack := by
  refine ReadsBack.map (readsBack_record (by decide) ?_) fun _ => rfl
  exact .required readsBack_text <| .required readsBack_text trivial

theorem SignedExit.readsBack_codec : SignedExit.codec.ReadsBack := by
  refine ReadsBack.map (readsBack_record (by decide) ?_) fun _ => rfl
  exact .required ExitWish.readsBack_codec <| .required readsBack_text trivial

theorem ExitEntry.readsBack_codec : ExitEntry.codec.ReadsBack := by
  refine ReadsBack.map (readsBack_record (by decide) ?_) fun _ => rfl
  exact .required readsBack_text <| .required SignedExit.readsBack_codec trivial

theorem RegistrationRequest.readsBack_codec : RegistrationRequest.codec.ReadsBack := by
  refine ReadsBack.map (readsBack_record (by decide) ?_) fun _ => rfl
  exact .required readsBack_text <| .required readsBack_text <| .required readsBack_text trivial

theorem LoginRequest.readsBack_codec : LoginRequest.codec.ReadsBack := by
  refine ReadsBack.map (readsBack_record (by decide) ?_) fun _ => rfl
  exact .required readsBack_text <| .required readsBack_text <| .required readsBack_text trivial

theorem NonceGrant.readsBack_codec : NonceGrant.codec.ReadsBack := by
  refine ReadsBack.map (readsBack_record (by decide) ?_) fun _ => rfl
  exact .required readsBack_text <| .required readsBack_text trivial

theorem TokenGrant.readsBack_codec : TokenGrant.codec.ReadsBack := by
  refine ReadsBack.map (readsBack_record (by decide) ?_) fun _ => rfl
  exact .required readsBack_text trivial

theorem SetVersion.readsBack_codec : SetVersion.codec.ReadsBack := by
  refine ReadsBack.map (readsBack_record (by decide) ?_) fun _ => rfl
  exact .required readsBack_amount trivial

theorem PublishedSet.readsBack_codec : PublishedSet.codec.ReadsBack := by
  refine ReadsBack.map (readsBack_record (by decide) ?_) fun _ => rfl
  exact .required readsBack_amount <| .required Deposit.readsBack_codec.list trivial

theorem StatusRow.readsBack_codec : StatusRow.codec.ReadsBack := by
  refine ReadsBack.map (readsBack_record (by decide) ?_) fun _ => rfl
  exact .required Pubkey.readsBack_codec <| .required Status.readsBack_codec <|
    .required readsBack_flag trivial

theorem StatusList.readsBack_codec : StatusList.codec.ReadsBack := by
  refine ReadsBack.map (readsBack_record (by decide) ?_) fun _ => rfl
  exact .required StatusRow.readsBack_codec.list trivial

/-- The data of an envelope must not look like data that is absent. -/
theorem Envelope.readsBack_codec {α : Type} {data : Codec α} (back : data.ReadsBack)
    (apart : ∀ value, (data.write value).chars.head? ≠ some 'n') :
    (Envelope.codec data).ReadsBack := by
  refine ReadsBack.map (readsBack_record (by simp [names]) ?_) fun _ => rfl
  exact .required readsBack_flag ⟨readsBack_text, faithful_defaultTo "", back.optional apart,
    faithful_optional, readsBack_text, faithful_defaultTo "", trivial⟩

end Records

/-! ### From the wire -/

/-- Every value is decoded from the text that is written for it, and from the bytes of that text. -/
def Json.Codec.RoundTrips {α : Type} (codec : Codec α) : Prop :=
  ∀ value, codec.decode (Utf8.scanText (codec.encode value)) = .ok value ∧
    codec.decode (Utf8.scan (Bytes.ofText (codec.encode value))) = .ok value

theorem Json.Codec.ReadsBack.roundTrips {α : Type} {codec : Codec α} (back : codec.ReadsBack) :
    codec.RoundTrips := by
  intro value
  rw [Utf8.scan_ofText]
  exact ⟨back.decode value, back.decode value⟩

/-- **What is written for a value is decoded as that value**: for identifiers, for bytes, for the
bodies of all requests and for the data of all answers. -/
theorem Record.decode_written :
    Address.codec.RoundTrips ∧ Pubkey.codec.RoundTrips ∧ Codec.bytes.RoundTrips ∧
    Deposit.codec.RoundTrips ∧ Deposit.codec.list.RoundTrips ∧
    SignedExit.codec.RoundTrips ∧ ExitEntry.codec.RoundTrips ∧ ExitEntry.codec.list.RoundTrips ∧
    RegistrationRequest.codec.RoundTrips ∧ LoginRequest.codec.RoundTrips ∧
    NonceGrant.codec.RoundTrips ∧ SetVersion.codec.RoundTrips ∧ PublishedSet.codec.RoundTrips ∧
    StatusList.codec.RoundTrips ∧ (Envelope.codec TokenGrant.codec).RoundTrips := by
  have token : ∀ grant, (TokenGrant.codec.write grant).chars.head? ≠ some 'n' :=
    fun _ same => absurd (Option.some.inj same) (by decide)
  exact ⟨Address.readsBack_codec.roundTrips, Pubkey.readsBack_codec.roundTrips,
    Codec.readsBack_bytes.roundTrips, Deposit.readsBack_codec.roundTrips,
    Deposit.readsBack_codec.list.roundTrips, SignedExit.readsBack_codec.roundTrips,
    ExitEntry.readsBack_codec.roundTrips, ExitEntry.readsBack_codec.list.roundTrips,
    RegistrationRequest.readsBack_codec.roundTrips, LoginRequest.readsBack_codec.roundTrips,
    NonceGrant.readsBack_codec.roundTrips, SetVersion.readsBack_codec.roundTrips,
    PublishedSet.readsBack_codec.roundTrips, StatusList.readsBack_codec.roundTrips,
    (Envelope.readsBack_codec TokenGrant.readsBack_codec token).roundTrips⟩

end StakingDirectory
