/-
**However an identifier is spelled.**

* `Hex.Respells` gives the digits of a text back in any case, behind either mark or bare. The texts
  that do so for the digits of an address are exactly those that are read as the address
  (`Address.ofHex_iff_respells`), from whichever digest its text takes the case of the letters;
* `Endpoint.serveRegistration_congr` and `Endpoint.serveLogin_congr`: a request is served by the
  address that its text is read as, so that what the node has to have signed does not hang on how it
  spelled its address.

`texts_canonical` puts these together, with the texts of validator keys and of bare bytes. The mark
is no danger to the bare text of bytes, since its letter is no digit (`Hex.unmarked_encode`).
-/

import StakingDirectory.Http.Endpoint
import StakingDirectory.Proofs.Outcome
import StakingDirectory.Proofs.Text.HexGrammar

namespace StakingDirectory

/-! ### Texts with the same digits -/

/-- The text has these digits, each in either case, behind a mark or bare. -/
def Hex.Respells (text digits : String) : Prop :=
  ∃ mark ∈ ["", "0x", "0X"], ∃ other : String,
    text = mark ++ other ∧ other.toLower = digits.toLower

/-- Digits that stand for bytes are respelled by every way to write the bytes. -/
theorem Hex.respells_iff_writes {text digits : String} {bytes : Bytes}
    (written : digits.toLower = encode bytes) : Respells text digits ↔ Writes text bytes := by
  rw [Respells, Writes, written]

/-- What is written bare has no mark, even if it begins with a zero. -/
theorem Hex.unmarked_encode (bytes : Bytes) : unmarked (encode bytes) = encode bytes := by
  rw [unmarked, encode, String.toList_ofList, dropMark_spelled (spelled_digits bytes)]

/-- **An address is read of the texts that respell its digits**, and of no others. -/
theorem Address.ofHex_iff_respells {digest : Bytes → Bytes} {address : Address} {text : String} :
    FixedBytes.ofHex text = .ok address ↔ Hex.Respells text (address.digitsBy digest) := by
  rw [FixedBytes.ofHex_eq_ok, Hex.respells_iff_writes]
  exact Hex.toLower_eq_encode.mpr (address.spelled_digitsBy digest)

/-! ### Requests -/

namespace Endpoint

variable {request other : Request} {text text' signature : String} {address : Address}

theorem readAddress_of_ofHex (field : String) (read : FixedBytes.ofHex text = .ok address) :
    readAddress field text = .ok address := by
  rw [readAddress, read]

/-- **A registration is served by the address** that its text is read as. -/
theorem serveRegistration_congr {email : String}
    (body : readBody RegistrationRequest.codec request = .ok ⟨email, text, signature⟩)
    (body' : readBody RegistrationRequest.codec other = .ok ⟨email, text', signature⟩)
    (read : FixedBytes.ofHex text = .ok address) (read' : FixedBytes.ofHex text' = .ok address) :
    serveRegistration request = serveRegistration other := by
  simp only [serveRegistration, body, body', ok_bind, readAddress_of_ofHex _ read,
    readAddress_of_ofHex _ read']

/-- **A login is served by the address** that its text is read as. -/
theorem serveLogin_congr {nonce : String} (headers : request.headers = other.headers)
    (body : readBody LoginRequest.codec request = .ok ⟨nonce, text, signature⟩)
    (body' : readBody LoginRequest.codec other = .ok ⟨nonce, text', signature⟩)
    (read : FixedBytes.ofHex text = .ok address) (read' : FixedBytes.ofHex text' = .ok address) :
    serveLogin request = serveLogin other := by
  simp only [serveLogin, headers, body, body', ok_bind, readAddress_of_ofHex _ read,
    readAddress_of_ofHex _ read']

end Endpoint

/-! ### The text forms -/

/-- **The digits of an address serve as its text in every spelling.** -/
structure Address.Canonical (digest : Bytes → Bytes) (address : Address) (digits : String) :
    Prop where
  marked : address.checksumBy digest = "0x" ++ digits
  length : digits.length = 40
  allDigits : ∀ char ∈ digits.toList, Hex.IsDigit char
  read : FixedBytes.ofHex (address.checksumBy digest) = .ok address
  /-- Exactly the spellings of the digits are read as the address. -/
  spellings : ∀ text, FixedBytes.ofHex text = .ok address ↔ Hex.Respells text digits
  /-- Every spelling is written again in one way. -/
  rewritten : ∀ text, Hex.Respells text digits →
    (FixedBytes.ofHex text).map (Address.checksumBy digest) = .ok (address.checksumBy digest)
  /-- What a node signs does not hang on the spelling. -/
  signed : ∀ text, Hex.Respells text digits → ∀ email nonce,
    (FixedBytes.ofHex text).map (Signature.registrationText email) =
        .ok (Signature.registrationText email address) ∧
      (FixedBytes.ofHex text).map (Signature.loginText nonce) =
        .ok (Signature.loginText nonce address)
  /-- Nor does the way in which a registration is served. -/
  registration : ∀ text text', Hex.Respells text digits → Hex.Respells text' digits →
    ∀ email signature request other,
      Endpoint.readBody RegistrationRequest.codec request = .ok ⟨email, text, signature⟩ →
      Endpoint.readBody RegistrationRequest.codec other = .ok ⟨email, text', signature⟩ →
      Endpoint.serveRegistration request = Endpoint.serveRegistration other
  /-- Nor the way in which a login is served. -/
  login : ∀ text text', Hex.Respells text digits → Hex.Respells text' digits →
    ∀ nonce signature request other, request.headers = other.headers →
      Endpoint.readBody LoginRequest.codec request = .ok ⟨nonce, text, signature⟩ →
      Endpoint.readBody LoginRequest.codec other = .ok ⟨nonce, text', signature⟩ →
      Endpoint.serveLogin request = Endpoint.serveLogin other

theorem Address.canonical_digitsBy (digest : Bytes → Bytes) (address : Address) :
    Canonical digest address (address.digitsBy digest) := by
  have reads : ∀ {text}, Hex.Respells text (address.digitsBy digest) →
      FixedBytes.ofHex text = .ok address := ofHex_iff_respells.mpr
  refine ⟨rfl, address.length_digitsBy digest, ?allDigits, address.ofHex_checksumBy digest,
    fun text => ofHex_iff_respells, ?rewritten, ?signed, ?registration, ?login⟩
  case allDigits => exact (Hex.spelled_iff_pairValues.mp (address.spelled_digitsBy digest)).1
  case rewritten =>
    intro text respells
    rw [reads respells]
    rfl
  case signed =>
    intro text respells email nonce
    rw [reads respells]
    exact ⟨rfl, rfl⟩
  case registration =>
    intro text text' respells respells' email signature request other body body'
    exact Endpoint.serveRegistration_congr body body' (reads respells) (reads respells')
  case login =>
    intro text text' respells respells' nonce signature request other headers body body'
    exact Endpoint.serveLogin_congr headers body body' (reads respells) (reads respells')

/-- **The text forms are canonical.** Whatever digest the case of the letters is taken from, an
address has forty digits behind the mark, which are read as the address in every spelling, so that
different addresses have different texts; the text of an address is the one by Keccak. Validator
keys and bytes of any number are read back from their texts too. -/
theorem texts_canonical (digest : Bytes → Bytes) :
    (∀ address : Address, ∃ digits, Address.Canonical digest address digits) ∧
    Function.Injective (Address.checksumBy digest) ∧
    Address.checksumBy Keccak.digest = Address.checksum ∧
    (∀ pubkey : Pubkey, FixedBytes.ofHex pubkey.text = .ok pubkey) ∧
    ∀ bytes : Bytes, Hex.unmarked (Hex.encode bytes) = Hex.encode bytes ∧
      Hex.decode (Hex.encode bytes) = .ok bytes :=
  ⟨fun address => ⟨_, address.canonical_digitsBy digest⟩, Address.checksumBy_injective digest,
    funext Address.checksumBy_keccak, Pubkey.ofHex_text,
    fun bytes => ⟨Hex.unmarked_encode bytes, Hex.decode_encode bytes⟩⟩

/-- A request to be registered under an address in some spelling. -/
def spelledPost (text : String) : Request where
  method := "POST"
  path := "/api/node-address"
  query := ""
  body := Bytes.ofText ("[\"a\",\"" ++ text ++ "\",\"\"]")

/-- The digits of an address in small letters. -/
def smallSpelling : String := "abababababababababababababababababababab"

/-- The same digits in capital letters, behind a mark. -/
def capitalSpelling : String := "0XABABABABABABABABABABABABABABABABABABABAB"

/-- Two requests that spell one address in two ways are served alike. -/
theorem texts_canonical_twoSpellings :
    ∃ address : Address, FixedBytes.ofHex smallSpelling = .ok address ∧
      FixedBytes.ofHex capitalSpelling = .ok address ∧
      Endpoint.serveRegistration (spelledPost smallSpelling) =
        Endpoint.serveRegistration (spelledPost capitalSpelling) := by
  obtain ⟨forms, -⟩ := texts_canonical Keccak.digest
  let address : Address := ⟨List.replicate 20 0xab, rfl⟩
  obtain ⟨digits, canonical⟩ := forms address
  have small : FixedBytes.ofHex smallSpelling = .ok address := by decide
  have capital : FixedBytes.ofHex capitalSpelling = .ok address := by decide
  refine ⟨address, small, capital, ?_⟩
  exact canonical.registration _ _ ((canonical.spellings _).mp small)
    ((canonical.spellings _).mp capital) "a" "" _ _ (by decide +kernel) (by decide +kernel)

end StakingDirectory
