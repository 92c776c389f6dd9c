/-
**Identifiers in JSON.**

Addresses and validator keys are strings in their own text form.
-/

import StakingDirectory.Address
import StakingDirectory.Pubkey
import StakingDirectory.Json.Codec

namespace StakingDirectory

/-- The JSON form of an address. -/
def Address.codec : Json.Codec Address :=
  Json.Codec.spelled FixedBytes.ofHex Address.checksum

/-- The JSON form of a validator key. -/
def Pubkey.codec : Json.Codec Pubkey :=
  Json.Codec.spelled FixedBytes.ofHex Pubkey.text

end StakingDirectory
