/-
**Validator keys.**

A validator is known by a public key of 48 bytes, which is not interpreted any further. Its text is
the mark `0x` and ninety-six lower-case digits.
-/

import StakingDirectory.FixedBytes

namespace StakingDirectory

/-- The public key of a validator: 48 bytes. -/
abbrev Pubkey := FixedBytes 48

namespace Pubkey

instance : Std.TransOrd Pubkey := inferInstance

instance : Std.LawfulEqOrd Pubkey := inferInstance

/-- The text of a key. -/
def text (pubkey : Pubkey) : String :=
  Hex.marked pubkey.bytes

instance : ToString Pubkey := ⟨text⟩

end Pubkey

end StakingDirectory
