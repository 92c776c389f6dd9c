/-
**Signed exits.**

An exit is the signed wish of a validator to leave. The directory keeps it as it comes and reads
only the key it is handed in for.
-/

import StakingDirectory.Pubkey
import StakingDirectory.Json.Codec

namespace StakingDirectory

/-- The wish of a validator to leave: from when on, and which validator. -/
structure ExitWish where
  epoch : String
  validatorIndex : String
deriving DecidableEq

/-- A wish to leave with its signature. -/
structure SignedExit where
  wish : ExitWish
  signature : String
deriving DecidableEq

/-- A signed exit and the key, as text, that it is handed in for. -/
structure ExitEntry where
  pubkey : String
  exit : SignedExit
deriving DecidableEq

open Json in
/-- The JSON form of a wish to leave. -/
def ExitWish.codec : Codec ExitWish :=
  (Fields.field "epoch" Codec.text .required <|
    Fields.field "validator_index" Codec.text .required Fields.done).record.map
    (fun (epoch, validatorIndex, ()) => ⟨epoch, validatorIndex⟩)
    (fun wish => (wish.epoch, wish.validatorIndex, ()))

open Json in
/-- The JSON form of a signed exit. -/
def SignedExit.codec : Codec SignedExit :=
  (Fields.field "message" ExitWish.codec .required <|
    Fields.field "signature" Codec.text .required Fields.done).record.map
    (fun (wish, signature, ()) => ⟨wish, signature⟩)
    (fun exit => (exit.wish, exit.signature, ()))

open Json in
/-- The JSON form of an entry. -/
def ExitEntry.codec : Codec ExitEntry :=
  (Fields.field "pubkey" Codec.text .required <|
    Fields.field "exit_message" SignedExit.codec .required Fields.done).record.map
    (fun (pubkey, exit, ()) => ⟨pubkey, exit⟩)
    (fun entry => (entry.pubkey, entry.exit, ()))

/-- The key that the entry's text spells. -/
def ExitEntry.validatorKey (entry : ExitEntry) : Except Hex.Fault Pubkey :=
  FixedBytes.ofHex entry.pubkey

end StakingDirectory
