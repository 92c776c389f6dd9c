/-
**Deposit records.**

A deposit record is what a node hands in for one validator. The directory reads three things off it:
the key of the validator, the address its funds go back to, and the name of the network.
-/

import StakingDirectory.Address
import StakingDirectory.Pubkey
import StakingDirectory.Json.Codec

namespace StakingDirectory

/-- What a node hands in for one validator. -/
structure Deposit where
  pubkey : Bytes
  credentials : Bytes
  amount : UInt64
  signature : Bytes
  messageRoot : Bytes
  dataRoot : Bytes
  forkVersion : Bytes
  network : String
deriving DecidableEq

namespace Deposit

/-- The key of the validator, if its bytes are as many as a key has. -/
def validatorKey (deposit : Deposit) : Except Hex.Fault Pubkey :=
  FixedBytes.ofBytes deposit.pubkey

/-- The address that the funds go back to: the last bytes of the credentials. -/
def withdrawalAddress (deposit : Deposit) : Address :=
  FixedBytes.alignRight deposit.credentials

open Json in
/-- The fields of a record in order. -/
def fields :=
  Fields.field "pubkey" Codec.bytes .required <|
  Fields.field "withdrawal_credentials" Codec.bytes .required <|
  Fields.field "amount" Codec.amount .required <|
  Fields.field "signature" Codec.bytes .required <|
  Fields.field "deposit_message_root" Codec.bytes .required <|
  Fields.field "deposit_data_root" Codec.bytes .required <|
  Fields.field "fork_version" Codec.bytes .required <|
  Fields.field "network_name" Codec.text .required Fields.done

/-- The JSON form of a record. -/
def codec : Json.Codec Deposit :=
  fields.record.map
    (fun (pubkey, credentials, amount, signature, messageRoot, dataRoot, version, network, ()) =>
      ⟨pubkey, credentials, amount, signature, messageRoot, dataRoot, version, network⟩)
    (fun deposit =>
      (deposit.pubkey, deposit.credentials, deposit.amount, deposit.signature, deposit.messageRoot,
        deposit.dataRoot, deposit.forkVersion, deposit.network, ()))

end Deposit

end StakingDirectory
