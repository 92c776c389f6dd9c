/-
**What requests and answers carry.**

The bodies of the two requests that a node signs, and the data of the answers that have any.
-/

import StakingDirectory.Record.Deposit
import StakingDirectory.Record.Exit
import StakingDirectory.Record.Status

namespace StakingDirectory

open Json

/-! ### Requests -/

/-- Asks for a node to be registered under an account. -/
structure RegistrationRequest where
  email : String
  node : String
  signature : String
deriving DecidableEq

/-- The JSON form of a registration request. -/
def RegistrationRequest.codec : Codec RegistrationRequest :=
  (Fields.field "email" Codec.text .required <|
    Fields.field "node_address" Codec.text .required <|
    Fields.field "signature" Codec.text .required Fields.done).record.map
    (fun (email, node, signature, ()) => ⟨email, node, signature⟩)
    (fun request => (request.email, request.node, request.signature, ()))

/-- Asks for a session to be logged in. -/
structure LoginRequest where
  nonce : String
  address : String
  signature : String
deriving DecidableEq

/-- The JSON form of a login request. -/
def LoginRequest.codec : Codec LoginRequest :=
  (Fields.field "nonce" Codec.text .required <|
    Fields.field "address" Codec.text .required <|
    Fields.field "signature" Codec.text .required Fields.done).record.map
    (fun (nonce, address, signature, ()) => ⟨nonce, address, signature⟩)
    (fun request => (request.nonce, request.address, request.signature, ()))

/-! ### Answers -/

/-- A fresh session. -/
structure NonceGrant where
  nonce : String
  token : String
deriving DecidableEq

/-- The JSON form of a fresh session. -/
def NonceGrant.codec : Codec NonceGrant :=
  (Fields.field "nonce" Codec.text .required <|
    Fields.field "token" Codec.text .required Fields.done).record.map
    (fun (nonce, token, ()) => ⟨nonce, token⟩)
    (fun grant => (grant.nonce, grant.token, ()))

/-- The token of a session that was logged in. -/
structure TokenGrant where
  token : String
deriving DecidableEq

/-- The JSON form of a granted token. -/
def TokenGrant.codec : Codec TokenGrant :=
  (Fields.field "token" Codec.text .required Fields.done).record.map
    (fun (token, ()) => ⟨token⟩)
    (fun grant => (grant.token, ()))

/-- The version of a vault's published set. -/
structure SetVersion where
  version : UInt64
deriving DecidableEq

/-- The JSON form of a version. -/
def SetVersion.codec : Codec SetVersion :=
  (Fields.field "version" Codec.amount .required Fields.done).record.map
    (fun (version, ()) => ⟨version⟩)
    (fun answer => (answer.version, ()))

/-- A vault's published set with its version. -/
structure PublishedSet where
  version : UInt64
  deposits : List Deposit
deriving DecidableEq

/-- The JSON form of a published set. -/
def PublishedSet.codec : Codec PublishedSet :=
  (Fields.field "version" Codec.amount .required <|
    Fields.field "depositData" Deposit.codec.list .required Fields.done).record.map
    (fun (version, deposits, ()) => ⟨version, deposits⟩)
    (fun answer => (answer.version, answer.deposits, ()))

/-- What a node is told about its validators on a network. -/
structure StatusList where
  validators : List StatusRow
deriving DecidableEq

/-- The JSON form of a status list. -/
def StatusList.codec : Codec StatusList :=
  (Fields.field "validators" StatusRow.codec.list .required Fields.done).record.map
    (fun (validators, ()) => ⟨validators⟩)
    (fun answer => (answer.validators, ()))

end StakingDirectory
