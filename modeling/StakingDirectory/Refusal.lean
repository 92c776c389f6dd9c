/-
**Why an operation is refused.**

Every operation of the directory either takes effect or is refused for one of these causes. A
refusal has a message for people, a key for programs and an HTTP status:

* 400 for bad input and for what is taken already;
* 401 for a caller who is not, or not properly, identified;
* 404 for what does not exist.
-/

import StakingDirectory.Json.Reader
import StakingDirectory.Pubkey
import StakingDirectory.Signature

namespace StakingDirectory

/-- What is wrong with an input. -/
inductive InputFault where
  /-- A deposit record has no proper validator key. -/
  | depositKey (fault : Hex.Fault)
  /-- An exit is handed in for a text that is no validator key. -/
  | exitKey (text : String) (fault : Hex.Fault)
  /-- The body of a request cannot be read. -/
  | body (fault : Json.Fault)
  /-- An argument of the query is missing or empty. -/
  | missingArgument (name : String)
  /-- A field that has to be an address is none. -/
  | address (field text : String) (fault : Hex.Fault)
  /-- A signature is not hexadecimal text. -/
  | signature
  /-- A limit is no number of 64 bits. -/
  | userLimit (text : String)
deriving DecidableEq

/-- The report of an input fault. -/
def InputFault.message : InputFault → String
  | .depositKey fault => s!"invalid deposit data pubkey: {fault.message}"
  | .exitKey text fault => s!"invalid validator pubkey [{text}]: {fault.message}"
  | .body fault => s!"error deserializing request body: {fault.message}"
  | .missingArgument name => s!"missing query arg: {name}"
  | .address field text fault => s!"invalid {field} [{text}]: {fault.message}"
  | .signature => "invalid signature"
  | .userLimit text => s!"invalid user-limit [{text}]"

/-- What is there already. -/
inductive Existing where
  | user (email : String)
  | vault (address : Address) (network : String)
deriving DecidableEq

/-- How it is named in a report. -/
def Existing.description : Existing → String
  | .user email => s!"user with email [{email}]"
  | .vault address network =>
    s!"stakewise vault with address [{address.checksum}] on network [{network}]"

/-- Why an operation is refused. -/
inductive Refusal where
  | invalidInput (fault : InputFault)
  | missingAuthHeader
  | invalidAuthHeader
  | invalidSignature (fault : Signature.Fault)
  | invalidSession
  | notLoggedIn
  | noSuchSession (nonce : String)
  | alreadyLoggedIn
  | unregisteredNode (address : Address)
  | notWhitelisted (address : Address)
  | alreadyRegistered (address : Address)
  | nodeClaimed (address : Address)
  | alreadyExists (existing : Existing)
  | noSuchUser (email : String)
  | unknownNode (address : Address)
  | unknownVault (address : Address) (network : String)
  | unknownValidator (pubkey : Pubkey)
  | noSuchSnapshot (name : String)
deriving DecidableEq

namespace Refusal

/-- The report of a refusal. -/
def message : Refusal → String
  | .invalidInput fault => s!"invalid input: {fault.message}"
  | .missingAuthHeader => "no Authorization header found"
  | .invalidAuthHeader => "invalid auth header"
  | .invalidSignature fault => s!"invalid signature: {fault.message}"
  | .invalidSession => "session token is invalid"
  | .notLoggedIn => "session is not logged in"
  | .noSuchSession nonce => s!"no session with nonce {nonce}"
  | .alreadyLoggedIn => "session is already logged in"
  | .unregisteredNode address => s!"no user found with authorized address {address.checksum}"
  | .notWhitelisted address => s!"node {address.checksum} is not whitelisted"
  | .alreadyRegistered address => s!"node {address.checksum} is already registered"
  | .nodeClaimed address => s!"node {address.checksum} belongs to another user"
  | .alreadyExists existing => s!"{existing.description} already exists"
  | .noSuchUser email => s!"user {email} does not exist"
  | .unknownNode address => s!"node {address.checksum} is not registered"
  | .unknownVault address network =>
    s!"vault {address.checksum} on network {network} does not exist"
  | .unknownValidator pubkey => s!"validator {pubkey.text} does not exist"
  | .noSuchSnapshot name => s!"snapshot with name [{name}] does not exist"

/-- The HTTP status of a refusal. -/
def status : Refusal → Nat
  | .invalidInput _ | .notWhitelisted _ | .alreadyRegistered _ | .nodeClaimed _ | .alreadyExists _
  | .alreadyLoggedIn => 400
  | .missingAuthHeader | .invalidAuthHeader | .invalidSignature _ | .invalidSession | .notLoggedIn
  | .unregisteredNode _ => 401
  | .noSuchSession _ | .noSuchUser _ | .unknownNode _ | .unknownVault _ _ | .unknownValidator _
  | .noSuchSnapshot _ => 404

/-- The key of a refusal. -/
def key : Refusal → String
  | .invalidInput _ => "invalid_input"
  | .missingAuthHeader => "missing_auth_header"
  | .invalidAuthHeader => "invalid_auth_header"
  | .invalidSignature _ => "invalid_signature"
  | .invalidSession | .notLoggedIn | .noSuchSession _ => "invalid_session"
  | .alreadyLoggedIn => "already_logged_in"
  | .unregisteredNode _ => "unregistered_address"
  | .notWhitelisted _ => "address_missing_whitelist"
  | .alreadyRegistered _ => "address_already_registered"
  | .nodeClaimed _ => "address_claimed"
  | .alreadyExists _ => "already_exists"
  | .noSuchUser _ => "unknown_user"
  | .unknownNode _ => "unknown_node"
  | .unknownVault _ _ => "unknown_vault"
  | .unknownValidator _ => "unknown_validator"
  | .noSuchSnapshot _ => "unknown_snapshot"

/-- No refusal looks like a success. -/
theorem status_ne_ok (refusal : Refusal) : refusal.status ≠ 200 := by
  cases refusal <;> simp [status]

end Refusal

end StakingDirectory
