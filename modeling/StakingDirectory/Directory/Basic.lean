/-
**The directory.**

The directory knows users, the nodes they own, the validators that nodes handed in, and the vaults
that deposits are meant for:

* users stand in the order they came in, and are found by email through `userIndex`;
* a user lists the nodes that are whitelisted and those that are registered, the latter in the order
  of registration;
* a node is found by address; it names its owner and holds, by network, its validators in the order
  they were handed in;
* vaults are found by network and address.
-/

import StakingDirectory.Operation
import StakingDirectory.Record.Deposit
import StakingDirectory.Record.Exit

namespace StakingDirectory

/-! ### What the directory knows -/

/-- A user and the nodes they own. -/
structure User where
  email : String
  /-- How many users came in before. -/
  index : Nat
  whitelisted : List Address := []
  /-- In the order of registration. -/
  registered : List Address := []
deriving DecidableEq

/-- A validator that a node handed in. -/
structure Validator where
  pubkey : Pubkey
  /-- The vault that its deposit was meant for when it was handed in. -/
  vault : Address
  deposit : Deposit
  exit : Option SignedExit := none
  /-- Whether its deposit was published in a set. -/
  used : Bool := false
  exitUploaded : Bool := false
  /-- Whether it is active on its network. -/
  active : Bool := false
deriving DecidableEq

/-- A node, its owner and its validators. -/
structure Node where
  address : Address
  /-- The email of the owner. -/
  owner : String
  registered : Bool := false
  /-- By network, in the order they were handed in. -/
  validators : Std.ExtTreeMap String (List Validator) := ∅
deriving DecidableEq

/-- A vault on a network. -/
structure Vault where
  address : Address
  network : String
  /-- The validators whose deposits were handed to the vault. -/
  uploaded : Std.ExtTreeSet Pubkey := ∅
  /-- How many sets were published. -/
  latestIndex : UInt64 := 0
  /-- The set that was published last. -/
  latestSet : List Deposit := []
deriving DecidableEq

/-- Users, nodes, validators and vaults. -/
structure Directory where
  users : List User := []
  userIndex : Std.ExtTreeMap String Nat := ∅
  nodes : Std.ExtTreeMap Address Node := ∅
  vaults : Std.ExtTreeMap String (Std.ExtTreeMap Address Vault) := ∅
deriving DecidableEq

/-! ### Looking up -/

/-- The validator with this key that the node has on the network. -/
def Node.validator? (node : Node) (network : String) (pubkey : Pubkey) : Option Validator := do
  (← node.validators[network]?).find? fun validator => validator.pubkey = pubkey

/-- Whether the node has a validator with this key on the network. -/
def Node.hasValidator (node : Node) (network : String) (pubkey : Pubkey) : Bool :=
  (node.validator? network pubkey).isSome

namespace Directory

/-- The user with this email. -/
def user? (directory : Directory) (email : String) : Option User := do
  directory.users[← directory.userIndex[email]?]?

/-- The place of the user with this email. -/
def userPosition (directory : Directory) (email : String) : Except Refusal Nat :=
  match directory.userIndex[email]? with
  | some position => .ok position
  | none => .error (.noSuchUser email)

/-- The node at an address. -/
def node? (directory : Directory) (address : Address) : Option Node :=
  directory.nodes[address]?

/-- Whether the node at an address is registered. -/
def isRegistered (directory : Directory) (address : Address) : Bool :=
  (directory.node? address).any Node.registered

/-- The registered node at an address. -/
def registeredNode (directory : Directory) (address : Address) : Except Refusal Node :=
  match directory.node? address with
  | some node => if node.registered then .ok node else .error (.unknownNode address)
  | none => .error (.unknownNode address)

/-- The addresses of all registered nodes, by user and then in the order of registration. -/
def registeredAddresses (directory : Directory) : List Address :=
  directory.users.flatMap User.registered

/-- The vault at an address on a network. -/
def vault? (directory : Directory) (address : Address) (network : String) : Option Vault := do
  (← directory.vaults[network]?)[address]?

/-- The vault at an address on a network, which has to exist. -/
def requireVault (directory : Directory) (address : Address) (network : String) :
    Except Refusal Vault :=
  match directory.vault? address network with
  | some vault => .ok vault
  | none => .error (.unknownVault address network)

end Directory

end StakingDirectory
