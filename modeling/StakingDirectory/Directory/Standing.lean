/-
**How far validators have come.**

* `findValidator` finds a validator among all registered nodes, in the order in which deposits are
  chosen;
* `status` tells how far it has come: it is acknowledged once its own vault has it, and active once
  it is marked so;
* `statuses` tells this of all validators of a node.
-/

import StakingDirectory.Directory.Basic
import StakingDirectory.Record.Status

namespace StakingDirectory.Directory

/-- The first validator with this key on the network among all registered nodes. -/
def findValidator (directory : Directory) (network : String) (pubkey : Pubkey) :
    Option Validator :=
  (directory.registeredAddresses.filterMap directory.node?).findSome? fun node =>
    node.validator? network pubkey

/-- Whether the vault of a validator has its deposit. -/
def isAcknowledged (directory : Directory) (network : String) (validator : Validator)
    (pubkey : Pubkey) : Bool :=
  (directory.vault? validator.vault network).any fun vault => vault.uploaded.contains pubkey

/-- How far the validator with this key has come on the network. -/
def status (directory : Directory) (network : String) (pubkey : Pubkey) : Status :=
  match directory.findValidator network pubkey with
  | none => .unknown
  | some validator =>
    let acknowledged := directory.isAcknowledged network validator pubkey
    if acknowledged && validator.active then .registered
    else if acknowledged || validator.used then .uploaded
    else .pending

/-- How far each validator of a registered node has come on the network. -/
def statuses (directory : Directory) (address : Address) (network : String) :
    Except Refusal (List StatusRow) := do
  let node ← directory.registeredNode address
  return ((node.validators[network]?).getD []).map fun validator =>
    { pubkey := validator.pubkey
      status := directory.status network validator.pubkey
      exitUploaded := validator.exitUploaded }

end StakingDirectory.Directory
