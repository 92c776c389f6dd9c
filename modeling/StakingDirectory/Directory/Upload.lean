/-
**What nodes hand in.**

A batch is looked at as a whole before anything is changed.

* `uploadDeposits` takes in those records of a batch whose validators the node does not have yet, in
  their order, and gives their number;
* `uploadExits` attaches signed exits to validators of the node; of several exits for a validator
  the last one stays.
-/

import StakingDirectory.Directory.Basic

namespace StakingDirectory

/-! ### Deposits -/

/-- The validator that a record is handed in for. -/
def Validator.ofDeposit (pubkey : Pubkey) (deposit : Deposit) : Validator :=
  { pubkey, vault := deposit.withdrawalAddress, deposit }

/-- The key of the validator of a record. -/
def Deposit.requireKey (deposit : Deposit) : Except Refusal Pubkey :=
  match deposit.validatorKey with
  | .ok pubkey => .ok pubkey
  | .error fault => .error (.invalidInput (.depositKey fault))

/-- Takes in a record for a validator, unless the node has the validator on that network. -/
def Node.acceptDeposit (node : Node) (pubkey : Pubkey) (deposit : Deposit) : Node × Nat :=
  if node.hasValidator deposit.network pubkey then (node, 0)
  else
    let before := (node.validators[deposit.network]?).getD []
    let after := before ++ [Validator.ofDeposit pubkey deposit]
    ({ node with validators := node.validators.insert deposit.network after }, 1)

/-- Takes in records in their order and counts the new ones. -/
def Node.acceptDeposits (node : Node) (entries : List (Pubkey × Deposit)) : Node × Nat :=
  entries.foldl
    (fun (node, added) (pubkey, deposit) =>
      let (node, new) := node.acceptDeposit pubkey deposit
      (node, added + new))
    (node, 0)

namespace Directory

/-- The key of a record that may be handed in: its vault has to exist. -/
def checkDeposit (directory : Directory) (deposit : Deposit) : Except Refusal Pubkey := do
  let pubkey ← deposit.requireKey
  let _ ← directory.requireVault deposit.withdrawalAddress deposit.network
  return pubkey

/-- Takes in the records of a batch. -/
def uploadDeposits (address : Address) (batch : List Deposit) : Operation Directory Nat := do
  let directory ← get
  let node ← Operation.demand (directory.registeredNode address)
  let pubkeys ← Operation.demand (batch.mapM directory.checkDeposit)
  let (node, added) := node.acceptDeposits (pubkeys.zip batch)
  set { directory with nodes := directory.nodes.insert address node }
  return added

end Directory

/-! ### Exits -/

/-- Changes the first item of a list that has a property. -/
def modifyFirst {α : Type} (has : α → Bool) (change : α → α) : List α → List α
  | [] => []
  | item :: rest => if has item then change item :: rest else item :: modifyFirst has change rest

/-- Attaches a signed exit. -/
def Validator.attachExit (exit : SignedExit) (validator : Validator) : Validator :=
  { validator with exit := some exit, exitUploaded := true }

/-- Attaches signed exits in their order. -/
def Node.attachExits (node : Node) (network : String) (entries : List (Pubkey × ExitEntry)) :
    Node :=
  { node with
    validators := node.validators.modify network fun validators =>
      entries.foldl
        (fun validators (pubkey, entry) =>
          modifyFirst (fun validator => validator.pubkey = pubkey) (·.attachExit entry.exit)
            validators)
        validators }

/-- The key that an exit is handed in for, of a validator that the node has. -/
def Node.checkExit (node : Node) (network : String) (entry : ExitEntry) :
    Except Refusal Pubkey :=
  match entry.validatorKey with
  | .error fault => .error (.invalidInput (.exitKey entry.pubkey fault))
  | .ok pubkey =>
    if node.hasValidator network pubkey then .ok pubkey else .error (.unknownValidator pubkey)

/-- Attaches the exits of a batch. -/
def Directory.uploadExits (address : Address) (network : String) (batch : List ExitEntry) :
    Operation Directory Unit := do
  let directory ← get
  let node ← Operation.demand (directory.registeredNode address)
  let pubkeys ← Operation.demand (batch.mapM (node.checkExit network))
  set { directory with
    nodes := directory.nodes.insert address (node.attachExits network (pubkeys.zip batch)) }

end StakingDirectory
