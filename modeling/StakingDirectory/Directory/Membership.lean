/-
**Users, nodes and vaults coming in.**

* `addUser` takes in a user with a new email;
* `whitelistNode` gives a free address to a user, and does nothing if the user owns it already;
* `registerNode` moves a node from the whitelisted to the registered ones of its owner;
* `addVault` takes in a vault that is new on its network.
-/

import StakingDirectory.Directory.Basic

namespace StakingDirectory.Directory

/-- Takes in a user. -/
def addUser (email : String) : Operation Directory Unit := do
  let directory ← get
  if directory.userIndex.contains email then throw (.alreadyExists (.user email))
  let user : User := { email, index := directory.users.length }
  set { directory with
    users := directory.users ++ [user]
    userIndex := directory.userIndex.insert email user.index }

/-- Gives an address to a user. -/
def whitelistNode (email : String) (address : Address) : Operation Directory Unit := do
  let directory ← get
  let position ← Operation.demand (directory.userPosition email)
  match directory.node? address with
  | some node => if node.owner ≠ email then throw (.nodeClaimed address)
  | none =>
    let node : Node := { address, owner := email }
    set { directory with
      nodes := directory.nodes.insert address node
      users := directory.users.modify position fun user =>
        { user with whitelisted := user.whitelisted ++ [address] } }

/-- Whether the user may register the node; the value is the place of the user. -/
def checkRegistration (directory : Directory) (email : String) (address : Address) :
    Except Refusal Nat := do
  let position ← directory.userPosition email
  match directory.node? address with
  | none => throw (.notWhitelisted address)
  | some node =>
    if node.registered then throw (.alreadyRegistered address)
    else if node.owner ≠ email then throw (.notWhitelisted address)
    else return position

/-- Moves a node from the whitelisted to the registered ones. -/
def registerNode (email : String) (address : Address) : Operation Directory Unit := do
  let directory ← get
  let position ← Operation.demand (directory.checkRegistration email address)
  set { directory with
    nodes := directory.nodes.modify address fun node => { node with registered := true }
    users := directory.users.modify position fun user =>
      { user with
        whitelisted := user.whitelisted.filter fun other => other ≠ address
        registered := user.registered ++ [address] } }

/-- Takes in a vault. -/
def addVault (address : Address) (network : String) : Operation Directory Unit := do
  let directory ← get
  let vaults := (directory.vaults[network]?).getD ∅
  if vaults.contains address then throw (.alreadyExists (.vault address network))
  let vault : Vault := { address, network }
  set { directory with
    vaults := directory.vaults.insert network (vaults.insert address vault) }

end StakingDirectory.Directory
