/-
**Handing deposits to vaults.**

* `chooseSet` chooses unused deposits of a network, at most so many of each user. Users come in
  their order, their nodes in the order of registration, and the validators of a node in the order
  they were handed in;
* `handToVault` notes that deposits were handed to a vault;
* `publishSet` marks the validators of a set as used, replaces their deposits by those of the set,
  and makes it the latest set of the vault;
* `markActive` marks validators as active;
* `cycleSet` does the first three in turn.
-/

import StakingDirectory.Directory.Upload

namespace StakingDirectory.Directory

/-! ### Choosing -/

/-- Takes unused deposits off validators until `limit` are taken, of which `taken` are before them,
and gives them with the number that is then taken. -/
def chooseFromNode (limit taken : Nat) : List Validator → List Deposit × Nat
  | [] => ([], taken)
  | validator :: rest =>
    if validator.used then chooseFromNode limit taken rest
    else if limit ≤ taken + 1 then ([validator.deposit], taken + 1)
    else
      let (deposits, taken) := chooseFromNode limit (taken + 1) rest
      (validator.deposit :: deposits, taken)

/-- Takes unused deposits off nodes until `limit` are taken, of which `taken` are before them. -/
def chooseFromNodes (directory : Directory) (network : String) (limit taken : Nat) :
    List Address → List Deposit
  | [] => []
  | address :: rest =>
    match (directory.node? address).bind fun node => node.validators[network]? with
    | none => directory.chooseFromNodes network limit taken rest
    | some validators =>
      let (deposits, taken) := chooseFromNode limit taken validators
      if limit ≤ taken then deposits
      else deposits ++ directory.chooseFromNodes network limit taken rest

/-- Chooses unused deposits of a network, at most `limit` of each user. -/
def chooseSet (directory : Directory) (network : String) (limit : Nat) : List Deposit :=
  if limit = 0 then []
  else directory.users.flatMap fun user =>
    directory.chooseFromNodes network limit 0 user.registered

/-! ### Changing vaults and validators -/

/-- Changes a vault that has to exist. -/
def modifyVault (address : Address) (network : String) (change : Vault → Vault) :
    Operation Directory Vault := do
  let directory ← get
  let vault ← Operation.demand (directory.requireVault address network)
  let vault := change vault
  set { directory with
    vaults := directory.vaults.modify network fun vaults => vaults.insert address vault }
  return vault

/-- Changes the validators of one node that have this key on the network. -/
def modifyNodeValidators (directory : Directory) (network : String) (pubkey : Pubkey)
    (change : Validator → Validator) (address : Address) : Directory :=
  { directory with
    nodes := directory.nodes.modify address fun node =>
      { node with
        validators := node.validators.modify network fun validators =>
          validators.map fun validator =>
            if validator.pubkey = pubkey then change validator else validator } }

/-- Changes the validators of all registered nodes that have this key on the network. -/
def modifyValidators (directory : Directory) (network : String) (pubkey : Pubkey)
    (change : Validator → Validator) : Directory :=
  directory.registeredAddresses.foldl
    (fun directory address => directory.modifyNodeValidators network pubkey change address)
    directory

/-! ### Hand-over -/

/-- The keys of a batch in their order. -/
def requireKeys (batch : List Deposit) : Except Refusal (List Pubkey) :=
  batch.mapM Deposit.requireKey

/-- Notes that the deposits were handed to the vault. -/
def handToVault (address : Address) (network : String) (batch : List Deposit) :
    Operation Directory Unit := do
  let pubkeys ← Operation.demand (requireKeys batch)
  let _ ← modifyVault address network fun vault =>
    { vault with uploaded := pubkeys.foldl Std.ExtTreeSet.insert vault.uploaded }

/-- Marks a validator as used with the deposit of the set it is published in. -/
def markUsed (deposit : Deposit) (validator : Validator) : Validator :=
  { validator with deposit, used := true }

/-- Publishes a set as the latest one of the vault, and gives its number. -/
def publishSet (address : Address) (network : String) (batch : List Deposit) :
    Operation Directory UInt64 := do
  let _ ← Operation.demand ((← get).requireVault address network)
  let pubkeys ← Operation.demand (requireKeys batch)
  modify fun directory =>
    (pubkeys.zip batch).foldl
      (fun directory (pubkey, deposit) =>
        directory.modifyValidators network pubkey (markUsed deposit))
      directory
  let vault ← modifyVault address network fun vault =>
    { vault with latestSet := batch, latestIndex := vault.latestIndex + 1 }
  return vault.latestIndex

/-- Marks the validators of a batch as active. -/
def markActive (address : Address) (network : String) (batch : List Deposit) :
    Operation Directory Unit := do
  let _ ← Operation.demand ((← get).requireVault address network)
  let pubkeys ← Operation.demand (requireKeys batch)
  modify fun directory =>
    pubkeys.foldl
      (fun directory pubkey =>
        directory.modifyValidators network pubkey fun validator =>
          { validator with active := true })
      directory

/-- Chooses a set, hands it to the vault and publishes it; gives its number. -/
def cycleSet (address : Address) (network : String) (limit : Nat) : Operation Directory UInt64 := do
  let directory ← get
  let _ ← Operation.demand (directory.requireVault address network)
  let batch := directory.chooseSet network limit
  handToVault address network batch
  publishSet address network batch

end StakingDirectory.Directory
