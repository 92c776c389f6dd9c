/-
**What each operation of the directory does.**

Every operation looks at the directory first and changes it only then. For each one there is the
change as a function of directories, and the outcome of the operation as that change behind its
check (`Operation.settled`):

* `outcome_addUser`, `outcome_whitelistNode`, `outcome_registerNode`, `outcome_addVault`;
* `outcome_uploadDeposits`, `outcome_uploadExits`;
* `outcome_handToVault`, `outcome_publishSet`, `outcome_markActive`;
* `outcome_cycleSet`: what a cycle does in two parts stands behind one check as well, since the
  second part looks for nothing that the first one did not find.
-/

import StakingDirectory.Directory.Allotment
import StakingDirectory.Directory.Membership
import StakingDirectory.Proofs.Outcome

namespace StakingDirectory

/-- The vault with more keys handed to it. -/
def Vault.withUploaded (vault : Vault) (pubkeys : List Pubkey) : Vault :=
  { vault with uploaded := pubkeys.foldl Std.ExtTreeSet.insert vault.uploaded }

/-- The vault with another set published. -/
def Vault.withPublished (vault : Vault) (batch : List Deposit) : Vault :=
  { vault with latestSet := batch, latestIndex := vault.latestIndex + 1 }

namespace Directory

open Operation

/-! ### Users, nodes and vaults coming in -/

/-- The directory with one more user. -/
def withUser (directory : Directory) (email : String) : Directory :=
  { directory with
    users := directory.users ++ [{ email, index := directory.users.length }]
    userIndex := directory.userIndex.insert email directory.users.length }

theorem outcome_addUser (email : String) (directory : Directory) :
    (addUser email).outcome directory =
      settled
        (if directory.userIndex.contains email then .error (.alreadyExists (.user email))
          else .ok ())
        (fun _ => ((), directory.withUser email)) directory := by
  unfold addUser
  simp only [outcome_bind, outcome_get]
  split <;> rfl

/-- The directory in which the user at a place was given an address that was free. -/
def withWhitelisted (directory : Directory) (email : String) (address : Address) (position : Nat) :
    Directory :=
  { directory with
    nodes := directory.nodes.insert address { address, owner := email }
    users := directory.users.modify position fun user =>
      { user with whitelisted := user.whitelisted ++ [address] } }

/-- The place of a user who may be given an address, and whether the address is still free. -/
def checkWhitelisting (directory : Directory) (email : String) (address : Address) :
    Except Refusal (Nat × Bool) := do
  let position ← directory.userPosition email
  match directory.node? address with
  | some node => if node.owner ≠ email then throw (.nodeClaimed address) else return (position, false)
  | none => return (position, true)

theorem outcome_whitelistNode (email : String) (address : Address) (directory : Directory) :
    (whitelistNode email address).outcome directory =
      settled (directory.checkWhitelisting email address)
        (fun (position, free) =>
          ((), if free then directory.withWhitelisted email address position else directory))
        directory := by
  unfold whitelistNode checkWhitelisting
  simp only [outcome_bind, outcome_get, outcome_demand]
  cases directory.userPosition email with
  | error refusal => rfl
  | ok position =>
    cases directory.node? address with
    | none => rfl
    | some node =>
      by_cases owned : node.owner = email
      · simp only [ne_eq, owned, not_true_eq_false, if_false]
        rfl
      · simp only [ne_eq, owned, not_false_eq_true, if_true]
        rfl

/-- The directory in which a node was moved to the registered ones of the user at a place. -/
def withRegistered (directory : Directory) (address : Address) (position : Nat) : Directory :=
  { directory with
    nodes := directory.nodes.modify address fun node => { node with registered := true }
    users := directory.users.modify position fun user =>
      { user with
        whitelisted := user.whitelisted.filter fun other => other ≠ address
        registered := user.registered ++ [address] } }

theorem outcome_registerNode (email : String) (address : Address) (directory : Directory) :
    (registerNode email address).outcome directory =
      settled (directory.checkRegistration email address)
        (fun position => ((), directory.withRegistered address position)) directory := by
  unfold registerNode
  simp only [outcome_bind, outcome_get, outcome_demand, outcome_set]
  cases directory.checkRegistration email address <;> rfl

/-- The directory with one more vault. -/
def withNewVault (directory : Directory) (address : Address) (network : String) : Directory :=
  { directory with
    vaults := directory.vaults.insert network
      (((directory.vaults[network]?).getD ∅).insert address { address, network }) }

theorem outcome_addVault (address : Address) (network : String) (directory : Directory) :
    (addVault address network).outcome directory =
      settled
        (if ((directory.vaults[network]?).getD ∅).contains address then
            .error (.alreadyExists (.vault address network))
          else .ok ())
        (fun _ => ((), directory.withNewVault address network)) directory := by
  unfold addVault
  simp only [outcome_bind, outcome_get]
  split <;> rfl

/-! ### Uploads -/

/-- The directory with another node at an address. -/
def withNode (directory : Directory) (address : Address) (node : Node) : Directory :=
  { directory with nodes := directory.nodes.insert address node }

theorem node?_withNode (directory : Directory) (address : Address) (node : Node)
    (other : Address) :
    (directory.withNode address node).node? other =
      if address = other then some node else directory.node? other := by
  simp [node?, withNode, Std.ExtTreeMap.getElem?_insert]

/-- The node that hands in a batch, and the keys of the batch. -/
def checkDeposits (directory : Directory) (address : Address) (batch : List Deposit) :
    Except Refusal (Node × List Pubkey) := do
  let node ← directory.registeredNode address
  let pubkeys ← batch.mapM directory.checkDeposit
  return (node, pubkeys)

theorem outcome_uploadDeposits (address : Address) (batch : List Deposit) (directory : Directory) :
    (uploadDeposits address batch).outcome directory =
      settled (directory.checkDeposits address batch)
        (fun (node, pubkeys) =>
          ((node.acceptDeposits (pubkeys.zip batch)).2,
            directory.withNode address (node.acceptDeposits (pubkeys.zip batch)).1))
        directory := by
  unfold uploadDeposits checkDeposits
  simp only [outcome_bind, outcome_get, outcome_demand]
  cases directory.registeredNode address with
  | error refusal => rfl
  | ok node => cases batch.mapM directory.checkDeposit <;> rfl

/-- The node that hands in exits, and the keys that they are for. -/
def checkExits (directory : Directory) (address : Address) (network : String)
    (batch : List ExitEntry) : Except Refusal (Node × List Pubkey) := do
  let node ← directory.registeredNode address
  let pubkeys ← batch.mapM (node.checkExit network)
  return (node, pubkeys)

theorem outcome_uploadExits (address : Address) (network : String) (batch : List ExitEntry)
    (directory : Directory) :
    (uploadExits address network batch).outcome directory =
      settled (directory.checkExits address network batch)
        (fun (node, pubkeys) =>
          ((), directory.withNode address (node.attachExits network (pubkeys.zip batch))))
        directory := by
  unfold uploadExits checkExits
  simp only [outcome_bind, outcome_get, outcome_demand]
  cases directory.registeredNode address with
  | error refusal => rfl
  | ok node =>
    simp only [ok_bind]
    cases batch.mapM (node.checkExit network) <;> rfl

/-! ### Handing deposits over -/

/-- The directory with another vault in the place of one that is there. -/
def withVault (directory : Directory) (address : Address) (network : String) (vault : Vault) :
    Directory :=
  { directory with
    vaults := directory.vaults.modify network fun vaults => vaults.insert address vault }

theorem outcome_modifyVault (address : Address) (network : String) (change : Vault → Vault)
    (directory : Directory) :
    (modifyVault address network change).outcome directory =
      settled (directory.requireVault address network)
        (fun vault => (change vault, directory.withVault address network (change vault)))
        directory := by
  unfold modifyVault
  simp only [outcome_bind, outcome_get, outcome_demand]
  cases directory.requireVault address network <;> rfl

/-- The vault that a batch is handed to, and the keys of the batch, which are looked at first. -/
def checkHandOver (directory : Directory) (address : Address) (network : String)
    (batch : List Deposit) : Except Refusal (List Pubkey × Vault) := do
  let pubkeys ← requireKeys batch
  let vault ← directory.requireVault address network
  return (pubkeys, vault)

theorem outcome_handToVault (address : Address) (network : String) (batch : List Deposit)
    (directory : Directory) :
    (handToVault address network batch).outcome directory =
      settled (directory.checkHandOver address network batch)
        (fun (pubkeys, vault) =>
          ((), directory.withVault address network (vault.withUploaded pubkeys)))
        directory := by
  unfold handToVault checkHandOver
  simp only [outcome_bind, outcome_demand, outcome_modifyVault]
  cases requireKeys batch with
  | error refusal => rfl
  | ok pubkeys =>
    simp only [ok_bind]
    cases directory.requireVault address network <;> rfl

/-- The vault that a batch is published for or marked under, which is looked at first, and the keys
of the batch. -/
def checkBatch (directory : Directory) (address : Address) (network : String)
    (batch : List Deposit) : Except Refusal (Vault × List Pubkey) := do
  let vault ← directory.requireVault address network
  let pubkeys ← requireKeys batch
  return (vault, pubkeys)

/-- The directory in which the validators of a set are used. -/
def withUsed (directory : Directory) (network : String) (entries : List (Pubkey × Deposit)) :
    Directory :=
  entries.foldl
    (fun directory (pubkey, deposit) =>
      directory.modifyValidators network pubkey (markUsed deposit))
    directory

/-- The directory in which the validators with some keys are active. -/
def withActive (directory : Directory) (network : String) (pubkeys : List Pubkey) : Directory :=
  pubkeys.foldl
    (fun directory pubkey =>
      directory.modifyValidators network pubkey fun validator => { validator with active := true })
    directory

/-- Nothing but nodes changed. -/
structure OnlyNodes (before after : Directory) : Prop where
  users : after.users = before.users
  userIndex : after.userIndex = before.userIndex
  vaults : after.vaults = before.vaults

theorem OnlyNodes.refl (directory : Directory) : OnlyNodes directory directory := ⟨rfl, rfl, rfl⟩

theorem OnlyNodes.trans {first second third : Directory} (earlier : OnlyNodes first second)
    (later : OnlyNodes second third) : OnlyNodes first third :=
  ⟨later.users.trans earlier.users, later.userIndex.trans earlier.userIndex,
    later.vaults.trans earlier.vaults⟩

/-- Directories in which nothing but nodes differs from a third one, and no node differs, are the
same. -/
theorem eq_of_onlyNodes {directory first second : Directory} (one : OnlyNodes directory first)
    (other : OnlyNodes directory second)
    (nodes : ∀ address, first.node? address = second.node? address) : first = second := by
  obtain ⟨users, userIndex, firstNodes, vaults⟩ := first
  obtain ⟨users', userIndex', secondNodes, vaults'⟩ := second
  obtain rfl : users = users' := one.users.trans other.users.symm
  obtain rfl : userIndex = userIndex' := one.userIndex.trans other.userIndex.symm
  obtain rfl : vaults = vaults' := one.vaults.trans other.vaults.symm
  obtain rfl : firstNodes = secondNodes := Std.ExtTreeMap.ext_getElem? nodes
  rfl

/-- Nothing but one node changed. -/
structure OnlyNode (address : Address) (before after : Directory) : Prop
    extends OnlyNodes before after where
  others : ∀ other, other ≠ address → after.node? other = before.node? other

theorem onlyNode_withNode (directory : Directory) (address : Address) (node : Node) :
    OnlyNode address directory (directory.withNode address node) where
  toOnlyNodes := ⟨rfl, rfl, rfl⟩
  others other different := by
    rw [node?_withNode, if_neg (Ne.symm different)]

theorem onlyNodes_modifyValidators (directory : Directory) (network : String) (pubkey : Pubkey)
    (change : Validator → Validator) :
    OnlyNodes directory (directory.modifyValidators network pubkey change) := by
  unfold modifyValidators
  refine List.foldlRecOn _ _ (OnlyNodes.refl directory) fun between only address _ => ?_
  exact only.trans ⟨rfl, rfl, rfl⟩

theorem onlyNodes_withUsed (directory : Directory) (network : String)
    (entries : List (Pubkey × Deposit)) :
    OnlyNodes directory (directory.withUsed network entries) := by
  unfold withUsed
  refine List.foldlRecOn _ _ (OnlyNodes.refl directory) fun between only entry _ => ?_
  exact only.trans (onlyNodes_modifyValidators between network entry.1 _)

theorem onlyNodes_withActive (directory : Directory) (network : String) (pubkeys : List Pubkey) :
    OnlyNodes directory (directory.withActive network pubkeys) := by
  unfold withActive
  refine List.foldlRecOn _ _ (OnlyNodes.refl directory) fun between only pubkey _ => ?_
  exact only.trans (onlyNodes_modifyValidators between network pubkey _)

/-- A vault that was changed is found as it was left. -/
theorem requireVault_withVault {directory : Directory} {address : Address} {network : String}
    {before : Vault} (found : directory.requireVault address network = .ok before)
    (vault : Vault) :
    (directory.withVault address network vault).requireVault address network = .ok vault := by
  have there : ∃ vaults, directory.vaults[network]? = some vaults := by
    unfold requireVault vault? at found
    cases held : directory.vaults[network]? with
    | none =>
      rw [held] at found
      cases found
    | some vaults => exact ⟨vaults, rfl⟩
  obtain ⟨vaults, held⟩ := there
  have stored : (directory.withVault address network vault).vault? address network =
      some vault := by
    simp [vault?, withVault, held]
  unfold requireVault
  rw [stored]

/-- Vaults are looked up alike where they are the same. -/
theorem requireVault_congr {first second : Directory} (same : second.vaults = first.vaults)
    (address : Address) (network : String) :
    second.requireVault address network = first.requireVault address network := by
  unfold requireVault vault?
  rw [same]

/-- The directory in which a set is published for a vault. -/
def withPublished (directory : Directory) (address : Address) (network : String)
    (batch : List Deposit) (vault : Vault) (pubkeys : List Pubkey) : Directory :=
  (directory.withUsed network (pubkeys.zip batch)).withVault address network
    (vault.withPublished batch)

theorem outcome_publishSet (address : Address) (network : String) (batch : List Deposit)
    (directory : Directory) :
    (publishSet address network batch).outcome directory =
      settled (directory.checkBatch address network batch)
        (fun (vault, pubkeys) =>
          ((vault.withPublished batch).latestIndex,
            directory.withPublished address network batch vault pubkeys))
        directory := by
  unfold publishSet checkBatch
  simp only [outcome_bind, outcome_get, outcome_demand, outcome_modify, outcome_modifyVault]
  cases found : directory.requireVault address network with
  | error refusal => rfl
  | ok vault =>
    cases requireKeys batch with
    | error refusal => rfl
    | ok pubkeys =>
      -- The vault is looked up again after the validators were marked.
      have again : (directory.withUsed network (pubkeys.zip batch)).requireVault address network =
          .ok vault := by
        rw [requireVault_congr (onlyNodes_withUsed _ _ _).vaults, found]
      unfold withUsed at again
      simp only [again, settled_ok]
      rfl

theorem outcome_markActive (address : Address) (network : String) (batch : List Deposit)
    (directory : Directory) :
    (markActive address network batch).outcome directory =
      settled (directory.checkBatch address network batch)
        (fun (_, pubkeys) => ((), directory.withActive network pubkeys)) directory := by
  unfold markActive checkBatch
  simp only [outcome_bind, outcome_get, outcome_demand, outcome_modify]
  cases directory.requireVault address network with
  | error refusal => rfl
  | ok vault => cases requireKeys batch <;> rfl

/-- The directory in which a set was handed to a vault and published for it. -/
def withCycled (directory : Directory) (address : Address) (network : String)
    (batch : List Deposit) (vault : Vault) (pubkeys : List Pubkey) : Directory :=
  (directory.withVault address network (vault.withUploaded pubkeys)).withPublished address network
    batch (vault.withUploaded pubkeys) pubkeys

/-- **A cycle is refused before it hands anything over, or not at all.** -/
theorem outcome_cycleSet (address : Address) (network : String) (limit : Nat)
    (directory : Directory) :
    (cycleSet address network limit).outcome directory =
      settled (directory.checkBatch address network (directory.chooseSet network limit))
        (fun (vault, pubkeys) =>
          (((vault.withUploaded pubkeys).withPublished
              (directory.chooseSet network limit)).latestIndex,
            directory.withCycled address network (directory.chooseSet network limit) vault pubkeys))
        directory := by
  unfold cycleSet
  simp only [outcome_bind, outcome_get, outcome_demand, outcome_handToVault, outcome_publishSet]
  generalize directory.chooseSet network limit = batch
  cases found : directory.requireVault address network with
  | error refusal =>
    have refused : directory.checkBatch address network batch = .error refusal := by
      rw [checkBatch, found, error_bind]
    rw [refused, settled_error]
  | ok vault =>
    cases keys : requireKeys batch with
    | error refusal =>
      have refused : directory.checkBatch address network batch = .error refusal := by
        rw [checkBatch, found, keys, ok_bind, error_bind]
      have early : directory.checkHandOver address network batch = .error refusal := by
        rw [checkHandOver, keys, error_bind]
      simp only [refused, early, settled_error]
    | ok pubkeys =>
      have handed : directory.checkHandOver address network batch = .ok (pubkeys, vault) := by
        rw [checkHandOver, keys, found]
        rfl
      have passed : directory.checkBatch address network batch = .ok (vault, pubkeys) := by
        rw [checkBatch, found, keys]
        rfl
      -- The second look finds the vault that the first part left, and the keys once more.
      have again : (directory.withVault address network (vault.withUploaded pubkeys)).checkBatch
          address network batch = .ok (vault.withUploaded pubkeys, pubkeys) := by
        rw [checkBatch, requireVault_withVault found, keys]
        rfl
      simp only [handed, passed, again, settled_ok]
      rfl

end Directory

end StakingDirectory
