/-
**The directories that can come about.**

* `Change` is what can be asked of a directory without more ado, `Action` that and the registration
  of a node; `built` carries out actions in turn on the empty directory, whether they succeed or
  are refused;
* `Makes` says once what an action that succeeds makes of a directory, and under which conditions. A
  refused one changes nothing, so that what holds of the directory and of whatever is made of it
  holds after the action (`after_cases`);
* `Step` is one step of this. Every action comes down to steps (`steps_after`), so that what holds
  of the empty directory and is kept by every step holds of all directories that can come about
  (`built_invariant`).
-/

import Mathlib.Logic.Relation
import StakingDirectory.Proofs.Directory.Check

namespace StakingDirectory.Directory

open Operation

/-! ### Actions -/

/-- What can be asked of a directory without a signature. -/
inductive Change where
  | addUser (email : String)
  | whitelistNode (email : String) (address : Address)
  | addVault (address : Address) (network : String)
  | uploadDeposits (address : Address) (batch : List Deposit)
  | uploadExits (address : Address) (network : String) (batch : List ExitEntry)
  | handToVault (address : Address) (network : String) (batch : List Deposit)
  | publishSet (address : Address) (network : String) (batch : List Deposit)
  | markActive (address : Address) (network : String) (batch : List Deposit)
  | cycleSet (address : Address) (network : String) (limit : Nat)

/-- What can be asked of a directory. -/
inductive Action where
  | change (change : Change)
  | registerNode (email : String) (address : Address)

/-- What an operation gives. -/
inductive Reply where
  | done
  /-- How many records are new. -/
  | added (count : Nat)
  /-- The number of a published set. -/
  | published (index : UInt64)
deriving DecidableEq

/-- The operation that makes a change. -/
def Change.operation : Change → Operation Directory Reply
  | .addUser email => (fun () => .done) <$> Directory.addUser email
  | .whitelistNode email address => (fun () => .done) <$> Directory.whitelistNode email address
  | .addVault address network => (fun () => .done) <$> Directory.addVault address network
  | .uploadDeposits address batch => .added <$> Directory.uploadDeposits address batch
  | .uploadExits address network batch =>
    (fun () => .done) <$> Directory.uploadExits address network batch
  | .handToVault address network batch =>
    (fun () => .done) <$> Directory.handToVault address network batch
  | .publishSet address network batch => .published <$> Directory.publishSet address network batch
  | .markActive address network batch =>
    (fun () => .done) <$> Directory.markActive address network batch
  | .cycleSet address network limit => .published <$> Directory.cycleSet address network limit

/-- **Every change is made in full or not at all.** -/
theorem atomic_change (change : Change) : change.operation.Atomic := by
  cases change with
  | addUser email => exact (atomic_of_settled (outcome_addUser email)).map _
  | whitelistNode email address =>
    exact (atomic_of_settled (outcome_whitelistNode email address)).map _
  | addVault address network => exact (atomic_of_settled (outcome_addVault address network)).map _
  | uploadDeposits address batch =>
    exact (atomic_of_settled (outcome_uploadDeposits address batch)).map _
  | uploadExits address network batch =>
    exact (atomic_of_settled (outcome_uploadExits address network batch)).map _
  | handToVault address network batch =>
    exact (atomic_of_settled (outcome_handToVault address network batch)).map _
  | publishSet address network batch =>
    exact (atomic_of_settled (outcome_publishSet address network batch)).map _
  | markActive address network batch =>
    exact (atomic_of_settled (outcome_markActive address network batch)).map _
  | cycleSet address network limit =>
    exact (atomic_of_settled (outcome_cycleSet address network limit)).map _

/-- The operation of an action. -/
def Action.operation : Action → Operation Directory Reply
  | .change wanted => wanted.operation
  | .registerNode email address => (fun () => .done) <$> Directory.registerNode email address

/-- The directory after an action, whether it succeeds or is refused. -/
def after (directory : Directory) (action : Action) : Directory :=
  (action.operation.outcome directory).2

/-- The directory that actions make of the empty one. -/
def built (actions : List Action) : Directory :=
  actions.foldl after {}

/-! ### What an action makes of a directory -/

/-- **What an action that succeeds makes of a directory.** -/
inductive Makes (directory : Directory) : Action → Directory → Prop
  | addUser (email : String) (fresh : directory.userIndex[email]? = none) :
      Makes directory (.change (.addUser email)) (directory.withUser email)
  | whitelistNode (email : String) (address : Address) (position : Nat)
      (known : directory.userIndex[email]? = some position)
      (free : directory.node? address = none) :
      Makes directory (.change (.whitelistNode email address))
        (directory.withWhitelisted email address position)
  /-- The user has the node already. -/
  | whitelistAgain (email : String) (address : Address) :
      Makes directory (.change (.whitelistNode email address)) directory
  | registerNode (email : String) (address : Address) (position : Nat) (node : Node)
      (known : directory.userIndex[email]? = some position)
      (found : directory.node? address = some node) (waiting : node.registered = false)
      (owned : node.owner = email) :
      Makes directory (.registerNode email address) (directory.withRegistered address position)
  | addVault (address : Address) (network : String)
      (fresh : directory.vault? address network = none) :
      Makes directory (.change (.addVault address network))
        (directory.withNewVault address network)
  | uploadDeposits (address : Address) (node : Node) (batch : List Deposit)
      (pubkeys : List Pubkey) (found : directory.node? address = some node)
      (registered : node.registered = true)
      (keys : List.Forall₂
        (fun deposit pubkey => deposit.validatorKey = .ok pubkey ∧
          ∃ vault, directory.vault? deposit.withdrawalAddress deposit.network = some vault)
        batch pubkeys) :
      Makes directory (.change (.uploadDeposits address batch))
        (directory.withNode address (node.acceptDeposits (pubkeys.zip batch)).1)
  | uploadExits (address : Address) (network : String) (node : Node) (batch : List ExitEntry)
      (pubkeys : List Pubkey) (found : directory.node? address = some node)
      (registered : node.registered = true)
      (keys : List.Forall₂
        (fun entry pubkey => entry.validatorKey = .ok pubkey ∧
          node.hasValidator network pubkey = true)
        batch pubkeys) :
      Makes directory (.change (.uploadExits address network batch))
        (directory.withNode address (node.attachExits network (pubkeys.zip batch)))
  | handToVault (address : Address) (network : String) (batch : List Deposit)
      (pubkeys : List Pubkey) (vault : Vault) (keys : requireKeys batch = .ok pubkeys)
      (found : directory.vault? address network = some vault) :
      Makes directory (.change (.handToVault address network batch))
        (directory.withVault address network (vault.withUploaded pubkeys))
  | publishSet (address : Address) (network : String) (batch : List Deposit)
      (pubkeys : List Pubkey) (vault : Vault)
      (found : directory.vault? address network = some vault)
      (keys : requireKeys batch = .ok pubkeys) :
      Makes directory (.change (.publishSet address network batch))
        (directory.withPublished address network batch vault pubkeys)
  | markActive (address : Address) (network : String) (batch : List Deposit)
      (pubkeys : List Pubkey) (vault : Vault)
      (found : directory.vault? address network = some vault)
      (keys : requireKeys batch = .ok pubkeys) :
      Makes directory (.change (.markActive address network batch))
        (directory.withActive network pubkeys)
  | cycleSet (address : Address) (network : String) (limit : Nat) (pubkeys : List Pubkey)
      (vault : Vault) (found : directory.vault? address network = some vault)
      (keys : requireKeys (directory.chooseSet network limit) = .ok pubkeys) :
      Makes directory (.change (.cycleSet address network limit))
        (directory.withCycled address network (directory.chooseSet network limit) vault pubkeys)

variable {directory : Directory} {action : Action}

theorem makes_change {change : Change}
    (passed : (change.operation.outcome directory).1.isOk = true) :
    Makes directory (.change change) (change.operation.outcome directory).2 := by
  cases change <;> rw [Change.operation] at passed ⊢
  case addUser email =>
    obtain ⟨_, checked, made⟩ := exists_checked_of_isOk (outcome_addUser email directory) passed
    rw [made]
    by_cases known : directory.userIndex.contains email = true
    · rw [if_pos known] at checked
      cases checked
    · exact .addUser email (Std.ExtTreeMap.getElem?_eq_none (by simpa using known))
  case whitelistNode email address =>
    obtain ⟨⟨position, free⟩, checked, made⟩ :=
      exists_checked_of_isOk (outcome_whitelistNode email address directory) passed
    obtain ⟨known, standing⟩ := checkWhitelisting_eq_ok.mp checked
    rw [made]
    cases free with
    | false => exact .whitelistAgain email address
    | true => exact .whitelistNode email address position known standing
  case addVault address network =>
    obtain ⟨_, checked, made⟩ :=
      exists_checked_of_isOk (outcome_addVault address network directory) passed
    rw [made]
    exact .addVault address network (checkNewVault_eq_ok.mp checked)
  case uploadDeposits address batch =>
    obtain ⟨⟨node, pubkeys⟩, checked, made⟩ :=
      exists_checked_of_isOk (outcome_uploadDeposits address batch directory) passed
    obtain ⟨⟨found, registered⟩, keys⟩ := checkDeposits_eq_ok.mp checked
    rw [made]
    exact .uploadDeposits address node batch pubkeys found registered keys
  case uploadExits address network batch =>
    obtain ⟨⟨node, pubkeys⟩, checked, made⟩ :=
      exists_checked_of_isOk (outcome_uploadExits address network batch directory) passed
    obtain ⟨⟨found, registered⟩, keys⟩ := checkExits_eq_ok.mp checked
    rw [made]
    exact .uploadExits address network node batch pubkeys found registered keys
  case handToVault address network batch =>
    obtain ⟨⟨pubkeys, vault⟩, checked, made⟩ :=
      exists_checked_of_isOk (outcome_handToVault address network batch directory) passed
    obtain ⟨keys, found⟩ := checkHandOver_eq_ok.mp checked
    rw [made]
    exact .handToVault address network batch pubkeys vault keys found
  case publishSet address network batch =>
    obtain ⟨⟨vault, pubkeys⟩, checked, made⟩ :=
      exists_checked_of_isOk (outcome_publishSet address network batch directory) passed
    obtain ⟨found, keys⟩ := checkBatch_eq_ok.mp checked
    rw [made]
    exact .publishSet address network batch pubkeys vault found keys
  case markActive address network batch =>
    obtain ⟨⟨vault, pubkeys⟩, checked, made⟩ :=
      exists_checked_of_isOk (outcome_markActive address network batch directory) passed
    obtain ⟨found, keys⟩ := checkBatch_eq_ok.mp checked
    rw [made]
    exact .markActive address network batch pubkeys vault found keys
  case cycleSet address network limit =>
    obtain ⟨⟨vault, pubkeys⟩, checked, made⟩ :=
      exists_checked_of_isOk (outcome_cycleSet address network limit directory) passed
    obtain ⟨found, keys⟩ := checkBatch_eq_ok.mp checked
    rw [made]
    exact .cycleSet address network limit pubkeys vault found keys

/-- **Every action that succeeds does what it is for.** -/
theorem makes_after (passed : (action.operation.outcome directory).1.isOk = true) :
    Makes directory action (directory.after action) := by
  cases action with
  | change change => exact makes_change passed
  | registerNode email address =>
    obtain ⟨position, checked, made⟩ :=
      exists_checked_of_isOk (outcome_registerNode email address directory) passed
    obtain ⟨known, node, found, waiting, owned⟩ := checkRegistration_eq_ok.mp checked
    rw [after, Action.operation, made]
    exact .registerNode email address position node known found waiting owned

/-- An action that is refused changes nothing. -/
theorem after_of_refused (refused : (action.operation.outcome directory).1.isOk = false) :
    directory.after action = directory := by
  have atomic : action.operation.Atomic := by
    cases action with
    | change change => exact atomic_change change
    | registerNode email address =>
      exact (atomic_of_settled (outcome_registerNode email address)).map _
  unfold after
  rcases given : action.operation.outcome directory with ⟨result, next⟩
  rw [given] at refused
  cases result with
  | ok reply => cases refused
  | error refusal => exact atomic _ _ _ given

/-- **What holds of a directory, and of whatever an action makes of it**, holds after the action. -/
theorem after_cases {P : Directory → Prop} (directory : Directory) (action : Action)
    (same : P directory) (made : ∀ {next : Directory}, Makes directory action next → P next) :
    P (directory.after action) := by
  cases passed : (action.operation.outcome directory).1.isOk with
  | true => exact made (makes_after passed)
  | false =>
    rw [after_of_refused passed]
    exact same

/-! ### Steps -/

/-- What an operation can do to a directory. -/
inductive Step (directory : Directory) : Directory → Prop
  | addUser (email : String) (fresh : directory.userIndex[email]? = none) :
      Step directory (directory.withUser email)
  | whitelistNode (email : String) (address : Address) (position : Nat)
      (known : directory.userIndex[email]? = some position)
      (free : directory.node? address = none) :
      Step directory (directory.withWhitelisted email address position)
  | registerNode (email : String) (address : Address) (position : Nat) (node : Node)
      (known : directory.userIndex[email]? = some position)
      (found : directory.node? address = some node) (waiting : node.registered = false)
      (owned : node.owner = email) :
      Step directory (directory.withRegistered address position)
  | addVault (address : Address) (network : String)
      (fresh : directory.vault? address network = none) :
      Step directory (directory.withNewVault address network)
  | uploadDeposits (address : Address) (node : Node) (batch : List Deposit)
      (pubkeys : List Pubkey) (found : directory.node? address = some node)
      (registered : node.registered = true)
      (keys : List.Forall₂
        (fun deposit pubkey => deposit.validatorKey = .ok pubkey ∧
          ∃ vault, directory.vault? deposit.withdrawalAddress deposit.network = some vault)
        batch pubkeys) :
      Step directory (directory.withNode address (node.acceptDeposits (pubkeys.zip batch)).1)
  | uploadExits (address : Address) (network : String) (node : Node) (batch : List ExitEntry)
      (pubkeys : List Pubkey) (found : directory.node? address = some node)
      (registered : node.registered = true)
      (keys : List.Forall₂
        (fun entry pubkey => entry.validatorKey = .ok pubkey ∧
          node.hasValidator network pubkey = true)
        batch pubkeys) :
      Step directory (directory.withNode address (node.attachExits network (pubkeys.zip batch)))
  | handToVault (address : Address) (network : String) (batch : List Deposit)
      (pubkeys : List Pubkey) (vault : Vault) (keys : requireKeys batch = .ok pubkeys)
      (found : directory.vault? address network = some vault) :
      Step directory (directory.withVault address network (vault.withUploaded pubkeys))
  | publishSet (address : Address) (network : String) (batch : List Deposit)
      (pubkeys : List Pubkey) (vault : Vault)
      (found : directory.vault? address network = some vault)
      (keys : requireKeys batch = .ok pubkeys) :
      Step directory (directory.withPublished address network batch vault pubkeys)
  | markActive (address : Address) (network : String) (batch : List Deposit)
      (pubkeys : List Pubkey) (vault : Vault)
      (found : directory.vault? address network = some vault)
      (keys : requireKeys batch = .ok pubkeys) :
      Step directory (directory.withActive network pubkeys)

/-- Steps in turn. -/
abbrev Steps : Directory → Directory → Prop := Relation.ReflTransGen Step

/-- What an action makes of a directory comes down to steps. -/
theorem Makes.steps {next : Directory} {action : Action} (makes : Makes directory action next) :
    Steps directory next := by
  cases makes with
  | addUser email fresh => exact .single (.addUser email fresh)
  | whitelistNode email address position known free =>
    exact .single (.whitelistNode email address position known free)
  | whitelistAgain => exact .refl
  | registerNode email address position node known found waiting owned =>
    exact .single (.registerNode email address position node known found waiting owned)
  | addVault address network fresh => exact .single (.addVault address network fresh)
  | uploadDeposits address node batch pubkeys found registered keys =>
    exact .single (.uploadDeposits address node batch pubkeys found registered keys)
  | uploadExits address network node batch pubkeys found registered keys =>
    exact .single (.uploadExits address network node batch pubkeys found registered keys)
  | handToVault address network batch pubkeys vault keys found =>
    exact .single (.handToVault address network batch pubkeys vault keys found)
  | publishSet address network batch pubkeys vault found keys =>
    exact .single (.publishSet address network batch pubkeys vault found keys)
  | markActive address network batch pubkeys vault found keys =>
    exact .single (.markActive address network batch pubkeys vault found keys)
  | cycleSet address network limit pubkeys vault found keys =>
    -- A cycle is two steps: what was handed to the vault is published for it.
    have again := requireVault_withVault (requireVault_eq_ok.mpr found) (vault.withUploaded pubkeys)
    exact .tail (.single (.handToVault address network _ pubkeys vault keys found))
      (.publishSet address network _ pubkeys _ (requireVault_eq_ok.mp again) keys)

/-- **Every action comes down to steps.** -/
theorem steps_after (directory : Directory) (action : Action) :
    Steps directory (directory.after action) :=
  after_cases (P := Steps directory) directory action .refl Makes.steps

theorem steps_change (change : Change) (directory : Directory) :
    Steps directory (change.operation.outcome directory).2 :=
  steps_after directory (.change change)

theorem steps_registerNode (email : String) (address : Address) (directory : Directory) :
    Steps directory ((registerNode email address).outcome directory).2 := by
  have steps := steps_after directory (.registerNode email address)
  rw [after, Action.operation, outcome_map] at steps
  exact steps

/-- **Actions in turn come down to steps.** -/
theorem steps_foldl (actions : List Action) (directory : Directory) :
    Steps directory (actions.foldl after directory) := by
  induction actions generalizing directory with
  | nil => exact .refl
  | cons action rest ih => exact (steps_after directory action).trans (ih _)

/-! ### Invariants -/

/-- What every step keeps is kept by steps in turn. -/
theorem Steps.keep {P : Directory → Prop}
    (step : ∀ {before after : Directory}, Step before after → P before → P after)
    {before after : Directory} (steps : Steps before after) (holds : P before) : P after := by
  induction steps with
  | refl => exact holds
  | tail _ last ih => exact step last ih

/-- **What holds of the empty directory and is kept by every step holds of all directories that can
come about.** -/
theorem built_invariant {P : Directory → Prop} (empty : P {})
    (step : ∀ {before after : Directory}, Step before after → P before → P after)
    (actions : List Action) : P (built actions) :=
  (steps_foldl actions {}).keep step empty

/-! ### Beginnings -/

/-- The actions by which a user comes in with some nodes, and vaults come in on a network. -/
def opening (email : String) (nodes : List Address) (network : String) (vaults : List Address) :
    List Action :=
  .change (.addUser email) ::
    (nodes.flatMap fun node => [.change (.whitelistNode email node), .registerNode email node]) ++
    vaults.map fun vault => .change (.addVault vault network)

/-- A string that repeats one byte. -/
def repeated {size : Nat} (byte : UInt8) : FixedBytes size where
  bytes := List.replicate size byte
  length_bytes := List.length_replicate

/-- A record for a key that repeats one byte. -/
def plainDeposit (byte : UInt8) (vault : Address) (network : String) : Deposit where
  pubkey := List.replicate 48 byte
  credentials := vault.bytes
  amount := 32
  signature := []
  messageRoot := []
  dataRoot := []
  forkVersion := []
  network := network

end StakingDirectory.Directory
