/-
**What is in a directory stays in it.**

* `Stays` compares two ways to look things up: what is found under a key is found under it later,
  and has become something that it may become;
* `User.Grows`, `Node.Grows` and `Vault.Grows` say what users, nodes and vaults may become;
* `Directory.Grows` collects this for users at their places, nodes at their addresses and vaults on
  their networks. Every step keeps it (`Step.grows`), and so do steps in turn (`Steps.grows`).
-/

import StakingDirectory.Proofs.Directory.Growth

namespace StakingDirectory

/-! ### Staying -/

section Stays

variable {κ α : Type} {R : α → α → Prop} {first second third : κ → Option α}

/-- **What is found under a key is found under it later**, and is related to what it was. -/
def Stays (R : α → α → Prop) (before after : κ → Option α) : Prop :=
  ∀ (key : κ) (item : α), before key = some item → ∃ later, after key = some later ∧ R item later

theorem Stays.of_eq (refl : ∀ item, R item item) (same : ∀ key, second key = first key) :
    Stays R first second :=
  fun key item found => ⟨item, (same key).trans found, refl item⟩

theorem Stays.trans (compose : ∀ {one two three : α}, R one two → R two three → R one three)
    (earlier : Stays R first second) (later : Stays R second third) : Stays R first third := by
  intro key item found
  obtain ⟨between, there, related⟩ := earlier key item found
  obtain ⟨last, now, further⟩ := later key between there
  exact ⟨last, now, compose related further⟩

theorem stays_append (refl : ∀ item, R item item) (items new : List α) :
    Stays R (fun place : Nat => items[place]?) fun place => (items ++ new)[place]? := by
  intro place item found
  obtain ⟨inside, -⟩ := List.getElem?_eq_some_iff.mp found
  exact ⟨item, (List.getElem?_append_left inside).trans found, refl item⟩

theorem stays_modify (refl : ∀ item, R item item) (change : α → α)
    (changed : ∀ item, R item (change item)) (position : Nat) (items : List α) :
    Stays R (fun place : Nat => items[place]?)
      fun place => (items.modify position change)[place]? := by
  intro place item found
  refine ⟨if position = place then change item else item, ?_, ?_⟩
  · show (items.modify position change)[place]? = _
    rw [List.getElem?_modify, show items[place]? = some item from found]
    rfl
  · split
    · exact changed item
    · exact refl item

end Stays

theorem Validator.AllAdvance.stays {before after : List Validator}
    (advance : AllAdvance before after) :
    Stays Advances (fun place : Nat => before[place]?) fun place => after[place]? := by
  intro place validator found
  obtain ⟨inside, rfl⟩ := List.getElem?_eq_some_iff.mp found
  have within : place < after.length := advance.length_eq ▸ inside
  exact ⟨after[place], List.getElem?_eq_getElem within, advance.get inside within⟩

/-! ### Users, nodes and vaults -/

/-- What a user can have become. -/
structure User.Grows (before after : User) : Prop where
  email : after.email = before.email
  index : after.index = before.index
  /-- Nodes are registered behind those that were registered before. -/
  registered : before.registered <+: after.registered

theorem User.Grows.refl (user : User) : Grows user user :=
  ⟨rfl, rfl, List.prefix_rfl⟩

theorem User.Grows.trans {first second third : User} (earlier : Grows first second)
    (later : Grows second third) : Grows first third :=
  ⟨later.email.trans earlier.email, later.index.trans earlier.index,
    earlier.registered.trans later.registered⟩

/-- What a node can have become. -/
structure Node.Grows (before after : Node) : Prop where
  owner : after.owner = before.owner
  registered : before.registered = true → after.registered = true
  /-- Validators keep their places, where they advance. -/
  held : ∀ network : String, Stays Validator.Advances
    (fun place : Nat => (before.held network)[place]?) fun place => (after.held network)[place]?

theorem Node.Grows.refl (node : Node) : Grows node node :=
  ⟨rfl, id, fun _ => .of_eq Validator.Advances.refl fun _ => rfl⟩

theorem Node.Grows.trans {first second third : Node} (earlier : Grows first second)
    (later : Grows second third) : Grows first third :=
  ⟨later.owner.trans earlier.owner, later.registered ∘ earlier.registered,
    fun network => (earlier.held network).trans Validator.Advances.trans (later.held network)⟩

/-- What a vault can have become. -/
structure Vault.Grows (before after : Vault) : Prop where
  address : after.address = before.address
  network : after.network = before.network
  uploaded : ∀ pubkey ∈ before.uploaded, pubkey ∈ after.uploaded

theorem Vault.Grows.refl (vault : Vault) : Grows vault vault :=
  ⟨rfl, rfl, fun _ => id⟩

theorem Vault.Grows.trans {first second third : Vault} (earlier : Grows first second)
    (later : Grows second third) : Grows first third :=
  ⟨later.address.trans earlier.address, later.network.trans earlier.network,
    fun pubkey member => later.uploaded pubkey (earlier.uploaded pubkey member)⟩

namespace Directory

variable {before after : Directory}

/-! ### Directories -/

/-- **What a directory can have become.** -/
structure Grows (before after : Directory) : Prop where
  users : Stays User.Grows (fun place : Nat => before.users[place]?)
    fun place => after.users[place]?
  nodes : Stays Node.Grows before.node? after.node?
  vaults : ∀ network : String,
    Stays Vault.Grows (before.vault? · network) (after.vault? · network)

theorem Grows.refl (directory : Directory) : Grows directory directory :=
  ⟨.of_eq User.Grows.refl fun _ => rfl, .of_eq Node.Grows.refl fun _ => rfl,
    fun _ => .of_eq Vault.Grows.refl fun _ => rfl⟩

theorem Grows.trans {first second third : Directory} (earlier : Grows first second)
    (later : Grows second third) : Grows first third :=
  ⟨earlier.users.trans User.Grows.trans later.users,
    earlier.nodes.trans Node.Grows.trans later.nodes,
    fun network => (earlier.vaults network).trans Vault.Grows.trans (later.vaults network)⟩

/-- Users stay at their places. -/
theorem Step.users_grow (step : Step before after) :
    Stays User.Grows (fun place : Nat => before.users[place]?)
      fun place => after.users[place]? := by
  have same : after.users = before.users → Stays User.Grows
      (fun place : Nat => before.users[place]?) fun place => after.users[place]? :=
    fun same => .of_eq User.Grows.refl fun place => by rw [same]
  cases step with
  | addUser email fresh => exact stays_append User.Grows.refl before.users _
  | whitelistNode email address position known free =>
    exact stays_modify User.Grows.refl
      (fun user => { user with whitelisted := user.whitelisted ++ [address] })
      (fun _ => ⟨rfl, rfl, List.prefix_rfl⟩) position before.users
  | registerNode email address position node known found waiting owned =>
    exact stays_modify User.Grows.refl
      (fun user => { user with
        whitelisted := user.whitelisted.filter fun other => other ≠ address
        registered := user.registered ++ [address] })
      (fun _ => ⟨rfl, rfl, List.prefix_append _ _⟩) position before.users
  | publishSet address network batch pubkeys vault found keys =>
    exact same (onlyNodes_withUsed before network (pubkeys.zip batch)).users
  | markActive address network batch pubkeys vault found keys =>
    exact same (onlyNodes_withActive before network pubkeys).users
  | addVault | uploadDeposits | uploadExits | handToVault => exact same rfl

/-- A node that stands at an address stays there with its owner, and stays registered. -/
theorem Step.standing_grows (step : Step before after) {address own : Address} {owner : String}
    {registered : Bool} (standing : before.standing? address = some (own, owner, registered)) :
    ∃ flag, after.standing? address = some (own, owner, flag) ∧
      (registered = true → flag = true) := by
  have kept : SameStanding before after → ∃ flag,
      after.standing? address = some (own, owner, flag) ∧ (registered = true → flag = true) :=
    fun same => ⟨registered, by rw [same.nodes, standing], id⟩
  cases step with
  | addUser email fresh => exact ⟨registered, standing, id⟩
  | whitelistNode email other position known free =>
    refine ⟨registered, ?_, id⟩
    have different : other ≠ address := by
      rintro rfl
      rw [standing?, free] at standing
      cases standing
    simp only [withWhitelisted, standing?, node?, Std.ExtTreeMap.getElem?_insert,
      Std.LawfulEqCmp.compare_eq_iff_eq, if_neg different]
    exact standing
  | registerNode email other position node known found waiting owned =>
    simp only [withRegistered, standing?, node?, Std.ExtTreeMap.getElem?_modify,
      Std.LawfulEqCmp.compare_eq_iff_eq]
    by_cases here : other = address
    · subst here
      obtain ⟨old, there, same⟩ := Option.map_eq_some_iff.mp standing
      cases same
      rw [if_pos rfl, show before.nodes[other]? = some old from there]
      exact ⟨true, rfl, fun _ => rfl⟩
    · rw [if_neg here]
      exact ⟨registered, standing, id⟩
  | addVault other network fresh => exact kept (sameStanding_vaults before _)
  | uploadDeposits other node batch pubkeys found registered keys =>
    exact kept (sameStanding_withNode found (standing_acceptDeposits node _))
  | uploadExits other network node batch pubkeys found registered keys =>
    exact kept (sameStanding_withNode found rfl)
  | handToVault other network batch pubkeys vault keys found =>
    exact kept (sameStanding_vaults before _)
  | publishSet other network batch pubkeys vault found keys =>
    exact kept ((sameStanding_withUsed before network _).trans (sameStanding_vaults _ _))
  | markActive other network batch pubkeys vault found keys =>
    exact kept (sameStanding_withActive before network pubkeys)

/-- Nodes stay at their addresses. -/
theorem Step.nodes_grow (step : Step before after) : Stays Node.Grows before.node? after.node? := by
  intro address node found
  obtain ⟨flag, standing, registered⟩ := step.standing_grows
    (show before.standing? address = some (node.address, node.owner, node.registered) by
      rw [standing?, found, Option.map_some, Node.standing])
  obtain ⟨later, there, same⟩ := Option.map_eq_some_iff.mp standing
  obtain ⟨-, owner, registration⟩ := Prod.mk.inj same |>.imp id Prod.mk.inj
  refine ⟨later, there, owner, fun before => registration.trans (registered before),
    fun network => ?_⟩
  -- The lists of the node are those of the directory at its address.
  obtain ⟨advanced, new, grown, advance, -, -⟩ := step.grown address network
  rw [validatorsAt_of_node? found] at advance
  rw [validatorsAt_of_node? there] at grown
  rw [grown]
  exact advance.stays.trans Validator.Advances.trans (stays_append Validator.Advances.refl _ new)

/-- Vaults stay at their addresses. -/
theorem Step.vaults_grow (step : Step before after) (network : String) :
    Stays Vault.Grows (before.vault? · network) (after.vault? · network) := by
  intro address vault found
  have changed := step.vaultStep address network
  rw [show before.vault? address network = some vault from found] at changed
  show ∃ later, after.vault? address network = some later ∧ vault.Grows later
  generalize after.vault? address network = there at changed ⊢
  cases changed with
  | same => exact ⟨vault, rfl, .refl vault⟩
  | handed _ pubkeys =>
    exact ⟨_, rfl, rfl, rfl, fun pubkey member => Vault.mem_withUploaded.mpr (.inl member)⟩
  | published _ batch => exact ⟨_, rfl, rfl, rfl, fun _ => id⟩

/-- **Every step keeps what is in a directory.** -/
theorem Step.grows (step : Step before after) : Grows before after :=
  ⟨step.users_grow, step.nodes_grow, step.vaults_grow⟩

theorem Steps.grows (steps : Steps before after) : Grows before after := by
  induction steps with
  | refl => exact .refl before
  | tail _ last ih => exact ih.trans last.grows

end Directory

end StakingDirectory
