/-
**Who owns which node.**

Users, their index, their lists of nodes and the nodes themselves tell the same story in every
directory that can come about:

* `Owned` says so place by place: a list of a user holds exactly the addresses whose nodes name that
  user and are, or are not yet, registered;
* `Owned.step`: every step keeps it. The steps that only change validators or vaults leave the
  standing of all nodes alone (`SameStanding`), and the three others are looked at one by one;
* `ownership_built` says what this means for the lists of all users taken together.
-/

import StakingDirectory.Proofs.Directory.Step
import StakingDirectory.Proofs.Index

namespace StakingDirectory

/-- The whitelisted or the registered nodes of a user. -/
def User.list (user : User) : Bool → List Address
  | false => user.whitelisted
  | true => user.registered

/-- All nodes of a user. -/
def User.nodes (user : User) : List Address :=
  user.whitelisted ++ user.registered

theorem User.mem_nodes {user : User} {address : Address} :
    address ∈ user.nodes ↔ ∃ registered, address ∈ user.list registered := by
  simp [User.nodes, User.list]

/-- What a node is apart from its validators: its address, its owner, and whether it is
registered. -/
def Node.standing (node : Node) : Address × String × Bool :=
  (node.address, node.owner, node.registered)

namespace Directory

/-- The standing of the node at an address. -/
def standing? (directory : Directory) (address : Address) : Option (Address × String × Bool) :=
  (directory.node? address).map Node.standing

/-! ### The invariant -/

/-- **Users, index, lists and nodes agree.** -/
structure Owned (directory : Directory) : Prop where
  /-- Users are numbered in their order. -/
  numbered : ∀ {position : Nat} {user : User},
    directory.users[position]? = some user → user.index = position
  /-- An email leads to the user who has it. -/
  indexed : Indexes directory.userIndex directory.users User.email
  /-- No user lists an address twice. -/
  once : ∀ {position : Nat} {user : User},
    directory.users[position]? = some user → user.nodes.Nodup
  /-- A list of a user holds the addresses whose nodes say so. -/
  listed : ∀ {position : Nat} {user : User}, directory.users[position]? = some user →
    ∀ address registered, address ∈ user.list registered ↔
      directory.standing? address = some (address, user.email, registered)
  /-- A node has its own address and an owner who is known. -/
  settled : ∀ {address other : Address} {owner : String} {registered : Bool},
    directory.standing? address = some (other, owner, registered) →
      other = address ∧ ∃ position, directory.userIndex[owner]? = some position

theorem owned_empty : Owned {} where
  numbered found := by simp at found
  indexed email position := by simp
  once found := by simp at found
  listed found := by simp at found
  settled found := by simp [standing?, node?] at found

/-! ### Steps that leave the standing of nodes alone -/

/-- Users are the same, and so are the nodes but for their validators. -/
structure SameStanding (before after : Directory) : Prop where
  users : after.users = before.users
  userIndex : after.userIndex = before.userIndex
  nodes : ∀ address, after.standing? address = before.standing? address

theorem SameStanding.refl (directory : Directory) : SameStanding directory directory :=
  ⟨rfl, rfl, fun _ => rfl⟩

theorem SameStanding.trans {first second third : Directory} (earlier : SameStanding first second)
    (later : SameStanding second third) : SameStanding first third :=
  ⟨later.users.trans earlier.users, later.userIndex.trans earlier.userIndex,
    fun address => (later.nodes address).trans (earlier.nodes address)⟩

/-- **The invariant hangs on users and on the standing of nodes only.** -/
theorem Owned.congr {before after : Directory} (same : SameStanding before after)
    (owned : Owned before) : Owned after where
  numbered := by
    rw [same.users]
    exact owned.numbered
  indexed := by
    rw [same.users, same.userIndex]
    exact owned.indexed
  once := by
    rw [same.users]
    exact owned.once
  listed := by
    intro position user found address registered
    rw [same.users] at found
    rw [same.nodes, owned.listed found]
  settled := by
    intro address other owner registered found
    rw [same.nodes] at found
    rw [same.userIndex]
    exact owned.settled found

/-- Vaults have no say in who owns what. -/
theorem sameStanding_vaults (directory : Directory)
    (vaults : Std.ExtTreeMap String (Std.ExtTreeMap Address Vault)) :
    SameStanding directory { directory with vaults } :=
  ⟨rfl, rfl, fun _ => rfl⟩

/-- Putting a node in the place of one with the same standing. -/
theorem sameStanding_withNode {directory : Directory} {address : Address} {node updated : Node}
    (found : directory.node? address = some node) (standing : updated.standing = node.standing) :
    SameStanding directory (directory.withNode address updated) where
  users := rfl
  userIndex := rfl
  nodes other := by
    unfold standing?
    rw [node?_withNode]
    by_cases same : address = other
    · subst same
      rw [if_pos rfl, found, Option.map_some, Option.map_some, standing]
    · rw [if_neg same]

theorem sameStanding_modifyNodeValidators (directory : Directory) (network : String)
    (pubkey : Pubkey) (change : Validator → Validator) (address : Address) :
    SameStanding directory (directory.modifyNodeValidators network pubkey change address) where
  users := rfl
  userIndex := rfl
  nodes other := by
    simp only [standing?, node?, modifyNodeValidators, Std.ExtTreeMap.getElem?_modify,
      Std.LawfulEqCmp.compare_eq_iff_eq]
    by_cases same : address = other
    · subst same
      rw [if_pos rfl, Option.map_map]
      rfl
    · rw [if_neg same]

theorem sameStanding_modifyValidators (directory : Directory) (network : String)
    (pubkey : Pubkey) (change : Validator → Validator) :
    SameStanding directory (directory.modifyValidators network pubkey change) := by
  unfold modifyValidators
  refine List.foldlRecOn _ _ (SameStanding.refl directory) fun between same address _ => ?_
  exact same.trans (sameStanding_modifyNodeValidators between network pubkey change address)

theorem sameStanding_withUsed (directory : Directory) (network : String)
    (entries : List (Pubkey × Deposit)) :
    SameStanding directory (directory.withUsed network entries) := by
  unfold withUsed
  refine List.foldlRecOn _ _ (SameStanding.refl directory) fun between same entry _ => ?_
  exact same.trans (sameStanding_modifyValidators between network entry.1 _)

theorem sameStanding_withActive (directory : Directory) (network : String)
    (pubkeys : List Pubkey) :
    SameStanding directory (directory.withActive network pubkeys) := by
  unfold withActive
  refine List.foldlRecOn _ _ (SameStanding.refl directory) fun between same pubkey _ => ?_
  exact same.trans (sameStanding_modifyValidators between network pubkey _)

theorem standing_acceptDeposits (node : Node) (entries : List (Pubkey × Deposit)) :
    (node.acceptDeposits entries).1.standing = node.standing := by
  unfold Node.acceptDeposits
  refine List.foldlRecOn (motive := fun progress : Node × Nat => progress.1.standing = node.standing)
    entries _ rfl fun (between, added) same entry _ => ?_
  rw [← same]
  show (between.acceptDeposit entry.1 entry.2).1.standing = between.standing
  unfold Node.acceptDeposit
  split <;> rfl

/-! ### Steps that change who owns what -/

variable {directory : Directory}

/-- A node has a standing. -/
theorem standing?_of_node? {address : Address} {node : Node}
    (found : directory.node? address = some node) :
    directory.standing? address = some node.standing := by
  rw [standing?, found, Option.map_some]

theorem standing?_withWhitelisted (directory : Directory) (email : String) (address : Address)
    (position : Nat) (other : Address) :
    (directory.withWhitelisted email address position).standing? other =
      if address = other then some (address, email, false) else directory.standing? other := by
  simp only [withWhitelisted, standing?, node?, Std.ExtTreeMap.getElem?_insert,
    Std.LawfulEqCmp.compare_eq_iff_eq]
  split <;> rfl

theorem standing?_withRegistered {address : Address} {node : Node}
    (found : directory.node? address = some node) (position : Nat) (other : Address) :
    (directory.withRegistered address position).standing? other =
      if address = other then some (node.address, node.owner, true)
      else directory.standing? other := by
  simp only [withRegistered, standing?, node?, Std.ExtTreeMap.getElem?_modify,
    Std.LawfulEqCmp.compare_eq_iff_eq]
  split
  · have there : directory.nodes[address]? = some node := found
    rw [there, Option.map_some, Option.map_some]
    rfl
  · rfl

theorem Owned.withUser (owned : Owned directory) {email : String}
    (fresh : directory.userIndex[email]? = none) : Owned (directory.withUser email) := by
  have users : ∀ position, (directory.withUser email).users[position]? =
      if position = directory.users.length then
        some { email, index := directory.users.length }
      else directory.users[position]? := by
    intro position
    unfold Directory.withUser
    rw [List.getElem?_append]
    grind
  have unowned : ∀ {address other registered},
      directory.standing? address ≠ some (other, email, registered) := by
    intro address other registered found
    obtain ⟨_, position, known⟩ := owned.settled found
    rw [fresh] at known
    cases known
  refine ⟨?numbered, ?indexed, ?once, ?listed, ?settled⟩
  case numbered =>
    intro position user found
    rw [users] at found
    split at found
    · rename_i last
      cases found
      exact last.symm
    · exact owned.numbered found
  case indexed =>
    exact owned.indexed.append { email, index := directory.users.length } fun user member =>
      owned.indexed.key_ne fresh member
  case once =>
    intro position user found
    rw [users] at found
    split at found
    · cases found
      exact List.nodup_nil
    · exact owned.once found
  case listed =>
    intro position user found address registered
    rw [users] at found
    split at found
    · cases found
      refine iff_of_false ?_ unowned
      cases registered <;> exact List.not_mem_nil
    · exact owned.listed found address registered
  case settled =>
    intro address other owner registered found
    obtain ⟨same, position, known⟩ := owned.settled found
    have other : email ≠ owner := by
      rintro rfl
      exact unowned found
    refine ⟨same, position, ?_⟩
    simp [Directory.withUser, Std.ExtTreeMap.getElem?_insert, other, known]

/-- **A node comes into a list of a user.** The user at a place has a new pair of lists, in which
only the one address stands elsewhere, and the node at that address says so; it was no one else's
before. -/
theorem Owned.claim {after : Directory} (owned : Owned directory) (address : Address)
    (registered : Bool) {email : String} {position : Nat} {change : User → User}
    (known : directory.userIndex[email]? = some position)
    (unclaimed : ∀ {other owner flag},
      directory.standing? address = some (other, owner, flag) → owner = email)
    (users : after.users = directory.users.modify position change)
    (userIndex : after.userIndex = directory.userIndex)
    (standings : ∀ other, after.standing? other =
      if address = other then some (address, email, registered) else directory.standing? other)
    (kept : ∀ user, (change user).index = user.index ∧ (change user).email = user.email)
    (once : ∀ user, directory.users[position]? = some user → (change user).nodes.Nodup)
    (lists : ∀ user, directory.users[position]? = some user → ∀ other flag,
      other ∈ (change user).list flag ↔
        if address = other then flag = registered else other ∈ user.list flag) :
    Owned after := by
  have find : ∀ {place user}, after.users[place]? = some user →
      ∃ old, directory.users[place]? = some old ∧
        user = if position = place then change old else old := by
    intro place user found
    rw [users, List.getElem?_modify] at found
    obtain ⟨old, there, rfl⟩ := Option.map_eq_some_iff.mp found
    exact ⟨old, there, rfl⟩
  refine ⟨?numbered, ?indexed, ?once, ?listed, ?settled⟩
  case numbered =>
    intro place user found
    obtain ⟨old, there, rfl⟩ := find found
    rw [← owned.numbered there]
    split
    · exact (kept old).1
    · rfl
  case indexed =>
    intro other place
    rw [userIndex, owned.indexed, users, List.getElem?_modify]
    cases directory.users[place]? with
    | none => rfl
    | some user =>
      simp only [Option.map_eq_map, Option.map_some]
      split
      · rw [(kept user).2]
      · rfl
  case once =>
    intro place user found
    obtain ⟨old, there, rfl⟩ := find found
    split
    · rename_i here
      subst here
      exact once old there
    · exact owned.once there
  case listed =>
    intro place user found other flag
    obtain ⟨old, there, rfl⟩ := find found
    rw [standings]
    by_cases here : position = place
    · subst here
      have name : old.email = email := by
        have same := (owned.indexed _ _).mp known
        rw [there] at same
        exact Option.some.inj same
      rw [if_pos rfl, lists old there, (kept old).2, name]
      split
      · rename_i same
        subst same
        simp [eq_comm]
      · rw [owned.listed there, name]
    · -- Another user: the address was not in their lists before.
      have stranger : old.email ≠ email := by
        rintro rfl
        have same := (owned.indexed _ _).mpr (show (directory.users[place]?).map User.email = _ by
          rw [there, Option.map_some])
        exact here (Option.some.inj (known.symm.trans same))
      rw [if_neg here, owned.listed there]
      split
      · rename_i same
        subst same
        refine iff_of_false (fun before => stranger (unclaimed before)) fun equal => ?_
        simp only [Option.some.injEq, Prod.mk.injEq] at equal
        exact stranger equal.2.1.symm
      · rfl
  case settled =>
    intro place other owner flag found
    rw [standings] at found
    rw [userIndex]
    split at found
    · rename_i same
      cases found
      exact ⟨same, position, known⟩
    · exact owned.settled found

theorem Owned.withWhitelisted (owned : Owned directory) {email : String} {address : Address}
    {position : Nat} (known : directory.userIndex[email]? = some position)
    (free : directory.node? address = none) :
    Owned (directory.withWhitelisted email address position) := by
  have nowhere : directory.standing? address = none := by rw [standing?, free, Option.map_none]
  have unlisted : ∀ {user}, directory.users[position]? = some user → address ∉ user.nodes := by
    intro user found member
    obtain ⟨registered, inside⟩ := User.mem_nodes.mp member
    rw [owned.listed found, nowhere] at inside
    cases inside
  refine owned.claim address false known ?_ rfl rfl
    (standing?_withWhitelisted directory email address position) (fun _ => ⟨rfl, rfl⟩) ?_ ?_
  · intro other owner flag before
    rw [nowhere] at before
    cases before
  · intro user found
    have before := owned.once found
    have outside := unlisted found
    simp only [User.nodes, List.nodup_append, List.mem_append] at before outside ⊢
    grind
  · intro user found other flag
    have outside := unlisted found
    cases flag <;> simp only [User.list, User.nodes, List.mem_append] at outside ⊢ <;> grind

theorem Owned.withRegistered (owned : Owned directory) {email : String} {address : Address}
    {position : Nat} {node : Node} (known : directory.userIndex[email]? = some position)
    (found : directory.node? address = some node) (waiting : node.registered = false)
    (mine : node.owner = email) : Owned (directory.withRegistered address position) := by
  have before : directory.standing? address = some (node.address, email, false) := by
    rw [standing?_of_node? found, Node.standing, waiting, mine]
  have own : node.address = address := (owned.settled before).1
  have standing : directory.standing? address = some (address, email, false) := by
    rw [before, own]
  have unlisted : ∀ {user}, directory.users[position]? = some user →
      address ∉ user.registered := by
    intro user there member
    have inside := (owned.listed there address true).mp member
    rw [standing] at inside
    cases inside
  refine owned.claim address true known ?_ rfl rfl ?_
    (fun _ => ⟨rfl, rfl⟩) ?_ ?_
  · intro other owner flag before
    rw [standing] at before
    cases before
    rfl
  · intro other
    rw [standing?_withRegistered found, own, mine]
  · intro user there
    have before := owned.once there
    have outside := unlisted there
    simp only [User.nodes, List.nodup_append, List.mem_append] at before outside ⊢
    grind
  · intro user there other flag
    have outside := unlisted there
    cases flag <;> simp only [User.list, List.mem_append] at outside ⊢ <;> grind

/-- **Every step keeps users, index, lists and nodes in agreement.** -/
theorem Owned.step {before after : Directory} (step : Step before after) (owned : Owned before) :
    Owned after := by
  cases step with
  | addUser email fresh => exact owned.withUser fresh
  | whitelistNode email address position known free => exact owned.withWhitelisted known free
  | registerNode email address position node known found waiting mine =>
    exact owned.withRegistered known found waiting mine
  | addVault address network fresh => exact owned.congr (sameStanding_vaults before _)
  | uploadDeposits address node batch pubkeys found registered keys =>
    exact owned.congr (sameStanding_withNode found (standing_acceptDeposits node _))
  | uploadExits address network node batch pubkeys found registered keys =>
    exact owned.congr (sameStanding_withNode found rfl)
  | handToVault address network batch pubkeys vault keys found =>
    exact owned.congr (sameStanding_vaults before _)
  | publishSet address network batch pubkeys vault found keys =>
    have marked := sameStanding_withUsed before network (pubkeys.zip batch)
    exact owned.congr (marked.trans (sameStanding_vaults _ _))
  | markActive address network batch pubkeys vault found keys =>
    exact owned.congr (sameStanding_withActive before network pubkeys)

theorem owned_built (actions : List Action) : Owned (built actions) :=
  built_invariant owned_empty Owned.step actions

/-! ### All lists together -/

/-- The owner of a node is a user. -/
theorem Owned.exists_owner (owned : Owned directory) {address : Address} {node : Node}
    (found : directory.node? address = some node) :
    node.address = address ∧ ∃ user ∈ directory.users, user.email = node.owner := by
  have standing := standing?_of_node? found
  obtain ⟨own, position, known⟩ := owned.settled standing
  obtain ⟨user, there, name⟩ := Option.map_eq_some_iff.mp ((owned.indexed _ _).mp known)
  exact ⟨own, user, List.mem_of_getElem? there, name⟩

/-- A node stands in the list of its owner that its flag names, and in no other list. -/
theorem Owned.mem_list (owned : Owned directory) {address : Address} {node : Node}
    (found : directory.node? address = some node) {user : User} (member : user ∈ directory.users)
    (registered : Bool) :
    address ∈ user.list registered ↔ user.email = node.owner ∧ node.registered = registered := by
  obtain ⟨position, there⟩ := List.getElem?_of_mem member
  rw [owned.listed there, standing?_of_node? found, Node.standing, (owned.exists_owner found).1]
  simp [eq_comm]

/-- The lists of all users hold the addresses of all nodes. -/
theorem Owned.mem_nodes (owned : Owned directory) (address : Address) :
    address ∈ directory.users.flatMap User.nodes ↔ address ∈ directory.nodes := by
  rw [List.mem_flatMap, Std.ExtTreeMap.mem_iff_isSome_getElem?, Option.isSome_iff_exists]
  constructor
  · rintro ⟨user, member, inside⟩
    obtain ⟨registered, inside⟩ := User.mem_nodes.mp inside
    obtain ⟨position, there⟩ := List.getElem?_of_mem member
    obtain ⟨node, found, _⟩ := Option.map_eq_some_iff.mp ((owned.listed there _ _).mp inside)
    exact ⟨node, found⟩
  · rintro ⟨node, found⟩
    obtain ⟨_, user, member, name⟩ := owned.exists_owner found
    exact ⟨user, member, User.mem_nodes.mpr
      ⟨node.registered, (owned.mem_list found member _).mpr ⟨name, rfl⟩⟩⟩

/-- The lists of all users hold every address once. -/
theorem Owned.nodup_nodes (owned : Owned directory) :
    (directory.users.flatMap User.nodes).Nodup := by
  rw [List.nodup_flatMap]
  constructor
  · intro user member
    obtain ⟨position, there⟩ := List.getElem?_of_mem member
    exact owned.once there
  · have apart : directory.users.Pairwise fun first second => first.email ≠ second.email :=
      List.pairwise_map.mp owned.indexed.nodup
    refine apart.imp_of_mem fun {first second} member member' different => ?_
    -- An address in the lists of two users would name both as its owner.
    intro address inside inside'
    have there := (owned.mem_nodes address).mp (List.mem_flatMap.mpr ⟨first, member, inside⟩)
    rw [Std.ExtTreeMap.mem_iff_isSome_getElem?, Option.isSome_iff_exists] at there
    obtain ⟨node, found⟩ := there
    obtain ⟨_, listed⟩ := User.mem_nodes.mp inside
    obtain ⟨_, listed'⟩ := User.mem_nodes.mp inside'
    have name := ((owned.mem_list found member _).mp listed).1
    have name' := ((owned.mem_list found member' _).mp listed').1
    exact different (name.trans name'.symm)

/-- **Ownership.** In every directory that can come about, users are numbered in their order, have
emails of their own and are found by them; the lists of all users together hold exactly the
addresses of all nodes, each once; and a node is listed by its owner only, among the registered or
the whitelisted nodes as its flag says. -/
theorem ownership_built (actions : List Action) :
    ((∀ (position : Nat) (user : User),
        (built actions).users[position]? = some user → user.index = position) ∧
      ((built actions).users.map User.email).Nodup ∧
      ∀ (email : String) (position : Nat), (built actions).userIndex[email]? = some position ↔
        ((built actions).users[position]?).map User.email = some email) ∧
    (((built actions).users.flatMap fun user => user.whitelisted ++ user.registered).Nodup ∧
      ∀ address : Address,
        (address ∈ (built actions).users.flatMap fun user => user.whitelisted ++ user.registered) ↔
          address ∈ (built actions).nodes) ∧
    ∀ (address : Address) (node : Node), (built actions).nodes[address]? = some node →
      node.address = address ∧ (∃ user ∈ (built actions).users, user.email = node.owner) ∧
      ∀ user ∈ (built actions).users,
        (address ∈ user.registered ↔ user.email = node.owner ∧ node.registered = true) ∧
        (address ∈ user.whitelisted ↔ user.email = node.owner ∧ node.registered = false) := by
  have owned := owned_built actions
  refine ⟨⟨fun _ _ => owned.numbered, owned.indexed.nodup, owned.indexed⟩,
    ⟨owned.nodup_nodes, owned.mem_nodes⟩, fun address node found => ?_⟩
  obtain ⟨own, owner⟩ := owned.exists_owner found
  exact ⟨own, owner, fun user member =>
    ⟨owned.mem_list found member true, owned.mem_list found member false⟩⟩

end Directory

end StakingDirectory
