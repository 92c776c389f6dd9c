/-
**Which deposits a set consists of, and in which order.**

* `available` lists the unused deposits of a user on a network: nodes in the order of registration,
  and the validators of a node in the order in which they were handed in;
* `chooseSet_eq_available`: a set takes as many as the limit allows from the front of each list, user
  by user;
* `chooseSet_congr`: nothing else has a part in it;
* `chooseSet_portions` says this of all directories that can come about, together with the actions
  that settled the orders.
-/

import StakingDirectory.Proofs.Allotment.Choice
import StakingDirectory.Proofs.Directory.Arrival

namespace StakingDirectory.Directory

/-- The unused deposits of a user on a network, by nodes and then by validators. -/
def available (directory : Directory) (network : String) (user : User) : List Deposit :=
  user.registered.flatMap fun address =>
    ((directory.validatorsAt address network).filter fun validator => !validator.used).map
      Validator.deposit

variable {directory : Directory} {network : String}

/-- What is available are the deposits of what waits. -/
theorem available_eq_waiting (directory : Directory) (network : String) (user : User) :
    directory.available network user =
      (directory.waiting network user.registered).map fun entry => entry.2.deposit := by
  rw [available, waiting, List.map_flatMap]
  refine List.flatMap_congr fun address _ => ?_
  rw [List.map_map]
  rfl

/-- **A set takes the first deposits that are available, user by user.** -/
theorem chooseSet_eq_available (directory : Directory) (network : String) (limit : Nat) :
    directory.chooseSet network limit =
      directory.users.flatMap fun user => (directory.available network user).take limit := by
  rw [chooseSet_eq, chosen, List.map_flatMap]
  refine List.flatMap_congr fun user _ => ?_
  rw [available_eq_waiting, List.map_take]

/-- Every user has a portion, which is as long as the limit and what is available allow. -/
theorem exists_portions (directory : Directory) (network : String) (limit : Nat) :
    ∃ portions : List (List Deposit),
      directory.chooseSet network limit = portions.flatten ∧
      List.Forall₂
        (fun user portion => portion <+: directory.available network user ∧
          portion.length = min limit (directory.available network user).length)
        directory.users portions := by
  refine ⟨directory.users.map fun user => (directory.available network user).take limit,
    chooseSet_eq_available directory network limit, ?_⟩
  rw [List.forall₂_map_right_iff, List.forall₂_same]
  exact fun user _ => ⟨List.take_prefix limit _, List.length_take⟩

/-- **Only registered nodes and their validators on the network have a part in a set.** -/
theorem chooseSet_congr {other : Directory}
    (users : other.users.map User.registered = directory.users.map User.registered)
    (validators : ∀ address ∈ directory.registeredAddresses,
      other.validatorsAt address network = directory.validatorsAt address network)
    (limit : Nat) : other.chooseSet network limit = directory.chooseSet network limit := by
  have byNodes : ∀ any : Directory, any.chooseSet network limit =
      (any.users.map User.registered).flatMap fun nodes =>
        ((any.waiting network nodes).take limit).map fun entry => entry.2.deposit := by
    intro any
    rw [chooseSet_eq, chosen, List.map_flatMap, List.flatMap_map]
  rw [byNodes, byNodes, users]
  refine List.flatMap_congr fun nodes member => ?_
  obtain ⟨user, known, rfl⟩ := List.mem_map.mp member
  have same : other.waiting network user.registered = directory.waiting network user.registered :=
    List.flatMap_congr fun address listed => by
      rw [validators address (List.mem_flatMap.mpr ⟨user, known, listed⟩)]
  rw [same]

/-- **A set consists of the first unused deposits of every user.** In every directory that can come
about, the set that is chosen for a network is put together user by user: from each one it takes the
first unused deposits of the registered nodes, as many as the limit says or as there are. Users stand
in the order in which they were added, the nodes of a user in the order in which they were
registered, and the validators of a node in the order in which the node handed them in first. Every
deposit of the set is the unused one of a validator of a registered node on the network, and for that
network. Nothing but the registered nodes of the users and the validators of these on the network has
a part in the set. -/
theorem chooseSet_portions (actions : List Action) (network : String) (limit : Nat) :
    ((built actions).chooseSet network limit = (built actions).users.flatMap fun user =>
      ((built actions).available network user).take limit) ∧
    (∃ portions : List (List Deposit),
      (built actions).chooseSet network limit = portions.flatten ∧
      List.Forall₂
        (fun user portion => portion <+: (built actions).available network user ∧
          portion.length = min limit ((built actions).available network user).length)
        (built actions).users portions) ∧
    ((built actions).users.map User.email =
      (accomplished {} actions).filterMap Action.newUser) ∧
    (∀ user ∈ (built actions).users,
      user.registered = (accomplished {} actions).filterMap (Action.newNode user.email)) ∧
    (∀ address, ((built actions).validatorsAt address network).map Validator.pubkey =
      ((accomplished {} actions).flatMap (Action.newKeys address network)).eraseDups) ∧
    (∀ deposit ∈ (built actions).chooseSet network limit, deposit.network = network ∧
      ∃ address, (built actions).isRegistered address = true ∧
        ∃ validator ∈ (built actions).validatorsAt address network,
          validator.used = false ∧ validator.deposit = deposit) ∧
    ∀ other : Directory,
      other.users.map User.registered = (built actions).users.map User.registered →
      (∀ address ∈ (built actions).registeredAddresses,
        other.validatorsAt address network = (built actions).validatorsAt address network) →
      other.chooseSet network limit = (built actions).chooseSet network limit := by
  have enrolled := enrolled_built actions
  have sound := sound_built actions
  refine ⟨chooseSet_eq_available _ network limit, exists_portions _ network limit,
    enrolled.emails, fun user member => enrolled.registered member,
    fun address => queued_built actions address network, fun deposit member => ?_,
    fun other users validators => chooseSet_congr users validators limit⟩
  rw [chooseSet_eq] at member
  obtain ⟨entry, picked, rfl⟩ := List.mem_map.mp member
  obtain ⟨listed, held, unused⟩ := mem_chosen picked
  exact ⟨(sound.intact held unused).1, entry.1, sound.owned.mem_registeredAddresses.mp listed,
    entry.2, held, unused, rfl⟩

/-- Two users, of whom the first has two nodes, the second of them on another network as well. -/
def twoUsers : List Action :=
  opening "a" [repeated 1, repeated 2] "n" [repeated 9] ++
    opening "b" [repeated 5] "m" [repeated 9] ++
    [.change (.uploadDeposits (repeated 5) [plainDeposit 3 (repeated 9) "n"]),
      .change (.uploadDeposits (repeated 2) [plainDeposit 6 (repeated 9) "m",
        plainDeposit 6 (repeated 9) "n", plainDeposit 7 (repeated 9) "n"]),
      .change (.uploadDeposits (repeated 1) [plainDeposit 4 (repeated 9) "n"])]

set_option maxRecDepth 2000 in
-- The first node comes first though it hands in last, and the limit leaves room for one more.
example : (built twoUsers).chooseSet "n" 2 =
    [plainDeposit 4 (repeated 9) "n", plainDeposit 6 (repeated 9) "n",
      plainDeposit 3 (repeated 9) "n"] := by decide

end StakingDirectory.Directory
