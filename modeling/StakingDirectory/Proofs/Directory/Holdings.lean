/-
**What is true of every validator that is held.**

Validators come in with deposits, and are changed by exits, by published sets and by marks; nothing
else touches them.

* `Every` says that all validators of all nodes have a property, which may look at the address of
  the node and at the network;
* for each change of the directory there is the condition under which `Every` stays true;
* `Genuine`: the deposit that is stored with a validator spells the validator's key, so that a set
  chosen by the directory never has a record without a key. Every step keeps this (`Genuine.step`).
-/

import StakingDirectory.Proofs.Directory.Step

namespace StakingDirectory

/-! ### The validators of one node -/

namespace Node

variable {P : String → Validator → Prop} {node : Node}

/-- All validators of a node have a property. -/
def Every (node : Node) (P : String → Validator → Prop) : Prop :=
  ∀ (network : String) (validators : List Validator),
    node.validators[network]? = some validators → ∀ validator ∈ validators, P network validator

theorem every_congr {other : Node} (same : other.validators = node.validators)
    (every : node.Every P) : other.Every P := by
  unfold Every
  rw [same]
  exact every

theorem Every.acceptDeposit (every : node.Every P) {pubkey : Pubkey} {deposit : Deposit}
    (new : P deposit.network (.ofDeposit pubkey deposit)) :
    (node.acceptDeposit pubkey deposit).1.Every P := by
  unfold Node.acceptDeposit
  split
  · exact every
  · intro network validators found validator member
    simp only [Std.ExtTreeMap.getElem?_insert, Std.LawfulEqCmp.compare_eq_iff_eq] at found
    split at found
    · rename_i same
      subst same
      cases found
      rcases List.mem_append.mp member with before | last
      · cases held : node.validators[deposit.network]? with
        | none =>
          rw [held] at before
          exact absurd before List.not_mem_nil
        | some others =>
          rw [held] at before
          exact every _ _ held _ before
      · rw [List.mem_singleton.mp last]
        exact new
    · exact every _ _ found _ member

theorem Every.acceptDeposits (every : node.Every P) {entries : List (Pubkey × Deposit)}
    (new : ∀ entry ∈ entries, P entry.2.network (.ofDeposit entry.1 entry.2)) :
    (node.acceptDeposits entries).1.Every P := by
  unfold Node.acceptDeposits
  refine List.foldlRecOn (motive := fun progress : Node × Nat => progress.1.Every P) entries _ every
    fun (between, added) holds entry member => ?_
  exact holds.acceptDeposit (new entry member)

end Node

/-- What holds of every item, and of what is made of an item that has a property, holds of every
item after the first one with that property was changed. -/
theorem forall_mem_modifyFirst {α : Type} {P : α → Prop} {has : α → Bool} {change : α → α}
    (kept : ∀ item, P item → P (change item)) :
    ∀ {items : List α}, (∀ item ∈ items, P item) → ∀ item ∈ modifyFirst has change items, P item
  | [], _ => fun item member => absurd member List.not_mem_nil
  | first :: rest, every => by
    unfold modifyFirst
    split
    · intro item member
      rcases List.mem_cons.mp member with same | later
      · rw [same]
        exact kept first (every first List.mem_cons_self)
      · exact every item (List.mem_cons_of_mem first later)
    · intro item member
      rcases List.mem_cons.mp member with same | later
      · rw [same]
        exact every first List.mem_cons_self
      · exact forall_mem_modifyFirst kept
          (fun other inside => every other (List.mem_cons_of_mem first inside)) item later

theorem Node.Every.attachExits {P : String → Validator → Prop} {node : Node}
    (every : node.Every P) {network : String} {entries : List (Pubkey × ExitEntry)}
    (kept : ∀ exit validator, P network validator → P network (validator.attachExit exit)) :
    (node.attachExits network entries).Every P := by
  intro other validators found
  simp only [Node.attachExits, Std.ExtTreeMap.getElem?_modify,
    Std.LawfulEqCmp.compare_eq_iff_eq] at found
  split at found
  · rename_i same
    subst same
    obtain ⟨before, held, rfl⟩ := Option.map_eq_some_iff.mp found
    refine List.foldlRecOn
      (motive := fun validators : List Validator => ∀ validator ∈ validators, P network validator)
      entries _ (every _ _ held) fun between holds entry _ => ?_
    exact forall_mem_modifyFirst (kept entry.2.exit) holds
  · exact every _ _ found

/-! ### The validators of all nodes -/

namespace Directory

variable {P : Address → String → Validator → Prop} {directory : Directory}

/-- All validators of all nodes have a property. -/
def Every (directory : Directory) (P : Address → String → Validator → Prop) : Prop :=
  ∀ (address : Address) (node : Node), directory.node? address = some node → node.Every (P address)

theorem every_empty : Every {} P := by
  intro address node found
  simp [node?] at found

theorem every_congr {other : Directory} (same : other.nodes = directory.nodes)
    (every : directory.Every P) : other.Every P := by
  unfold Every node?
  rw [same]
  exact every

theorem Every.withWhitelisted (every : directory.Every P) (email : String) (address : Address)
    (position : Nat) : (directory.withWhitelisted email address position).Every P := by
  intro other node found
  simp only [node?, Directory.withWhitelisted, Std.ExtTreeMap.getElem?_insert,
    Std.LawfulEqCmp.compare_eq_iff_eq] at found
  split at found
  · cases found
    intro network validators held
    simp at held
  · exact every other node found

theorem Every.withRegistered (every : directory.Every P) (address : Address) (position : Nat) :
    (directory.withRegistered address position).Every P := by
  intro other node found
  simp only [node?, Directory.withRegistered, Std.ExtTreeMap.getElem?_modify,
    Std.LawfulEqCmp.compare_eq_iff_eq] at found
  split at found
  · rename_i same
    subst same
    obtain ⟨before, held, rfl⟩ := Option.map_eq_some_iff.mp found
    exact Node.every_congr rfl (every address before held)
  · exact every other node found

theorem Every.withNode (every : directory.Every P) {address : Address} {node : Node}
    (new : node.Every (P address)) : (directory.withNode address node).Every P := by
  intro other there found
  rw [node?_withNode] at found
  split at found
  · rename_i same
    subst same
    cases found
    exact new
  · exact every other there found

theorem Every.modifyNodeValidators (every : directory.Every P) {network : String}
    {pubkey : Pubkey} {change : Validator → Validator}
    (kept : ∀ address validator, validator.pubkey = pubkey → P address network validator →
      P address network (change validator)) (address : Address) :
    (directory.modifyNodeValidators network pubkey change address).Every P := by
  intro other node found
  simp only [node?, Directory.modifyNodeValidators, Std.ExtTreeMap.getElem?_modify,
    Std.LawfulEqCmp.compare_eq_iff_eq] at found
  split at found
  · rename_i same
    subst same
    obtain ⟨before, held, rfl⟩ := Option.map_eq_some_iff.mp found
    intro place validators there validator member
    simp only [Std.ExtTreeMap.getElem?_modify, Std.LawfulEqCmp.compare_eq_iff_eq] at there
    split at there
    · rename_i same
      subst same
      obtain ⟨others, inside, rfl⟩ := Option.map_eq_some_iff.mp there
      obtain ⟨old, listed, rfl⟩ := List.mem_map.mp member
      have holds := every address before held network others inside old listed
      split
      · rename_i matching
        exact kept address old matching holds
      · exact holds
    · exact every address before held _ _ there validator member
  · exact every other node found

/-- **Changing the validators with one key** keeps what the change keeps. -/
theorem Every.modifyValidators (every : directory.Every P) {network : String} {pubkey : Pubkey}
    {change : Validator → Validator}
    (kept : ∀ address validator, validator.pubkey = pubkey → P address network validator →
      P address network (change validator)) :
    (directory.modifyValidators network pubkey change).Every P := by
  unfold Directory.modifyValidators
  refine List.foldlRecOn (motive := fun between : Directory => between.Every P) _ _ every
    fun between holds address _ => ?_
  exact holds.modifyNodeValidators kept address

theorem Every.withUsed (every : directory.Every P) {network : String}
    {entries : List (Pubkey × Deposit)}
    (kept : ∀ entry ∈ entries, ∀ address validator, validator.pubkey = entry.1 →
      P address network validator → P address network (markUsed entry.2 validator)) :
    (directory.withUsed network entries).Every P := by
  unfold Directory.withUsed
  refine List.foldlRecOn (motive := fun between : Directory => between.Every P) _ _ every
    fun between holds entry member => ?_
  exact holds.modifyValidators (kept entry member)

theorem Every.withActive (every : directory.Every P) {network : String} {pubkeys : List Pubkey}
    (kept : ∀ address validator, P address network validator →
      P address network { validator with active := true }) :
    (directory.withActive network pubkeys).Every P := by
  unfold Directory.withActive
  refine List.foldlRecOn (motive := fun between : Directory => between.Every P) _ _ every
    fun between holds pubkey _ => ?_
  exact holds.modifyValidators fun address validator _ => kept address validator

/-! ### Deposits that spell the key of their validator -/

/-- The deposit of every validator spells the validator's key. -/
def Genuine (directory : Directory) : Prop :=
  directory.Every fun _ _ validator => validator.deposit.validatorKey = .ok validator.pubkey

/-- The records of a batch, beside their keys. -/
theorem validatorKey_of_mem_zip {batch : List Deposit} {pubkeys : List Pubkey}
    (keys : requireKeys batch = .ok pubkeys) {entry : Pubkey × Deposit}
    (member : entry ∈ pubkeys.zip batch) : entry.2.validatorKey = .ok entry.1 :=
  List.forall₂_iff_zip.mp (requireKeys_eq_ok.mp keys).flip |>.2 member

/-- **A property of validators is kept by every step** if validators that come in with a record of
their key have it, and if exits, published records of their key and marks keep it. -/
theorem Every.step {before after : Directory} (step : Step before after) (every : before.Every P)
    (new : ∀ address pubkey deposit, deposit.validatorKey = .ok pubkey →
      P address deposit.network (.ofDeposit pubkey deposit))
    (exits : ∀ address network exit validator, P address network validator →
      P address network (validator.attachExit exit))
    (used : ∀ address network deposit validator, deposit.validatorKey = .ok validator.pubkey →
      P address network validator → P address network (markUsed deposit validator))
    (active : ∀ address network validator, P address network validator →
      P address network { validator with active := true }) :
    after.Every P := by
  cases step with
  | addUser email fresh => exact every_congr rfl every
  | whitelistNode email address position known free =>
    exact every.withWhitelisted email address position
  | registerNode email address position node known found waiting mine =>
    exact every.withRegistered address position
  | addVault address network fresh => exact every_congr rfl every
  | uploadDeposits address node batch pubkeys found registered keys =>
    refine every.withNode (Node.Every.acceptDeposits (every address node found) ?_)
    intro entry member
    exact new address entry.1 entry.2 ((List.forall₂_iff_zip.mp keys.flip).2 member).1
  | uploadExits address network node batch pubkeys found registered keys =>
    exact every.withNode (Node.Every.attachExits (every address node found) (exits address network))
  | handToVault address network batch pubkeys vault keys found => exact every_congr rfl every
  | publishSet address network batch pubkeys vault found keys =>
    have marked : (before.withUsed network (pubkeys.zip batch)).Every P := by
      refine every.withUsed fun entry member address validator same holds => ?_
      refine used address network entry.2 validator ?_ holds
      rw [same]
      exact validatorKey_of_mem_zip keys member
    exact every_congr rfl marked
  | markActive address network batch pubkeys vault found keys =>
    exact every.withActive fun address => active address network

/-- **Every step keeps deposits and keys together.** -/
theorem Genuine.step {before after : Directory} (step : Step before after)
    (genuine : Genuine before) : Genuine after :=
  Every.step step genuine (fun _ _ _ key => key) (fun _ _ _ _ holds => holds)
    (fun _ _ _ _ key _ => key) fun _ _ _ holds => holds

end Directory

end StakingDirectory
