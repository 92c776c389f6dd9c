/-
**The validators that a node holds on a network.**

What the directory says about validators hangs on the lists of validators that nodes hold on
networks, and on the order of the registered nodes:

* `validatorsAt` is the list of a node, empty where the node or the network is not known;
* `findValidator_eq` finds validators through these lists;
* every change of the directory does to them what is said here once: most leave them alone, an
  upload makes the list of one node longer (`validatorsAt_acceptDeposits`), exits change one node's
  list in place, and sets and marks change the validators with some keys in the lists of all
  registered nodes (`validatorsAt_modifyEach`).
-/

import StakingDirectory.Directory.Standing
import StakingDirectory.Proofs.Directory.Holdings

namespace StakingDirectory

/-! ### One node -/

namespace Node

/-- The validators that a node holds on a network. -/
def held (node : Node) (network : String) : List Validator :=
  (node.validators[network]?).getD []

theorem validator?_eq (node : Node) (network : String) (pubkey : Pubkey) :
    node.validator? network pubkey =
      (node.held network).find? fun validator => validator.pubkey = pubkey := by
  unfold validator? held
  cases node.validators[network]? <;> rfl

theorem hasValidator_iff {node : Node} {network : String} {pubkey : Pubkey} :
    node.hasValidator network pubkey = true ↔
      pubkey ∈ (node.held network).map Validator.pubkey := by
  rw [hasValidator, validator?_eq, List.find?_isSome, List.mem_map]
  simp

end Node

/-- A list of validators after records were taken in: those for new keys come last. -/
def Validator.accepted (held : List Validator) (entries : List (Pubkey × Deposit)) :
    List Validator :=
  entries.foldl
    (fun held entry =>
      if entry.1 ∈ held.map Validator.pubkey then held else held ++ [.ofDeposit entry.1 entry.2])
    held

namespace Node

theorem held_acceptDeposit (node : Node) (pubkey : Pubkey) (deposit : Deposit) (network : String) :
    (node.acceptDeposit pubkey deposit).1.held network =
      if deposit.network = network then Validator.accepted (node.held network) [(pubkey, deposit)]
      else node.held network := by
  unfold acceptDeposit
  by_cases known : node.hasValidator deposit.network pubkey = true
  · rw [if_pos known]
    split
    · rename_i same
      subst same
      simp only [Validator.accepted, List.foldl_cons, List.foldl_nil,
        if_pos (hasValidator_iff.mp known)]
    · rfl
  · rw [if_neg known]
    have fresh := fun member => known (hasValidator_iff.mpr member)
    simp only [held, Std.ExtTreeMap.getElem?_insert, Std.LawfulEqCmp.compare_eq_iff_eq]
    split
    · rename_i same
      subst same
      simp only [held] at fresh
      simp only [Validator.accepted, List.foldl_cons, List.foldl_nil, if_neg fresh,
        Option.getD_some]
    · rfl

/-- **Records are taken in network by network**, and each list keeps what it has. -/
theorem held_acceptDeposits (node : Node) (entries : List (Pubkey × Deposit)) (network : String) :
    (node.acceptDeposits entries).1.held network =
      Validator.accepted (node.held network)
        (entries.filter fun entry => entry.2.network = network) := by
  have folded : ∀ (entries : List (Pubkey × Deposit)) (progress : Node × Nat),
      (entries.foldl (fun progress entry =>
        ((progress.1.acceptDeposit entry.1 entry.2).1,
          progress.2 + (progress.1.acceptDeposit entry.1 entry.2).2)) progress).1.held network =
      Validator.accepted (progress.1.held network)
        (entries.filter fun entry => entry.2.network = network) := by
    intro entries
    induction entries with
    | nil => exact fun _ => rfl
    | cons entry rest ih =>
      intro progress
      rw [List.foldl_cons, ih, held_acceptDeposit]
      by_cases same : entry.2.network = network
      · rw [if_pos same, List.filter_cons_of_pos (by simpa using same)]
        rfl
      · rw [if_neg same, List.filter_cons_of_neg (by simpa using same)]
  exact folded entries (node, 0)

theorem held_attachExits (node : Node) (network : String) (entries : List (Pubkey × ExitEntry))
    (other : String) :
    (node.attachExits network entries).held other =
      if network = other then
        entries.foldl
          (fun validators entry =>
            modifyFirst (fun validator => validator.pubkey = entry.1) (·.attachExit entry.2.exit)
              validators)
          (node.held other)
      else node.held other := by
  simp only [held, attachExits, Std.ExtTreeMap.getElem?_modify,
    Std.LawfulEqCmp.compare_eq_iff_eq]
  split
  · rename_i same
    subst same
    cases node.validators[network]? with
    | some validators => rfl
    | none =>
      -- Where the node holds nothing, there is nothing to attach exits to.
      refine (List.foldlRecOn (motive := fun validators : List Validator => validators = [])
        entries _ rfl fun between empty entry _ => ?_).symm
      rw [empty]
      rfl
  · rfl

end Node

/-! ### All nodes -/

namespace Directory

/-- The validators that the node at an address holds on a network. -/
def validatorsAt (directory : Directory) (address : Address) (network : String) :
    List Validator :=
  ((directory.node? address).map (·.held network)).getD []

variable {directory : Directory}

theorem validatorsAt_of_node? {address : Address} {node : Node}
    (found : directory.node? address = some node) (network : String) :
    directory.validatorsAt address network = node.held network := by
  rw [validatorsAt, found]
  rfl

/-- A validator that is held is one of a node. -/
theorem mem_validatorsAt {address : Address} {network : String} {validator : Validator} :
    validator ∈ directory.validatorsAt address network ↔
      ∃ node, directory.node? address = some node ∧ ∃ validators,
        node.validators[network]? = some validators ∧ validator ∈ validators := by
  unfold validatorsAt
  cases directory.node? address with
  | none => simp
  | some node => cases found : node.validators[network]? <;> simp [Node.held, found]

theorem Every.validatorsAt {P : Address → String → Validator → Prop} (every : directory.Every P)
    {address : Address} {network : String} {validator : Validator}
    (member : validator ∈ directory.validatorsAt address network) : P address network validator := by
  obtain ⟨node, found, validators, there, inside⟩ := mem_validatorsAt.mp member
  exact every address node found network validators there validator inside

/-- **A validator is found in the first list that has its key.** -/
theorem findValidator_eq (directory : Directory) (network : String) (pubkey : Pubkey) :
    directory.findValidator network pubkey =
      directory.registeredAddresses.findSome? fun address =>
        (directory.validatorsAt address network).find? fun validator =>
          validator.pubkey = pubkey := by
  unfold findValidator
  induction directory.registeredAddresses with
  | nil => rfl
  | cons address rest ih =>
    rw [List.findSome?_cons, ← ih, validatorsAt]
    cases found : directory.node? address with
    | none => rw [List.filterMap_cons_none found, Option.map_none, Option.getD_none, List.find?_nil]
    | some node =>
      rw [List.filterMap_cons_some found, List.findSome?_cons, node.validator?_eq]
      rfl

/-! ### Changes that leave the lists alone -/

theorem validatorsAt_congr {other : Directory} (same : other.nodes = directory.nodes)
    (address : Address) (network : String) :
    other.validatorsAt address network = directory.validatorsAt address network := by
  unfold validatorsAt node?
  rw [same]

theorem validatorsAt_withWhitelisted {address : Address} (free : directory.node? address = none)
    (email : String) (position : Nat) (other : Address) (network : String) :
    (directory.withWhitelisted email address position).validatorsAt other network =
      directory.validatorsAt other network := by
  unfold validatorsAt
  simp only [node?, withWhitelisted, Std.ExtTreeMap.getElem?_insert,
    Std.LawfulEqCmp.compare_eq_iff_eq]
  split
  · rename_i same
    subst same
    have nowhere : directory.nodes[address]? = none := free
    rw [nowhere]
    simp [Node.held]
  · rfl

theorem validatorsAt_withRegistered (address : Address) (position : Nat) (other : Address)
    (network : String) :
    (directory.withRegistered address position).validatorsAt other network =
      directory.validatorsAt other network := by
  unfold validatorsAt
  simp only [node?, withRegistered, Std.ExtTreeMap.getElem?_modify,
    Std.LawfulEqCmp.compare_eq_iff_eq]
  split
  · rename_i same
    subst same
    rw [Option.map_map]
    rfl
  · rfl

/-! ### Uploads -/

theorem validatorsAt_withNode (address : Address) (node : Node) (other : Address)
    (network : String) :
    (directory.withNode address node).validatorsAt other network =
      if address = other then node.held network else directory.validatorsAt other network := by
  unfold validatorsAt
  rw [node?_withNode]
  split <;> rfl

/-- **An upload changes the lists of one node**, each by the records for its network. -/
theorem validatorsAt_acceptDeposits {address : Address} {node : Node}
    (found : directory.node? address = some node) (entries : List (Pubkey × Deposit))
    (other : Address) (network : String) :
    (directory.withNode address (node.acceptDeposits entries).1).validatorsAt other network =
      if address = other then
        Validator.accepted (directory.validatorsAt other network)
          (entries.filter fun entry => entry.2.network = network)
      else directory.validatorsAt other network := by
  rw [validatorsAt_withNode, Node.held_acceptDeposits]
  split
  · rename_i same
    subst same
    rw [validatorsAt_of_node? found]
  · rfl

end Directory

/-! ### Changes of the validators with some keys -/

/-- A validator after a change that is made if it has this key. -/
def Validator.changeFor (pubkey : Pubkey) (change : Validator → Validator)
    (validator : Validator) : Validator :=
  if validator.pubkey = pubkey then change validator else validator

/-- A validator after changes in turn, each of which is made if it has its key. -/
def Validator.changed (changes : List (Pubkey × (Validator → Validator)))
    (validator : Validator) : Validator :=
  changes.foldl (fun validator change => validator.changeFor change.1 change.2) validator

/-- Changes for other keys leave a validator alone. -/
theorem Validator.changed_of_not_mem {changes : List (Pubkey × (Validator → Validator))}
    {validator : Validator} (other : validator.pubkey ∉ changes.map Prod.fst) :
    validator.changed changes = validator := by
  induction changes with
  | nil => rfl
  | cons change rest ih =>
    rw [List.map_cons, List.mem_cons, not_or] at other
    show (validator.changeFor change.1 change.2).changed rest = validator
    rw [changeFor, if_neg other.1, ih other.2]

/-- **Changes that undo each other** leave what the last one for the key makes of a validator. -/
theorem Validator.changed_eq_last {δ : Type} (change : δ → Validator → Validator)
    (keeps : ∀ item validator, (change item validator).pubkey = validator.pubkey)
    (undoes : ∀ later earlier validator,
      change later (change earlier validator) = change later validator)
    (entries : List (Pubkey × δ)) (validator : Validator) :
    validator.changed (entries.map fun entry => (entry.1, change entry.2)) =
      (((entries.filter fun entry => entry.1 = validator.pubkey).map Prod.snd).getLast?).elim
        validator fun item => change item validator := by
  induction entries generalizing validator with
  | nil => rfl
  | cons entry rest ih =>
    show (validator.changeFor entry.1 (change entry.2)).changed (rest.map _) = _
    rw [changeFor]
    by_cases same : validator.pubkey = entry.1
    · rw [if_pos same, ih, keeps, List.filter_cons_of_pos (by simpa using same.symm),
        List.map_cons, List.getLast?_cons]
      -- A later change for the key takes the place of this one.
      cases ((rest.filter fun other => other.1 = validator.pubkey).map Prod.snd).getLast? with
      | none => rfl
      | some later => exact undoes later entry.2 validator
    · rw [if_neg same, ih, List.filter_cons_of_neg (by simpa using Ne.symm same)]

/-- **A flag that all changes set** is set afterwards if it was before, or one of them was made. -/
theorem Validator.flag_changed (flag : Validator → Bool)
    {changes : List (Pubkey × (Validator → Validator))}
    (sets : ∀ change ∈ changes, ∀ validator, flag (change.2 validator) = true)
    (validator : Validator) :
    flag (validator.changed changes) = true ↔
      flag validator = true ∨ validator.pubkey ∈ changes.map Prod.fst := by
  induction changes generalizing validator with
  | nil => simp [changed]
  | cons change rest ih =>
    have later := ih fun other member => sets other (List.mem_cons_of_mem _ member)
    show flag ((validator.changeFor change.1 change.2).changed rest) = true ↔ _
    rw [later, List.map_cons, List.mem_cons, changeFor]
    by_cases same : validator.pubkey = change.1
    · rw [if_pos same]
      exact iff_of_true (.inl (sets change List.mem_cons_self validator)) (.inr (.inl same))
    · rw [if_neg same, or_iff_right same]

/-- A change that keeps the key and does nothing more when it is made again. -/
def Validator.Settles (change : Validator → Validator) : Prop :=
  ∀ validator, (change validator).pubkey = validator.pubkey ∧
    change (change validator) = change validator

theorem Validator.Settles.changeFor {change : Validator → Validator}
    (settles : Validator.Settles change) (pubkey : Pubkey) (validator : Validator) :
    (validator.changeFor pubkey change).changeFor pubkey change =
      validator.changeFor pubkey change := by
  unfold Validator.changeFor
  by_cases same : validator.pubkey = pubkey
  · rw [if_pos same, if_pos ((settles validator).1.trans same), (settles validator).2]
  · rw [if_neg same, if_neg same]

theorem Validator.settles_markUsed (deposit : Deposit) :
    Validator.Settles (Directory.markUsed deposit) :=
  fun _ => ⟨rfl, rfl⟩

/-- A validator that is marked as active. -/
def Validator.activated (validator : Validator) : Validator :=
  { validator with active := true }

theorem Validator.settles_activated : Validator.Settles Validator.activated :=
  fun _ => ⟨rfl, rfl⟩

/-- A validator after a set was published. -/
def Validator.published (entries : List (Pubkey × Deposit)) : Validator → Validator :=
  Validator.changed (entries.map fun entry => (entry.1, Directory.markUsed entry.2))

/-- A validator after the validators with some keys were marked as active. -/
def Validator.confirmed (pubkeys : List Pubkey) : Validator → Validator :=
  Validator.changed (pubkeys.map fun pubkey => (pubkey, Validator.activated))

namespace Validator

/-- A set leaves validators with other keys alone. -/
theorem published_of_not_mem {entries : List (Pubkey × Deposit)} {validator : Validator}
    (other : validator.pubkey ∉ entries.map Prod.fst) : validator.published entries = validator :=
  changed_of_not_mem (by rw [List.map_map]; exact other)

theorem used_published (entries : List (Pubkey × Deposit)) (validator : Validator) :
    (validator.published entries).used = true ↔
      validator.used = true ∨ validator.pubkey ∈ entries.map Prod.fst := by
  refine (flag_changed used ?_ validator).trans (by rw [List.map_map]; rfl)
  exact List.forall_mem_map.mpr fun _ _ _ => rfl

theorem active_confirmed (pubkeys : List Pubkey) (validator : Validator) :
    (validator.confirmed pubkeys).active = true ↔
      validator.active = true ∨ validator.pubkey ∈ pubkeys := by
  refine (flag_changed active ?_ validator).trans ?_
  · exact List.forall_mem_map.mpr fun _ _ _ => rfl
  · rw [List.map_map, show (Prod.fst ∘ fun pubkey : Pubkey => (pubkey, activated)) = id from rfl,
      List.map_id]

end Validator

namespace Directory

variable {directory : Directory}

theorem validatorsAt_modifyNodeValidators (directory : Directory) (network : String)
    (pubkey : Pubkey) (change : Validator → Validator) (address other : Address)
    (place : String) :
    (directory.modifyNodeValidators network pubkey change address).validatorsAt other place =
      if address = other ∧ network = place then
        (directory.validatorsAt other place).map (Validator.changeFor pubkey change)
      else directory.validatorsAt other place := by
  unfold validatorsAt
  simp only [node?, modifyNodeValidators, Std.ExtTreeMap.getElem?_modify,
    Std.LawfulEqCmp.compare_eq_iff_eq]
  by_cases here : address = other
  · subst here
    rw [if_pos rfl]
    simp only [true_and]
    cases directory.nodes[address]? with
    | none => simp
    | some node =>
      simp only [Option.map_some, Option.getD_some, Node.held, Std.ExtTreeMap.getElem?_modify,
        Std.LawfulEqCmp.compare_eq_iff_eq]
      split
      · rename_i same
        subst same
        cases node.validators[network]? <;> rfl
      · rfl
  · rw [if_neg here, if_neg fun both => here both.1]

/-- The directory after changes of the validators with some keys, in turn. -/
def modifyEach (directory : Directory) (network : String)
    (changes : List (Pubkey × (Validator → Validator))) : Directory :=
  changes.foldl (fun directory change => directory.modifyValidators network change.1 change.2)
    directory

theorem withUsed_eq (directory : Directory) (network : String)
    (entries : List (Pubkey × Deposit)) :
    directory.withUsed network entries =
      directory.modifyEach network (entries.map fun entry => (entry.1, markUsed entry.2)) := by
  unfold withUsed modifyEach
  rw [List.foldl_map]

theorem withActive_eq (directory : Directory) (network : String) (pubkeys : List Pubkey) :
    directory.withActive network pubkeys =
      directory.modifyEach network (pubkeys.map fun pubkey => (pubkey, Validator.activated)) := by
  unfold withActive modifyEach
  rw [List.foldl_map]
  rfl

theorem registeredAddresses_congr {other : Directory} (same : other.users = directory.users) :
    other.registeredAddresses = directory.registeredAddresses := by
  unfold registeredAddresses
  rw [same]

/-- The nodes are gone through one by one, and a node that comes twice is changed once. -/
theorem validatorsAt_modifyValidators {change : Validator → Validator}
    (settles : Validator.Settles change) (directory : Directory) (network : String)
    (pubkey : Pubkey) (other : Address) (place : String) :
    (directory.modifyValidators network pubkey change).validatorsAt other place =
      if other ∈ directory.registeredAddresses ∧ network = place then
        (directory.validatorsAt other place).map (Validator.changeFor pubkey change)
      else directory.validatorsAt other place := by
  unfold modifyValidators
  generalize directory.registeredAddresses = addresses
  induction addresses generalizing directory with
  | nil => simp
  | cons address rest ih =>
    rw [List.foldl_cons, ih, validatorsAt_modifyNodeValidators]
    by_cases here : network = place
    · by_cases first : address = other
      · subst first
        have again : Validator.changeFor pubkey change ∘ Validator.changeFor pubkey change =
            Validator.changeFor pubkey change := funext (settles.changeFor pubkey)
        simp only [here, and_true, List.mem_cons, true_or, if_true, List.map_map, again, ite_self]
      · have skip : other ∈ address :: rest ↔ other ∈ rest := by
          simp only [List.mem_cons, or_iff_right (Ne.symm first)]
        simp only [first, false_and, if_false, skip]
    · simp only [here, and_false, if_false]

/-- **Changes of the validators with some keys** are made in the lists of all registered nodes. -/
theorem validatorsAt_modifyEach {changes : List (Pubkey × (Validator → Validator))}
    (settle : ∀ change ∈ changes, Validator.Settles change.2) (directory : Directory)
    (network : String) (other : Address) (place : String) :
    (directory.modifyEach network changes).validatorsAt other place =
      if other ∈ directory.registeredAddresses ∧ network = place then
        (directory.validatorsAt other place).map (Validator.changed changes)
      else directory.validatorsAt other place := by
  unfold modifyEach
  induction changes generalizing directory with
  | nil =>
    have still : (fun validator : Validator => validator.changed []) = id := rfl
    simp only [List.foldl_nil, still, List.map_id, ite_self]
  | cons change rest ih =>
    have same := registeredAddresses_congr
      (onlyNodes_modifyValidators directory network change.1 change.2).users
    rw [List.foldl_cons, ih (fun later member => settle later (List.mem_cons_of_mem _ member)),
      validatorsAt_modifyValidators (settle change List.mem_cons_self), same]
    split
    · rw [List.map_map]
      rfl
    · rfl

theorem validatorsAt_withUsed (directory : Directory) (network : String)
    (entries : List (Pubkey × Deposit)) (other : Address) (place : String) :
    (directory.withUsed network entries).validatorsAt other place =
      if other ∈ directory.registeredAddresses ∧ network = place then
        (directory.validatorsAt other place).map (Validator.published entries)
      else directory.validatorsAt other place := by
  rw [withUsed_eq]
  refine validatorsAt_modifyEach ?_ directory network other place
  exact List.forall_mem_map.mpr fun entry _ => Validator.settles_markUsed entry.2

theorem validatorsAt_withActive (directory : Directory) (network : String)
    (pubkeys : List Pubkey) (other : Address) (place : String) :
    (directory.withActive network pubkeys).validatorsAt other place =
      if other ∈ directory.registeredAddresses ∧ network = place then
        (directory.validatorsAt other place).map (Validator.confirmed pubkeys)
      else directory.validatorsAt other place := by
  rw [withActive_eq]
  refine validatorsAt_modifyEach ?_ directory network other place
  exact List.forall_mem_map.mpr fun _ _ => Validator.settles_activated

end Directory

end StakingDirectory
