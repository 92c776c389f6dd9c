/-
**Directories only grow.**

No operation takes a validator, a vault or a registration away:

* `Validator.Advances` compares a validator with what it was earlier: key and vault stay, flags are
  only set, and the deposit stays until it is used;
* `Step.grown`: a step keeps the validators of every list in their order, where they advance, and
  puts new ones behind them;
* `Step.vaultStep` says what a step can do to a vault, which keeps the keys that were handed to it
  (`Step.vault_grows`), and `Step.registered_split` that registered nodes keep their order;
* `Sound` collects what hence holds of all directories that can come about: a node holds a key once
  on a network, only registered nodes hold any, the vault of a validator exists, and a validator that
  is not used has the deposit that was handed in for it.
-/

import Mathlib.Data.List.Flatten
import StakingDirectory.Proofs.Directory.Ownership
import StakingDirectory.Proofs.Directory.Validators

namespace StakingDirectory

/-! ### Validators -/

/-- What a validator can have become. -/
structure Validator.Advances (before after : Validator) : Prop where
  pubkey : after.pubkey = before.pubkey
  vault : after.vault = before.vault
  used : before.used = true → after.used = true
  exitUploaded : before.exitUploaded = true → after.exitUploaded = true
  active : before.active = true → after.active = true
  deposit : after.used = false → after.deposit = before.deposit

namespace Validator

theorem Advances.refl (validator : Validator) : Advances validator validator :=
  ⟨rfl, rfl, id, id, id, fun _ => rfl⟩

/-- What is not used was not used before. -/
theorem Advances.unused {before after : Validator} (advances : Advances before after)
    (unused : after.used = false) : before.used = false := by
  by_contra used
  rw [advances.used (by simpa using used)] at unused
  cases unused

theorem Advances.trans {first second third : Validator} (earlier : Advances first second)
    (later : Advances second third) : Advances first third where
  pubkey := later.pubkey.trans earlier.pubkey
  vault := later.vault.trans earlier.vault
  used := later.used ∘ earlier.used
  exitUploaded := later.exitUploaded ∘ earlier.exitUploaded
  active := later.active ∘ earlier.active
  deposit unused := by rw [later.deposit unused, earlier.deposit (later.unused unused)]

theorem advances_attachExit (exit : SignedExit) (validator : Validator) :
    Advances validator (validator.attachExit exit) :=
  ⟨rfl, rfl, id, fun _ => rfl, id, fun _ => rfl⟩

theorem advances_markUsed (deposit : Deposit) (validator : Validator) :
    Advances validator (Directory.markUsed deposit validator) where
  pubkey := rfl
  vault := rfl
  used _ := rfl
  exitUploaded := id
  active := id
  deposit unused := by cases unused

theorem advances_activated (validator : Validator) : Advances validator validator.activated :=
  ⟨rfl, rfl, id, id, fun _ => rfl, fun _ => rfl⟩

/-- Changes under which validators advance, in turn. -/
theorem advances_changed {changes : List (Pubkey × (Validator → Validator))}
    (advance : ∀ change ∈ changes, ∀ validator, Advances validator (change.2 validator))
    (validator : Validator) : Advances validator (validator.changed changes) := by
  unfold changed
  refine List.foldlRecOn (motive := Advances validator) changes _ (Advances.refl validator)
    fun between further change member => ?_
  unfold changeFor
  split
  · exact further.trans (advance change member between)
  · exact further

theorem advances_published (entries : List (Pubkey × Deposit)) (validator : Validator) :
    Advances validator (validator.published entries) :=
  advances_changed (List.forall_mem_map.mpr fun entry _ => advances_markUsed entry.2) validator

theorem advances_confirmed (pubkeys : List Pubkey) (validator : Validator) :
    Advances validator (validator.confirmed pubkeys) :=
  advances_changed (List.forall_mem_map.mpr fun _ _ => advances_activated) validator

/-- Taking in records adds validators with new keys, which are different. -/
theorem accepted_eq_append (held : List Validator) (entries : List (Pubkey × Deposit)) :
    ∃ new, accepted held entries = held ++ new ∧ (new.map pubkey).Nodup ∧
      ∀ validator ∈ new, validator.pubkey ∉ held.map pubkey ∧
        ∃ entry ∈ entries, validator = .ofDeposit entry.1 entry.2 := by
  induction entries generalizing held with
  | nil => exact ⟨[], (List.append_nil held).symm, List.nodup_nil, by simp⟩
  | cons entry rest ih =>
    show ∃ new, accepted (if entry.1 ∈ held.map pubkey then held
      else held ++ [.ofDeposit entry.1 entry.2]) rest = _ ∧ _
    split
    · obtain ⟨new, same, distinct, fresh⟩ := ih held
      refine ⟨new, same, distinct, fun validator member => ?_⟩
      obtain ⟨unknown, source, inside, equal⟩ := fresh validator member
      exact ⟨unknown, source, List.mem_cons_of_mem _ inside, equal⟩
    · rename_i unknown
      obtain ⟨new, same, distinct, fresh⟩ := ih (held ++ [.ofDeposit entry.1 entry.2])
      refine ⟨.ofDeposit entry.1 entry.2 :: new, ?_, ?_, ?_⟩
      · rw [same, List.append_assoc, List.singleton_append]
      · rw [List.map_cons, List.nodup_cons]
        refine ⟨fun again => ?_, distinct⟩
        obtain ⟨validator, member, equal⟩ := List.mem_map.mp again
        refine (fresh validator member).1 ?_
        rw [equal, List.map_append]
        exact List.mem_append_right _ List.mem_cons_self
      · intro validator member
        rcases List.mem_cons.mp member with rfl | later
        · exact ⟨unknown, entry, List.mem_cons_self, rfl⟩
        · obtain ⟨outside, source, inside, equal⟩ := fresh validator later
          rw [List.map_append] at outside
          exact ⟨fun before => outside (List.mem_append_left _ before), source,
            List.mem_cons_of_mem _ inside, equal⟩

end Validator

/-- Items are related to those that are left after the first one with a property was changed. -/
theorem forall₂_modifyFirst {α : Type} {R : α → α → Prop} (refl : ∀ item, R item item)
    {has : α → Bool} {change : α → α} (changed : ∀ item, R item (change item)) (items : List α) :
    List.Forall₂ R items (modifyFirst has change items) := by
  induction items with
  | nil => exact .nil
  | cons first rest ih =>
    unfold modifyFirst
    split
    · exact .cons (changed first) (List.forall₂_same.mpr fun item _ => refl item)
    · exact .cons (refl first) ih

/-- Lists of validators that advance one by one. -/
abbrev Validator.AllAdvance : List Validator → List Validator → Prop :=
  List.Forall₂ Validator.Advances

namespace Validator

theorem allAdvance_refl (validators : List Validator) : AllAdvance validators validators :=
  List.forall₂_same.mpr fun validator _ => Advances.refl validator

theorem AllAdvance.trans {first second third : List Validator} (earlier : AllAdvance first second)
    (later : AllAdvance second third) : AllAdvance first third := by
  induction earlier generalizing third with
  | nil =>
    cases later
    exact .nil
  | cons head _ ih =>
    cases later with
    | cons head' rest => exact .cons (head.trans head') (ih rest)

theorem allAdvance_map {change : Validator → Validator}
    (advance : ∀ validator, Advances validator (change validator)) (validators : List Validator) :
    AllAdvance validators (validators.map change) :=
  List.forall₂_map_right_iff.mpr (List.forall₂_same.mpr fun validator _ => advance validator)

theorem AllAdvance.map_pubkey {before after : List Validator} (advance : AllAdvance before after) :
    after.map pubkey = before.map pubkey := by
  induction advance with
  | nil => rfl
  | cons head _ ih => rw [List.map_cons, List.map_cons, ih, head.pubkey]

theorem AllAdvance.exists_of_mem {before after : List Validator}
    (advance : AllAdvance before after) {validator : Validator} (member : validator ∈ before) :
    ∃ later ∈ after, validator.Advances later := by
  induction advance with
  | nil => cases member
  | cons head _ ih =>
    rcases List.mem_cons.mp member with rfl | inside
    · exact ⟨_, List.mem_cons_self, head⟩
    · obtain ⟨later, there, further⟩ := ih inside
      exact ⟨later, List.mem_cons_of_mem _ there, further⟩

theorem AllAdvance.exists_of_mem_right {before after : List Validator}
    (advance : AllAdvance before after) {validator : Validator} (member : validator ∈ after) :
    ∃ old ∈ before, old.Advances validator := by
  induction advance with
  | nil => cases member
  | cons head _ ih =>
    rcases List.mem_cons.mp member with rfl | inside
    · exact ⟨_, List.mem_cons_self, head⟩
    · obtain ⟨old, there, further⟩ := ih inside
      exact ⟨old, List.mem_cons_of_mem _ there, further⟩

/-- The validators of a node advance when exits are attached to them. -/
theorem allAdvance_attachExits (node : Node) (network : String)
    (entries : List (Pubkey × ExitEntry)) (other : String) :
    AllAdvance (node.held other) ((node.attachExits network entries).held other) := by
  rw [Node.held_attachExits]
  split
  · refine List.foldlRecOn (motive := AllAdvance (node.held other)) _ _ (allAdvance_refl _)
      fun between advance entry _ => ?_
    exact advance.trans
      (forall₂_modifyFirst Advances.refl (advances_attachExit entry.2.exit) between)
  · exact allAdvance_refl _

/-- The validator that is found by a key advances. -/
theorem AllAdvance.find? {before after : List Validator} (advance : AllAdvance before after)
    (key : Pubkey) :
    Option.Rel Advances (before.find? fun validator => validator.pubkey = key)
      (after.find? fun validator => validator.pubkey = key) := by
  induction advance with
  | nil => exact .none
  | @cons first first' rest rest' head _ ih =>
    by_cases same : first.pubkey = key
    · rw [List.find?_cons_of_pos (by simpa using same),
        List.find?_cons_of_pos (by simpa [head.pubkey] using same)]
      exact .some head
    · rw [List.find?_cons_of_neg (by simpa using same),
        List.find?_cons_of_neg (by simpa [head.pubkey] using same)]
      exact ih

end Validator

/-! ### Vaults -/

theorem Vault.mem_withUploaded {vault : Vault} {pubkeys : List Pubkey} {pubkey : Pubkey} :
    pubkey ∈ (vault.withUploaded pubkeys).uploaded ↔
      pubkey ∈ vault.uploaded ∨ pubkey ∈ pubkeys := by
  unfold Vault.withUploaded
  simp only
  generalize vault.uploaded = uploaded
  induction pubkeys generalizing uploaded with
  | nil => simp
  | cons first rest ih =>
    rw [List.foldl_cons, ih, Std.ExtTreeSet.mem_insert, List.mem_cons,
      Std.LawfulEqCmp.compare_eq_iff_eq]
    constructor
    · rintro ((rfl | before) | later)
      · exact .inr (.inl rfl)
      · exact .inl before
      · exact .inr (.inr later)
    · rintro (before | rfl | later)
      · exact .inl (.inr before)
      · exact .inl (.inl rfl)
      · exact .inr later

namespace Directory

variable {directory : Directory}

theorem vault?_withVault {address : Address} {network : String} {before : Vault}
    (found : directory.vault? address network = some before) (vault : Vault) (other : Address)
    (place : String) :
    (directory.withVault address network vault).vault? other place =
      if address = other ∧ network = place then some vault
      else directory.vault? other place := by
  unfold vault? at found ⊢
  simp only [withVault, Std.ExtTreeMap.getElem?_modify, Std.LawfulEqCmp.compare_eq_iff_eq]
  by_cases same : network = place
  · subst same
    rw [if_pos rfl]
    cases held : directory.vaults[network]? with
    | none =>
      rw [held] at found
      cases found
    | some vaults =>
      simp [Std.ExtTreeMap.getElem?_insert]
  · rw [if_neg same, if_neg fun both => same both.2]

theorem vault?_withNewVault (directory : Directory) (address : Address) (network : String)
    (other : Address) (place : String) :
    (directory.withNewVault address network).vault? other place =
      if address = other ∧ network = place then some { address, network }
      else directory.vault? other place := by
  unfold vault?
  simp only [withNewVault, Std.ExtTreeMap.getElem?_insert, Std.LawfulEqCmp.compare_eq_iff_eq]
  by_cases same : network = place
  · subst same
    cases held : directory.vaults[network]? <;> simp [Std.ExtTreeMap.getElem?_insert]
  · rw [if_neg same, if_neg fun both => same both.2]

theorem vault?_congr {other : Directory} (same : other.vaults = directory.vaults)
    (address : Address) (network : String) :
    other.vault? address network = directory.vault? address network := by
  unfold vault?
  rw [same]

theorem vault?_withPublished {address : Address} {network : String} {before : Vault}
    (found : directory.vault? address network = some before) (batch : List Deposit)
    (vault : Vault) (pubkeys : List Pubkey) (other : Address) (place : String) :
    (directory.withPublished address network batch vault pubkeys).vault? other place =
      if address = other ∧ network = place then some (vault.withPublished batch)
      else directory.vault? other place := by
  have marked := vault?_congr (onlyNodes_withUsed directory network (pubkeys.zip batch)).vaults
  rw [withPublished, vault?_withVault ((marked address network).trans found), marked]

theorem vault?_withCycled {address : Address} {network : String} {before : Vault}
    (found : directory.vault? address network = some before) (batch : List Deposit)
    (vault : Vault) (pubkeys : List Pubkey) (other : Address) (place : String) :
    (directory.withCycled address network batch vault pubkeys).vault? other place =
      if address = other ∧ network = place then
        some ((vault.withUploaded pubkeys).withPublished batch)
      else directory.vault? other place := by
  have handed := vault?_withVault found (vault.withUploaded pubkeys)
  have there := handed address network
  rw [if_pos ⟨rfl, rfl⟩] at there
  rw [withCycled, vault?_withPublished there, handed]
  split <;> rfl

/-- What a step can do to what stands at an address on a network. -/
inductive VaultStep (address : Address) (network : String) : Option Vault → Option Vault → Prop
  | same (vault : Option Vault) : VaultStep address network vault vault
  | added : VaultStep address network none (some { address, network })
  | handed (vault : Vault) (pubkeys : List Pubkey) :
      VaultStep address network (some vault) (some (vault.withUploaded pubkeys))
  | published (vault : Vault) (batch : List Deposit) :
      VaultStep address network (some vault) (some (vault.withPublished batch))

/-- **A vault comes in, is handed keys, or has a set published**; nothing else happens to vaults. -/
theorem Step.vaultStep {before after : Directory} (step : Step before after) (address : Address)
    (network : String) :
    VaultStep address network (before.vault? address network) (after.vault? address network) := by
  have same : after.vaults = before.vaults →
      VaultStep address network (before.vault? address network) (after.vault? address network) :=
    fun same => vault?_congr same address network ▸ .same _
  -- What stands at one address is replaced.
  have replaced : ∀ {other place old new there}, before.vault? other place = old →
      VaultStep other place old new →
      there = (if other = address ∧ place = network then new
        else before.vault? address network) →
      VaultStep address network (before.vault? address network) there := by
    rintro other place old new there rfl changed rfl
    split
    · rename_i here
      obtain ⟨rfl, rfl⟩ := here
      exact changed
    · exact .same _
  cases step with
  | addVault other place fresh =>
    exact replaced fresh .added (vault?_withNewVault before other place address network)
  | handToVault other place batch pubkeys old keys there =>
    exact replaced there (.handed old pubkeys) (vault?_withVault there _ address network)
  | publishSet other place batch pubkeys old there keys =>
    exact replaced there (.published old batch)
      (vault?_withPublished there batch old pubkeys address network)
  | markActive other place batch pubkeys old there keys =>
    exact same (onlyNodes_withActive before place pubkeys).vaults
  | addUser | whitelistNode | registerNode | uploadDeposits | uploadExits => exact same rfl

/-- **Vaults stay**, and keep the keys that were handed to them. -/
theorem Step.vault_grows {before after : Directory} (step : Step before after) {address : Address}
    {network : String} {vault : Vault} (found : before.vault? address network = some vault) :
    ∃ later, after.vault? address network = some later ∧
      ∀ pubkey ∈ vault.uploaded, pubkey ∈ later.uploaded := by
  have changed := step.vaultStep address network
  rw [found] at changed
  generalize after.vault? address network = there at changed ⊢
  cases changed with
  | same => exact ⟨vault, rfl, fun _ => id⟩
  | handed _ pubkeys =>
    exact ⟨_, rfl, fun pubkey member => Vault.mem_withUploaded.mpr (.inl member)⟩
  | published _ batch => exact ⟨_, rfl, fun _ => id⟩

/-! ### Registered nodes -/

theorem flatMap_modify {α β : Type} (part : α → List β) (change : α → α) (position : Nat)
    (items : List α) :
    (items.modify position change).flatMap part = items.flatMap part ∨
      ∃ earlier item later, items = earlier ++ item :: later ∧ earlier.length = position ∧
        (items.modify position change).flatMap part =
          earlier.flatMap part ++ part (change item) ++ later.flatMap part := by
  by_cases inside : position < items.length
  · obtain ⟨earlier, item, later, same, place, changed⟩ := List.exists_of_modify change inside
    refine .inr ⟨earlier, item, later, same, place, ?_⟩
    rw [changed, List.flatMap_append, List.flatMap_cons, List.append_assoc]
  · rw [List.modify_eq_self (Nat.le_of_not_lt inside)]
    exact .inl rfl

/-- **Registered nodes keep their order**: at most one node that was not registered comes in
between. -/
theorem Step.registered_split {before after : Directory} (step : Step before after) :
    after.registeredAddresses = before.registeredAddresses ∨
      ∃ earlier address later, before.registeredAddresses = earlier ++ later ∧
        after.registeredAddresses = earlier ++ address :: later ∧
        before.isRegistered address = false := by
  cases step with
  | addUser email fresh =>
    refine .inl ?_
    simp [registeredAddresses, withUser]
  | whitelistNode email address position known free =>
    refine .inl ?_
    rcases flatMap_modify User.registered
      (fun user => { user with whitelisted := user.whitelisted ++ [address] }) position
      before.users with same | ⟨earlier, user, later, split, -, same⟩
    · exact same
    · refine same.trans ?_
      rw [registeredAddresses, split, List.flatMap_append, List.flatMap_cons, List.append_assoc]
  | registerNode email address position node known found waiting owned =>
    rcases flatMap_modify User.registered
      (fun user => { user with
        whitelisted := user.whitelisted.filter fun other => other ≠ address
        registered := user.registered ++ [address] }) position
      before.users with same | ⟨earlier, user, later, split, -, same⟩
    · exact .inl same
    · refine .inr ⟨earlier.flatMap User.registered ++ user.registered, address,
        later.flatMap User.registered, ?_, ?_, ?_⟩
      · rw [registeredAddresses, split, List.flatMap_append, List.flatMap_cons,
          List.append_assoc]
      · refine same.trans ?_
        simp only [List.append_assoc, List.cons_append, List.nil_append]
      · rw [isRegistered, found]
        exact waiting
  | publishSet address network batch pubkeys vault found keys =>
    exact .inl (registeredAddresses_congr (onlyNodes_withUsed before network _).users)
  | markActive address network batch pubkeys vault found keys =>
    exact .inl (registeredAddresses_congr (onlyNodes_withActive before network pubkeys).users)
  | addVault | uploadDeposits | uploadExits | handToVault => exact .inl rfl

theorem Step.mem_registered {before after : Directory} (step : Step before after)
    {address : Address} (member : address ∈ before.registeredAddresses) :
    address ∈ after.registeredAddresses := by
  rcases step.registered_split with same | ⟨earlier, new, later, was, now, -⟩
  · rw [same]
    exact member
  · rw [was, List.mem_append] at member
    rw [now, List.mem_append, List.mem_cons]
    exact member.imp_right .inr

/-- No node stands in the lists of registered nodes twice. -/
theorem Owned.nodup_registeredAddresses (owned : Owned directory) :
    directory.registeredAddresses.Nodup := by
  refine owned.nodup_nodes.sublist ?_
  exact List.Sublist.flatMap_right directory.users fun user _ => List.sublist_append_right _ _

/-- The registered nodes are those that stand in the lists of the users. -/
theorem Owned.mem_registeredAddresses (owned : Owned directory) {address : Address} :
    address ∈ directory.registeredAddresses ↔ directory.isRegistered address = true := by
  rw [registeredAddresses, List.mem_flatMap, isRegistered]
  constructor
  · rintro ⟨user, member, listed⟩
    have known : address ∈ directory.nodes :=
      (owned.mem_nodes address).mp (List.mem_flatMap.mpr
        ⟨user, member, User.mem_nodes.mpr ⟨true, listed⟩⟩)
    rw [Std.ExtTreeMap.mem_iff_isSome_getElem?, Option.isSome_iff_exists] at known
    obtain ⟨node, found⟩ := known
    rw [show directory.node? address = some node from found]
    exact ((owned.mem_list found member true).mp listed).2
  · cases found : directory.node? address with
    | none => exact fun registered => by cases registered
    | some node =>
      intro registered
      obtain ⟨-, user, member, name⟩ := owned.exists_owner found
      exact ⟨user, member, (owned.mem_list found member true).mpr ⟨name, registered⟩⟩

/-! ### Validators -/

theorem allAdvance_withUsed (directory : Directory) (network : String)
    (entries : List (Pubkey × Deposit)) (address : Address) (place : String) :
    Validator.AllAdvance (directory.validatorsAt address place)
      ((directory.withUsed network entries).validatorsAt address place) := by
  rw [validatorsAt_withUsed]
  split
  · exact Validator.allAdvance_map (Validator.advances_published entries) _
  · exact Validator.allAdvance_refl _

theorem allAdvance_withActive (directory : Directory) (network : String) (pubkeys : List Pubkey)
    (address : Address) (place : String) :
    Validator.AllAdvance (directory.validatorsAt address place)
      ((directory.withActive network pubkeys).validatorsAt address place) := by
  rw [validatorsAt_withActive]
  split
  · exact Validator.allAdvance_map (Validator.advances_confirmed pubkeys) _
  · exact Validator.allAdvance_refl _

/-- A validator that comes in with a record that its node hands in. -/
structure Newcomer (directory : Directory) (address : Address) (network : String)
    (validator : Validator) : Prop where
  registered : directory.isRegistered address = true
  unknown : validator.pubkey ∉ (directory.validatorsAt address network).map Validator.pubkey
  untouched : validator = .ofDeposit validator.pubkey validator.deposit
  key : validator.deposit.validatorKey = .ok validator.pubkey
  place : validator.deposit.network = network
  home : ∃ vault, directory.vault? validator.vault network = some vault

/-- **The validators of a node advance, and new ones come behind them.** -/
theorem Step.grown {before after : Directory} (step : Step before after) (address : Address)
    (network : String) :
    ∃ advanced new, after.validatorsAt address network = advanced ++ new ∧
      Validator.AllAdvance (before.validatorsAt address network) advanced ∧
      (new.map Validator.pubkey).Nodup ∧
      ∀ validator ∈ new, before.Newcomer address network validator := by
  have advanced : ∀ {held}, after.validatorsAt address network = held →
      Validator.AllAdvance (before.validatorsAt address network) held →
      ∃ advanced new, after.validatorsAt address network = advanced ++ new ∧
        Validator.AllAdvance (before.validatorsAt address network) advanced ∧
        (new.map Validator.pubkey).Nodup ∧
        ∀ validator ∈ new, before.Newcomer address network validator :=
    fun same advance => ⟨_, [], by rw [same, List.append_nil], advance, List.nodup_nil, by simp⟩
  have untouched : after.validatorsAt address network = before.validatorsAt address network → _ :=
    fun same => advanced same (Validator.allAdvance_refl _)
  cases step with
  | addUser | addVault | handToVault => exact untouched (validatorsAt_congr rfl address network)
  | whitelistNode email node position known free =>
    exact untouched (validatorsAt_withWhitelisted free email position address network)
  | registerNode email node position old known found waiting owned =>
    exact untouched (validatorsAt_withRegistered node position address network)
  | uploadDeposits other node batch pubkeys found registered keys =>
    have changed := validatorsAt_acceptDeposits found (pubkeys.zip batch) address network
    by_cases here : other = address
    · subst here
      rw [if_pos rfl] at changed
      obtain ⟨new, same, distinct, fresh⟩ := Validator.accepted_eq_append
        (before.validatorsAt other network)
        ((pubkeys.zip batch).filter fun entry => entry.2.network = network)
      refine ⟨_, new, changed.trans same, Validator.allAdvance_refl _, distinct, ?_⟩
      intro validator member
      obtain ⟨unknown, entry, inside, equal⟩ := fresh validator member
      obtain ⟨listed, place⟩ := List.mem_filter.mp inside
      obtain ⟨key, home⟩ := (List.forall₂_iff_zip.mp keys.flip).2 listed
      have place : entry.2.network = network := by simpa using place
      subst equal place
      exact ⟨by rw [isRegistered, found]; exact registered, unknown, rfl, key, rfl, home⟩
    · rw [if_neg here] at changed
      exact untouched changed
  | uploadExits other place node batch pubkeys found registered keys =>
    have changed : (before.withNode other
        (node.attachExits place (pubkeys.zip batch))).validatorsAt address network = _ :=
      validatorsAt_withNode other _ address network
    by_cases here : other = address
    · subst here
      rw [if_pos rfl] at changed
      refine advanced changed ?_
      rw [validatorsAt_of_node? found]
      exact Validator.allAdvance_attachExits node place (pubkeys.zip batch) network
    · rw [if_neg here] at changed
      exact untouched changed
  | publishSet other place batch pubkeys vault found keys =>
    exact advanced rfl (allAdvance_withUsed before place (pubkeys.zip batch) address network)
  | markActive other place batch pubkeys vault found keys =>
    exact advanced rfl (allAdvance_withActive before place pubkeys address network)

/-- What is held stays, and has advanced. -/
theorem Steps.advances {before after : Directory} (steps : Steps before after) {address : Address}
    {network : String} {validator : Validator}
    (member : validator ∈ before.validatorsAt address network) :
    ∃ later ∈ after.validatorsAt address network, validator.Advances later := by
  induction steps with
  | refl => exact ⟨validator, member, .refl validator⟩
  | tail _ last ih =>
    obtain ⟨between, inside, earlier⟩ := ih
    obtain ⟨advanced, new, same, advance, -, -⟩ := last.grown address network
    obtain ⟨later, there, further⟩ := advance.exists_of_mem inside
    exact ⟨later, by rw [same]; exact List.mem_append_left _ there, earlier.trans further⟩

/-! ### What holds of all directories that can come about -/

/-- **A directory in good order.** -/
structure Sound (directory : Directory) : Prop where
  owned : Owned directory
  genuine : Genuine directory
  /-- A node holds a key once on a network. -/
  distinct : ∀ address network,
    ((directory.validatorsAt address network).map Validator.pubkey).Nodup
  /-- Only registered nodes hold validators. -/
  placed : ∀ {address network}, directory.validatorsAt address network ≠ [] →
    directory.isRegistered address = true
  /-- The vault that a validator is meant for exists. -/
  homed : ∀ {address network validator}, validator ∈ directory.validatorsAt address network →
    ∃ vault, directory.vault? validator.vault network = some vault
  /-- A validator that is not used has the deposit that was handed in for it. -/
  intact : ∀ {address network validator}, validator ∈ directory.validatorsAt address network →
    validator.used = false → validator.deposit.network = network ∧
      validator.deposit.withdrawalAddress = validator.vault

theorem sound_empty : Sound {} where
  owned := owned_empty
  genuine := every_empty
  distinct address network := by simp [validatorsAt, node?]
  placed holds := by simp [validatorsAt, node?] at holds
  homed member := by simp [validatorsAt, node?] at member
  intact member := by simp [validatorsAt, node?] at member

/-- **Every step keeps a directory in good order.** -/
theorem Sound.step {before after : Directory} (step : Step before after) (sound : Sound before) :
    Sound after := by
  have owned := Owned.step step sound.owned
  -- A validator after the step either was there before and has advanced, or is new.
  have source : ∀ {address network validator}, validator ∈ after.validatorsAt address network →
      (∃ old ∈ before.validatorsAt address network, old.Advances validator) ∨
        before.Newcomer address network validator := by
    intro address network validator member
    obtain ⟨advanced, new, same, advance, -, fresh⟩ := step.grown address network
    rw [same, List.mem_append] at member
    exact member.imp advance.exists_of_mem_right (fresh validator)
  refine ⟨owned, Genuine.step step sound.genuine, ?distinct, ?placed, ?homed, ?intact⟩
  case distinct =>
    intro address network
    obtain ⟨advanced, new, same, advance, distinct, fresh⟩ := step.grown address network
    rw [same, List.map_append, advance.map_pubkey, List.nodup_append]
    refine ⟨sound.distinct address network, distinct, ?_⟩
    intro key old other inside equal
    obtain ⟨validator, member, rfl⟩ := List.mem_map.mp inside
    rw [equal] at old
    exact (fresh validator member).unknown old
  case placed =>
    intro address network holds
    obtain ⟨validator, rest, same⟩ := List.exists_cons_of_ne_nil holds
    have member : validator ∈ after.validatorsAt address network := by
      rw [same]
      exact List.mem_cons_self
    have registered : before.isRegistered address = true := by
      rcases source member with ⟨old, inside, -⟩ | new
      · exact sound.placed (List.ne_nil_of_mem inside)
      · exact new.registered
    exact owned.mem_registeredAddresses.mp
      (step.mem_registered (sound.owned.mem_registeredAddresses.mpr registered))
  case homed =>
    intro address network validator member
    have home : ∃ vault, before.vault? validator.vault network = some vault := by
      rcases source member with ⟨old, inside, advances⟩ | new
      · rw [advances.vault]
        exact sound.homed inside
      · exact new.home
    obtain ⟨vault, found⟩ := home
    obtain ⟨later, stays, -⟩ := step.vault_grows found
    exact ⟨later, stays⟩
  case intact =>
    intro address network validator member unused
    rcases source member with ⟨old, inside, advances⟩ | new
    · rw [advances.deposit unused, advances.vault]
      exact sound.intact inside (advances.unused unused)
    · refine ⟨new.place, ?_⟩
      rw [new.untouched]
      rfl

theorem sound_built (actions : List Action) : Sound (built actions) :=
  built_invariant sound_empty Sound.step actions

/-- A directory in good order is so after the operation of a change. -/
theorem Sound.outcome {directory after : Directory} (sound : Sound directory) (change : Change)
    {α : Type} {operation : Operation Directory α} {shown : α → Reply}
    (same : change.operation = shown <$> operation) {result : Except Refusal α}
    (done : operation.outcome directory = (result, after)) : Sound after := by
  have steps := steps_change change directory
  rw [same, Operation.outcome_map, done] at steps
  exact steps.keep Sound.step sound

end Directory

end StakingDirectory
