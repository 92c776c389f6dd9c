/-
**Which vaults the records of a cycle are meant for.**

A set is chosen for a network and published for the vault that is cycled, while each record names the
vault it is meant for and a status is read off that vault.

* `delivered` is the directory after a cycle whose set was then marked as active, and
  `outcome_markActive_cycled` says that this succeeds;
* `isAcknowledged_delivered`: the keys of the set are acknowledged for validators that are meant for
  the cycled vault, and otherwise where they were before;
* `findValidator_delivered`: for each of these keys the validator that is found is used and active;
* `cycled_destination` puts this together. A vault is given its own deposits only if there are no
  other vaults on the network.
-/

import StakingDirectory.Proofs.Allotment.Cycle
import StakingDirectory.Proofs.Directory.Progress

namespace StakingDirectory.Directory

/-! ### Marking what was published -/

/-- The directory after a cycle and after the validators with the chosen keys became active. -/
def delivered (directory : Directory) (address : Address) (network : String) (limit : Nat) :
    Directory :=
  (directory.cycled address network limit).withActive network (directory.chosenKeys network limit)

section Delivery

variable {directory : Directory} {address : Address} {network : String} {limit : Nat}
  {vault : Vault}

/-- **The set of a cycle can be marked under its vault.** -/
theorem outcome_markActive_cycled (genuine : Genuine directory)
    (found : directory.vault? address network = some vault) (limit : Nat) :
    (markActive address network
        ((directory.cycled address network limit).latestSet address network)).outcome
          (directory.cycled address network limit) =
      (.ok (), directory.delivered address network limit) := by
  rw [latestSet_cycled genuine found, outcome_markActive,
    checkBatch_eq_ok.mpr ⟨vault?_cycled genuine found limit, requireKeys_chooseSet genuine limit⟩]
  rfl

/-- A cycle changes no vault but its own. -/
theorem vault?_cycled_of_ne (genuine : Genuine directory)
    (found : directory.vault? address network = some vault) (limit : Nat) {other : Address}
    (different : address ≠ other) :
    (directory.cycled address network limit).vault? other network =
      directory.vault? other network := by
  have apart : ¬ (address = other ∧ network = network) := fun both => different both.1
  rw [cycled_eq genuine found, vault?_withCycled found, if_neg apart]

theorem vault?_delivered (directory : Directory) (address : Address) (network : String)
    (limit : Nat) (other : Address) (place : String) :
    (directory.delivered address network limit).vault? other place =
      (directory.cycled address network limit).vault? other place :=
  vault?_congr (onlyNodes_withActive _ network _).vaults other place

/-- **A chosen key is acknowledged by the cycled vault**, and by others if it was before. -/
theorem isAcknowledged_delivered (genuine : Genuine directory)
    (found : directory.vault? address network = some vault) {pubkey : Pubkey}
    (chosen : pubkey ∈ directory.chosenKeys network limit) (validator : Validator) :
    (directory.delivered address network limit).isAcknowledged network validator pubkey = true ↔
      validator.vault = address ∨
        directory.isAcknowledged network validator pubkey = true := by
  unfold isAcknowledged
  rw [vault?_delivered]
  by_cases own : validator.vault = address
  · rw [own, vault?_cycled genuine found, Option.any_some, Std.ExtTreeSet.contains_iff_mem]
    exact iff_of_true (Vault.mem_withUploaded.mpr (.inr chosen)) (.inl rfl)
  · rw [vault?_cycled_of_ne genuine found limit (Ne.symm own), or_iff_right own]

theorem steps_delivered (genuine : Genuine directory)
    (found : directory.vault? address network = some vault) (limit : Nat) :
    Steps directory (directory.delivered address network limit) :=
  (steps_cycled directory address network limit).tail
    (.markActive address network (directory.chooseSet network limit)
      (directory.chosenKeys network limit) _ (vault?_cycled genuine found limit)
      (requireKeys_chooseSet genuine limit))

theorem registeredAddresses_delivered (genuine : Genuine directory)
    (found : directory.vault? address network = some vault) (limit : Nat) :
    (directory.delivered address network limit).registeredAddresses =
      directory.registeredAddresses :=
  (registeredAddresses_congr (onlyNodes_withActive _ network _).users).trans
    (registeredAddresses_congr (users_cycled genuine found limit))

/-- The validators of registered nodes after the set was published and marked. -/
theorem validatorsAt_delivered (genuine : Genuine directory)
    (found : directory.vault? address network = some vault) (limit : Nat) {other : Address}
    (registered : other ∈ directory.registeredAddresses) :
    (directory.delivered address network limit).validatorsAt other network =
      (directory.validatorsAt other network).map fun validator =>
        (validator.published ((directory.chosenKeys network limit).zip
          (directory.chooseSet network limit))).confirmed (directory.chosenKeys network limit) := by
  have same := registeredAddresses_congr (users_cycled genuine found limit)
  rw [delivered, validatorsAt_withActive, same, if_pos ⟨registered, rfl⟩,
    validatorsAt_cycled genuine found, if_pos ⟨registered, rfl⟩, List.map_map]
  rfl

/-- A validator with a chosen key is used and active afterwards, and its vault is one that it had
before. -/
theorem validator_delivered (sound : Sound directory)
    (found : directory.vault? address network = some vault) {other : Address}
    (registered : other ∈ directory.registeredAddresses) {validator : Validator}
    (member : validator ∈ (directory.delivered address network limit).validatorsAt other network)
    (chosen : validator.pubkey ∈ directory.chosenKeys network limit) :
    validator.used = true ∧ validator.active = true ∧
      ∃ home, directory.vault? validator.vault network = some home := by
  have keys := map_fst_chosen directory network limit
  rw [validatorsAt_delivered sound.genuine found limit registered] at member
  generalize (directory.chosenKeys network limit).zip (directory.chooseSet network limit) = entries
    at keys member
  obtain ⟨old, before, rfl⟩ := List.mem_map.mp member
  have first := Validator.advances_published entries old
  have second := Validator.advances_confirmed (directory.chosenKeys network limit)
    (old.published entries)
  rw [second.pubkey, first.pubkey] at chosen
  refine ⟨second.used ((Validator.used_published entries old).mpr (.inr ?_)),
    (Validator.active_confirmed _ _).mpr (.inr ?_), ?_⟩
  · rw [keys]
    exact chosen
  · rw [first.pubkey]
    exact chosen
  · rw [second.vault, first.vault]
    exact sound.homed before

/-- **For a chosen key a validator is found that is used and active**, and whose vault exists. -/
theorem findValidator_delivered (sound : Sound directory)
    (found : directory.vault? address network = some vault) {pubkey : Pubkey}
    (chosen : pubkey ∈ directory.chosenKeys network limit) :
    ∃ validator, (directory.delivered address network limit).findValidator network pubkey =
        some validator ∧ validator.used = true ∧ validator.active = true ∧
      ∃ home, directory.vault? validator.vault network = some home := by
  have same := registeredAddresses_delivered sound.genuine found limit
  -- The node that the key was chosen for still holds it, so that some node is found for it.
  have holder : ∃ node ∈ directory.registeredAddresses,
      (directory.delivered address network limit).Holds network pubkey node := by
    obtain ⟨entry, picked, rfl⟩ := List.mem_map.mp chosen
    obtain ⟨registered, held, -⟩ := mem_chosen picked
    obtain ⟨later, there, advances⟩ :=
      (steps_delivered sound.genuine found limit).advances held
    exact ⟨entry.1, registered, List.mem_map.mpr ⟨later, there, advances.pubkey⟩⟩
  obtain ⟨node, registered, holds⟩ := holder
  obtain ⟨validator, there⟩ := exists_findValidator (same ▸ registered) holds
  obtain ⟨other, listed, member, key⟩ := findValidator_mem there
  rw [same] at listed
  exact ⟨validator, there, validator_delivered sound found listed member (key ▸ chosen)⟩

/-- What is reported of a chosen key hangs on the vault of the validator that is found for it. -/
theorem status_delivered (sound : Sound directory)
    (found : directory.vault? address network = some vault) {pubkey : Pubkey}
    (chosen : pubkey ∈ directory.chosenKeys network limit) :
    ∃ validator, (directory.delivered address network limit).findValidator network pubkey =
        some validator ∧
      (∃ home, directory.vault? validator.vault network = some home) ∧
      (directory.delivered address network limit).status network pubkey =
        if validator.vault = address ∨ directory.isAcknowledged network validator pubkey = true then
          .registered
        else .uploaded := by
  obtain ⟨validator, there, used, active, home⟩ := findValidator_delivered sound found chosen
  have acknowledged := isAcknowledged_delivered sound.genuine found chosen validator
  refine ⟨validator, there, home, ?_⟩
  rw [status_of_findValidator there, reported, used, active]
  by_cases own : validator.vault = address ∨
      directory.isAcknowledged network validator pubkey = true
  · rw [if_pos own, acknowledged.mpr own]
    rfl
  · rw [if_neg own, Bool.eq_false_iff.mpr fun has => own (acknowledged.mp has)]
    rfl

end Delivery

/-! ### Destinations -/

/-- **A vault is given the deposits of its network, whichever vaults they are meant for.** Let a
vault that exists be cycled. Its latest set is then the chosen one, and every record of it is for the
network and names the vault of the unused validator that it was chosen for, which exists. The set can
then be marked under the vault, and after that every key of it is reported as registered if the
validator that is found for it is meant for this vault or the key had been handed to its own one
before, and as uploaded otherwise. Where there is no other vault on the network, all records name this
one and all keys are reported as registered. -/
theorem cycled_destination (actions : List Action) (address : Address) (network : String)
    (limit : Nat) (vault : Vault)
    (found : (built actions).vault? address network = some vault) :
    (∀ deposit ∈ ((built actions).cycled address network limit).latestSet address network,
      deposit.network = network ∧ ∃ node ∈ (built actions).registeredAddresses,
        ∃ validator ∈ (built actions).validatorsAt node network, validator.used = false ∧
          validator.deposit = deposit ∧ deposit.withdrawalAddress = validator.vault ∧
          ∃ home, (built actions).vault? validator.vault network = some home) ∧
    ∃ marked,
      (markActive address network
        (((built actions).cycled address network limit).latestSet address network)).outcome
          ((built actions).cycled address network limit) = (.ok (), marked) ∧
      (∀ deposit ∈ ((built actions).cycled address network limit).latestSet address network,
        ∃ pubkey, deposit.validatorKey = .ok pubkey ∧
          ∃ validator, marked.findValidator network pubkey = some validator ∧
            marked.status network pubkey =
              if validator.vault = address ∨
                  (built actions).isAcknowledged network validator pubkey = true then .registered
              else .uploaded) ∧
      ((∀ other home, (built actions).vault? other network = some home → other = address) →
        ∀ deposit ∈ ((built actions).cycled address network limit).latestSet address network,
          deposit.withdrawalAddress = address ∧
          ∃ pubkey, deposit.validatorKey = .ok pubkey ∧
            marked.status network pubkey = .registered) := by
  have sound := sound_built actions
  generalize built actions = directory at found sound ⊢
  have genuine := sound.genuine
  have published := latestSet_cycled genuine found limit
  -- Every record was chosen for a validator whose key it has.
  have source : ∀ deposit ∈ (directory.cycled address network limit).latestSet address network,
      ∃ node ∈ directory.registeredAddresses, ∃ validator ∈ directory.validatorsAt node network,
        validator.used = false ∧ validator.deposit = deposit ∧
          deposit.validatorKey = .ok validator.pubkey ∧
          validator.pubkey ∈ directory.chosenKeys network limit := by
    intro deposit member
    rw [published, chooseSet_eq] at member
    obtain ⟨entry, picked, rfl⟩ := List.mem_map.mp member
    obtain ⟨registered, held, unused⟩ := mem_chosen picked
    exact ⟨entry.1, registered, entry.2, held, unused, rfl, genuine.validatorsAt held,
      List.mem_map.mpr ⟨entry, picked, rfl⟩⟩
  refine ⟨fun deposit member => ?_, directory.delivered address network limit,
    outcome_markActive_cycled genuine found limit, fun deposit member => ?_,
    fun sole deposit member => ?_⟩
  · obtain ⟨node, registered, validator, held, unused, rfl, -, -⟩ := source deposit member
    obtain ⟨place, own⟩ := sound.intact held unused
    exact ⟨place, node, registered, validator, held, unused, rfl, own, sound.homed held⟩
  · obtain ⟨_, -, validator, -, -, -, key, chosen⟩ := source deposit member
    obtain ⟨consulted, there, -, status⟩ := status_delivered sound found chosen
    exact ⟨validator.pubkey, key, consulted, there, status⟩
  · obtain ⟨_, -, validator, held, unused, rfl, key, chosen⟩ := source deposit member
    obtain ⟨home, exists_home⟩ := sound.homed held
    obtain ⟨consulted, -, ⟨other, exists_other⟩, status⟩ := status_delivered sound found chosen
    refine ⟨?_, validator.pubkey, key, ?_⟩
    · rw [(sound.intact held unused).2]
      exact sole _ home exists_home
    · rw [status, if_pos (.inl (sole _ other exists_other))]

/-- One node, which holds a validator for the only vault. -/
def soleVault : List Action :=
  opening "a" [repeated 1] "n" [repeated 9] ++
    [.change (.uploadDeposits (repeated 1) [plainDeposit 3 (repeated 9) "n"])]

/-- The record of the only vault names it, and its key is registered once the set was marked. -/
theorem cycled_destination_soleVault :
    (built soleVault).vault? (repeated 9) "n" = some { address := repeated 9, network := "n" } ∧
    (∀ other home, (built soleVault).vault? other "n" = some home → other = repeated 9) ∧
    ∃ marked,
      (markActive (repeated 9) "n"
        (((built soleVault).cycled (repeated 9) "n" 1).latestSet (repeated 9) "n")).outcome
          ((built soleVault).cycled (repeated 9) "n" 1) = (.ok (), marked) ∧
      (plainDeposit 3 (repeated 9) "n").withdrawalAddress = repeated 9 ∧
      ∃ pubkey, (plainDeposit 3 (repeated 9) "n").validatorKey = .ok pubkey ∧
        marked.status "n" pubkey = .registered := by
  have found : (built soleVault).vault? (repeated 9) "n" =
      some { address := repeated 9, network := "n" } := by decide
  have vaults : (built soleVault).vaults =
      (({} : Directory).withNewVault (repeated 9) "n").vaults := by decide
  have sole : ∀ other home, (built soleVault).vault? other "n" = some home →
      other = repeated 9 := by
    intro other home known
    rw [vault?_congr vaults, vault?_withNewVault] at known
    split at known
    · rename_i same
      exact same.1.symm
    · simp [vault?] at known
  obtain ⟨-, marked, succeeded, -, reported⟩ :=
    cycled_destination soleVault (repeated 9) "n" 1 _ found
  exact ⟨found, sole, marked, succeeded,
    reported sole (plainDeposit 3 (repeated 9) "n") (by decide)⟩

/-- One node, which holds a validator for the second of two vaults. -/
def foreignVault : List Action :=
  opening "a" [repeated 1] "n" [repeated 8, repeated 9] ++
    [.change (.uploadDeposits (repeated 1) [plainDeposit 3 (repeated 9) "n"])]

/-- A cycle of the first vault publishes the record for the second one, and its key is not reported
as registered even after the set was marked. -/
theorem cycled_misdirected :
    (¬ ∀ (actions : List Action) (address : Address) (network : String) (limit : Nat)
      (vault : Vault), (built actions).vault? address network = some vault →
      ∀ deposit ∈ ((built actions).cycled address network limit).latestSet address network,
        deposit.withdrawalAddress = address) ∧
    ¬ ∀ (actions : List Action) (address : Address) (network : String) (limit : Nat)
      (vault : Vault), (built actions).vault? address network = some vault →
      ∀ deposit ∈ ((built actions).cycled address network limit).latestSet address network,
        ∀ pubkey, deposit.validatorKey = .ok pubkey →
          ((markActive address network
            (((built actions).cycled address network limit).latestSet address network)).outcome
              ((built actions).cycled address network limit)).2.status network pubkey =
            .registered := by
  have found : (built foreignVault).vault? (repeated 8) "n" =
      some { address := repeated 8, network := "n" } := by decide
  have given : plainDeposit 3 (repeated 9) "n" ∈
      ((built foreignVault).cycled (repeated 8) "n" 1).latestSet (repeated 8) "n" := by
    decide
  constructor
  · intro own
    exact absurd (own foreignVault (repeated 8) "n" 1 _ found _ given) (by decide)
  · intro reported
    exact absurd (reported foreignVault (repeated 8) "n" 1 _ found _ given (repeated 3) rfl)
      (by decide)

end StakingDirectory.Directory
