/-
**What is stored with a validator and with a vault.**

Exits are attached to validators in place, and a published set replaces their whole deposits; the
flags and the places under which things are stored stay right all the same:

* `Noted`: the flag for an exit is set exactly where an exit is attached;
* `Labelled`: a vault stands under its own network and address;
* `records_built` puts these beside what holds of every directory in good order (`Sound`), for the
  validators of every node and for the vaults of every network.
-/

import StakingDirectory.Proofs.Directory.Growth

namespace StakingDirectory.Directory

variable {directory before after : Directory}

/-! ### Exits -/

/-- Validators are flagged for an exit exactly where they have one. -/
def Noted (directory : Directory) : Prop :=
  directory.Every fun _ _ validator => validator.exitUploaded = validator.exit.isSome

/-- **An exit and its flag come together**, and nothing else touches either. -/
theorem Noted.step (step : Step before after) (noted : Noted before) : Noted after :=
  Every.step step noted (fun _ _ _ _ => rfl) (fun _ _ _ _ _ => rfl) (fun _ _ _ _ _ holds => holds)
    fun _ _ _ holds => holds

theorem noted_built (actions : List Action) : Noted (built actions) :=
  built_invariant every_empty Noted.step actions

/-! ### Vaults -/

/-- A vault stands under its own network and address. -/
def Labelled (directory : Directory) : Prop :=
  ∀ (address : Address) (network : String) (vault : Vault),
    directory.vault? address network = some vault →
      vault.network = network ∧ vault.address = address

theorem labelled_empty : Labelled {} := by
  intro address network vault found
  simp [vault?] at found

/-- **A vault comes in with its label**, and what is handed to it or published leaves that alone. -/
theorem Labelled.step (step : Step before after) (labelled : Labelled before) :
    Labelled after := by
  intro address network vault found
  have changed := step.vaultStep address network
  have known := labelled address network
  rw [found] at changed
  generalize before.vault? address network = earlier at changed known
  cases changed with
  | same => exact known vault rfl
  | added => exact ⟨rfl, rfl⟩
  | handed old pubkeys => exact known old rfl
  | published old batch => exact known old rfl

theorem labelled_built (actions : List Action) : Labelled (built actions) :=
  built_invariant labelled_empty Labelled.step actions

/-! ### All of it -/

theorem Sound.registered_of_held (sound : Sound directory) {address : Address} {node : Node}
    (found : directory.node? address = some node) {network : String}
    (holds : node.held network ≠ []) : node.registered = true := by
  have listed : directory.validatorsAt address network ≠ [] :=
    validatorsAt_of_node? found network ▸ holds
  have registered : directory.isRegistered address = true := sound.placed listed
  rw [isRegistered, found] at registered
  exact registered

/-- **What is stored belongs together.** In every directory that can come about, only registered
nodes hold validators, and a node holds no key twice on a network. The deposit of a validator spells
the validator's key, its vault exists on the network, and it is flagged for an exit exactly where it
has one; until it is used, its deposit is for that network and for that vault. A vault stands under
its own network and address. -/
theorem records_built (actions : List Action) :
    (∀ (address : Address) (node : Node), (built actions).nodes[address]? = some node →
      ∀ (network : String) (validators : List Validator),
        node.validators[network]? = some validators →
        (validators ≠ [] → node.registered = true) ∧
        (validators.map Validator.pubkey).Nodup ∧
        ∀ validator ∈ validators,
          validator.deposit.validatorKey = .ok validator.pubkey ∧
          (∃ vault, (built actions).vault? validator.vault network = some vault) ∧
          (validator.exitUploaded = true ↔ ∃ exit, validator.exit = some exit) ∧
          (validator.used = false → validator.deposit.network = network ∧
            validator.deposit.withdrawalAddress = validator.vault)) ∧
    ∀ (network : String) (vaults : Std.ExtTreeMap Address Vault),
      (built actions).vaults[network]? = some vaults →
      ∀ (address : Address) (vault : Vault), vaults[address]? = some vault →
        vault.network = network ∧ vault.address = address := by
  have sound := sound_built actions
  have noted := noted_built actions
  have labelled := labelled_built actions
  generalize built actions = directory at sound noted labelled ⊢
  constructor
  · intro address node found network validators listed
    have held : node.held network = validators := by rw [Node.held, listed, Option.getD_some]
    have here : directory.validatorsAt address network = validators :=
      (validatorsAt_of_node? found network).trans held
    refine ⟨fun some => sound.registered_of_held found (held ▸ some), here ▸ sound.distinct _ _,
      fun validator inside => ?_⟩
    have member : validator ∈ directory.validatorsAt address network := here ▸ inside
    refine ⟨sound.genuine.validatorsAt member, sound.homed member, ?_, sound.intact member⟩
    rw [noted.validatorsAt member, Option.isSome_iff_exists]
  · intro network vaults known address vault found
    refine labelled address network vault ?_
    rw [vault?, known]
    exact found

end StakingDirectory.Directory
