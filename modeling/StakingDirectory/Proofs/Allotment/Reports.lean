/-
**What statuses mean.**

* `status_eq_unknown_iff`: a key is unknown if no node at all holds it, since whoever holds a key is
  registered and is found (`Sound.exists_findValidator`);
* `Revised.setReported`: the keys of a set that was published are reported as uploaded or
  registered;
* `status_handed_marked`: a key is registered once its batch was handed to the vault of its entry
  and was marked as active;
* `statuses_exact` puts this together, with the listing that a node is given of its validators.
-/

import StakingDirectory.Proofs.Allotment.Cycle
import StakingDirectory.Proofs.Allotment.Marking
import StakingDirectory.Proofs.Directory.Arrival

namespace StakingDirectory.Directory

open Operation

variable {directory before after : Directory} {network : String} {pubkey : Pubkey}

/-! ### Keys -/

/-- A node holds a key if it is there and has a validator with it. -/
theorem holds_iff_hasValidator {address : Address} :
    directory.Holds network pubkey address ↔
      ∃ node, directory.node? address = some node ∧ node.hasValidator network pubkey = true := by
  unfold Holds validatorsAt
  cases directory.node? address with
  | none => simp
  | some node => simp [Node.hasValidator_iff]

/-- **Whatever a node holds is found**, since it is registered. -/
theorem Sound.exists_findValidator (sound : Sound directory) {address : Address}
    (holds : directory.Holds network pubkey address) :
    ∃ validator, directory.findValidator network pubkey = some validator := by
  have some : directory.validatorsAt address network ≠ [] := by
    intro nothing
    rw [Holds, nothing] at holds
    exact List.not_mem_nil holds
  have registered := sound.owned.mem_registeredAddresses.mpr (sound.placed some)
  exact Directory.exists_findValidator registered holds

/-- What is reported of a validator that is found. -/
theorem reported_cases (validator : Validator) (acknowledged : Bool) :
    reported validator acknowledged ∈ [Status.pending, .uploaded, .registered] := by
  unfold reported
  cases acknowledged <;> cases validator.active <;> cases validator.used <;> decide

/-- **A key is unknown if no node at all holds it.** -/
theorem status_eq_unknown_iff (sound : Sound directory) :
    directory.status network pubkey = .unknown ↔
      ∀ address, ¬ directory.Holds network pubkey address := by
  constructor
  · intro unknown address holds
    obtain ⟨validator, found⟩ := sound.exists_findValidator holds
    have known := reported_cases validator (directory.isAcknowledged network validator pubkey)
    rw [← status_of_findValidator found, unknown] at known
    exact absurd known (by decide)
  · intro nowhere
    have missing : directory.findValidator network pubkey = none := by
      refine Option.eq_none_iff_forall_ne_some.mpr fun validator found => ?_
      obtain ⟨address, -, member, same⟩ := findValidator_mem found
      exact nowhere address (List.mem_map.mpr ⟨validator, member, same⟩)
    rw [status, missing]

/-- No validator is reported to have left. -/
theorem status_ne_removed (directory : Directory) (network : String) (pubkey : Pubkey) :
    directory.status network pubkey ≠ .removed := by
  intro removed
  cases found : directory.findValidator network pubkey with
  | none =>
    rw [status, found] at removed
    cases removed
  | some validator =>
    have known := reported_cases validator (directory.isAcknowledged network validator pubkey)
    rw [← status_of_findValidator found, removed] at known
    exact absurd known (by decide)

/-! ### Published sets -/

variable {batch : List Deposit}

/-- A validator with a key of a set is used once the set was published. -/
theorem Revised.used (revised : Revised network (Validator.renewed batch) before after)
    {address : Address} {validator : Validator}
    (member : validator ∈ after.validatorsAt address network)
    (listed : ∃ deposit ∈ batch, deposit.pubkey = validator.pubkey.bytes) :
    validator.used = true := by
  rw [revised.here] at member
  obtain ⟨old, -, rfl⟩ := List.mem_map.mp member
  have replaced := Validator.replaced_renewed batch old
  obtain ⟨deposit, inside, same⟩ := listed
  rw [replaced.pubkey] at same
  have kept : deposit ∈ batch.filter fun deposit => deposit.pubkey = old.pubkey.bytes :=
    List.mem_filter.mpr ⟨inside, by simpa using same⟩
  exact replaced.used.mpr (.inr (List.ne_nil_of_mem kept))

/-- A validator with a key of a batch is active once the batch was marked. -/
theorem Revised.active (revised : Revised network (Validator.marked batch) before after)
    {address : Address} {validator : Validator}
    (member : validator ∈ after.validatorsAt address network)
    (listed : ∃ deposit ∈ batch, deposit.pubkey = validator.pubkey.bytes) :
    validator.active = true := by
  rw [revised.here] at member
  obtain ⟨old, -, rfl⟩ := List.mem_map.mp member
  revert listed
  unfold Validator.marked
  split
  · exact fun _ => rfl
  · exact fun listed => absurd listed ‹_›

/-- Whatever some node holds of the keys of a set is reported as uploaded or registered. -/
def SetReported (directory : Directory) (network : String) (batch : List Deposit) : Prop :=
  ∀ deposit ∈ batch, ∀ pubkey, deposit.validatorKey = .ok pubkey →
    ∀ address node, directory.node? address = some node →
      node.hasValidator network pubkey = true →
        directory.status network pubkey ∈ [Status.uploaded, .registered]

/-- **Keys of a set that was published are reported as uploaded or registered.** -/
theorem Revised.setReported (revised : Revised network (Validator.renewed batch) before after)
    (sound : Sound after) : after.SetReported network batch := by
  intro deposit listed pubkey key address node there has
  obtain ⟨validator, found⟩ :=
    sound.exists_findValidator (holds_iff_hasValidator.mpr ⟨node, there, has⟩)
  obtain ⟨other, -, member, rfl⟩ := findValidator_mem found
  have used := revised.used member ⟨deposit, listed, Deposit.pubkey_of_validatorKey key⟩
  rw [status_of_findValidator found, reported, used]
  cases after.isAcknowledged network validator validator.pubkey <;> cases validator.active <;>
    decide

/-! ### Handing over and marking -/

/-- A vault has the keys of a batch that was handed to it. -/
theorem isAcknowledged_handed {address : Address}
    (handed : (handToVault address network batch).outcome before = (.ok (), after))
    {deposit : Deposit} (listed : deposit ∈ batch) (key : deposit.validatorKey = .ok pubkey)
    {validator : Validator} (own : validator.vault = address) :
    after.isAcknowledged network validator pubkey = true := by
  obtain ⟨pubkeys, vault, keys, found, rfl⟩ := handToVault_eq_ok.mp handed
  rw [isAcknowledged, own, vault?_withVault found, if_pos ⟨rfl, rfl⟩, Option.any_some,
    Std.ExtTreeSet.contains_iff_mem]
  refine Vault.mem_withUploaded.mpr (.inr ?_)
  exact (Validator.mem_keys_iff (requireKeys_eq_ok.mp keys) pubkey).mpr
    ⟨deposit, listed, Deposit.pubkey_of_validatorKey key⟩

/-- What is found for a key of a batch that was marked is active. -/
theorem active_marked {address : Address} (sound : Sound before)
    (marked : (markActive address network batch).outcome before = (.ok (), after))
    {deposit : Deposit} (listed : deposit ∈ batch) {holder : Address} {validator : Validator}
    (key : deposit.validatorKey = .ok validator.pubkey)
    (member : validator ∈ after.validatorsAt holder network) : validator.active = true := by
  obtain ⟨_, pubkeys, -, keys, rfl⟩ := markActive_eq_ok.mp marked
  exact (revised_withActive sound (requireKeys_eq_ok.mp keys)).active member
    ⟨deposit, listed, Deposit.pubkey_of_validatorKey key⟩

/-- **A key is registered once its batch was handed to the vault of its entry and marked**, in
whichever order. -/
theorem status_handed_marked {address : Address} {between : Directory} (sound : Sound before)
    (done : (handToVault address network batch).outcome before = (.ok (), between) ∧
        (markActive address network batch).outcome between = (.ok (), after) ∨
      (markActive address network batch).outcome before = (.ok (), between) ∧
        (handToVault address network batch).outcome between = (.ok (), after))
    {deposit : Deposit} (listed : deposit ∈ batch) (key : deposit.validatorKey = .ok pubkey)
    {validator : Validator} (found : after.findValidator network pubkey = some validator)
    (own : validator.vault = address) : after.status network pubkey = .registered := by
  obtain ⟨holder, -, member, rfl⟩ := findValidator_mem found
  have both : after.isAcknowledged network validator validator.pubkey = true ∧
      validator.active = true := by
    rcases done with ⟨handed, marked⟩ | ⟨marked, handed⟩
    · -- A mark leaves the vaults alone.
      have vaults : after.vaults = between.vaults := by
        obtain ⟨_, pubkeys, -, -, rfl⟩ := markActive_eq_ok.mp marked
        exact (onlyNodes_withActive _ network pubkeys).vaults
      have kept : after.isAcknowledged network validator validator.pubkey =
          between.isAcknowledged network validator validator.pubkey := by
        rw [isAcknowledged, vault?_congr vaults, ← isAcknowledged]
      exact ⟨kept.trans (isAcknowledged_handed handed listed key own),
        active_marked (sound.outcome (.handToVault address network batch) rfl handed) marked
          listed key member⟩
    · -- A hand-over leaves the nodes alone.
      have lists : after.validatorsAt holder network = between.validatorsAt holder network := by
        obtain ⟨_, _, -, -, rfl⟩ := handToVault_eq_ok.mp handed
        rfl
      exact ⟨isAcknowledged_handed handed listed key own,
        active_marked sound marked listed key (lists ▸ member)⟩
  rw [status_of_findValidator found, reported, both.1, both.2]
  rfl

/-! ### The listing of a node -/

/-- **A node is told of the validators it holds**, in their order. -/
theorem statuses_of_registered {address : Address} {node : Node}
    (registered : directory.registeredNode address = .ok node) (network : String) :
    directory.statuses address network =
      .ok ((directory.validatorsAt address network).map fun validator =>
        { pubkey := validator.pubkey
          status := directory.status network validator.pubkey
          exitUploaded := validator.exitUploaded }) := by
  rw [statuses, registered, validatorsAt_of_node? (registeredNode_eq_ok.mp registered).1]
  rfl

/-- **Statuses mean what they say.** In every directory that can come about, a key is unknown on a
network if no node at all holds it there, and no key is reported to have left. After a set was
published, or a cycle was made, whatever key of the set some node holds is reported as uploaded or
registered. After a batch was handed to a vault and marked as active, in whichever order, every key
of the batch is registered for which a validator of this vault is found. A registered node is told
of the keys that it handed in on the network, each once and in the order in which they came first,
with the status of each; none of them is unknown. -/
theorem statuses_exact (actions : List Action) (network : String) :
    (∀ pubkey,
      ((built actions).status network pubkey = .unknown ↔
        ∀ address node, (built actions).node? address = some node →
          node.hasValidator network pubkey = false) ∧
      (built actions).status network pubkey ≠ .removed) ∧
    (∀ address batch version after,
      (publishSet address network batch).outcome (built actions) = (.ok version, after) →
        after.SetReported network batch) ∧
    (∀ address limit version after,
      (cycleSet address network limit).outcome (built actions) = (.ok version, after) →
        after.SetReported network (after.latestSet address network)) ∧
    (∀ address batch between after,
      (handToVault address network batch).outcome (built actions) = (.ok (), between) ∧
          (markActive address network batch).outcome between = (.ok (), after) ∨
        (markActive address network batch).outcome (built actions) = (.ok (), between) ∧
          (handToVault address network batch).outcome between = (.ok (), after) →
      ∀ deposit ∈ batch, ∀ pubkey, deposit.validatorKey = .ok pubkey →
        ∀ validator, after.findValidator network pubkey = some validator →
          validator.vault = address → after.status network pubkey = .registered) ∧
    ∀ address, (built actions).isRegistered address = true →
      ∃ rows, (built actions).statuses address network = .ok rows ∧
        rows.map StatusRow.pubkey =
          ((built actions).validatorsAt address network).map Validator.pubkey ∧
        rows.map StatusRow.pubkey =
          ((accomplished {} actions).flatMap (Action.newKeys address network)).eraseDups ∧
        (rows.map StatusRow.pubkey).Nodup ∧
        ∀ row ∈ rows, row.status = (built actions).status network row.pubkey ∧
          row.status ≠ .unknown := by
  have sound := sound_built actions
  have queued := queued_built actions
  generalize built actions = directory at sound queued ⊢
  refine ⟨fun pubkey => ⟨?_, status_ne_removed directory network pubkey⟩, ?_, ?_, ?_, ?_⟩
  · rw [status_eq_unknown_iff sound]
    simp only [holds_iff_hasValidator, not_exists, not_and, Bool.not_eq_true]
  · intro address batch version after published
    have sound' := sound.outcome (.publishSet address network batch) rfl published
    obtain ⟨vault, pubkeys, -, keys, -, rfl⟩ := publishSet_eq_ok.mp published
    exact ((revised_withUsed sound (requireKeys_eq_ok.mp keys)).withVault _ _ _).setReported sound'
  · intro address limit version after cycled
    have sound' := sound.outcome (.cycleSet address network limit) rfl cycled
    obtain ⟨vault, pubkeys, found, keys, -, rfl⟩ := cycleSet_eq_ok.mp cycled
    have latest : (directory.withCycled address network (directory.chooseSet network limit) vault
        pubkeys).latestSet address network = directory.chooseSet network limit := by
      rw [latestSet, vault?_withCycled found, if_pos ⟨rfl, rfl⟩]
      rfl
    rw [latest]
    exact (revised_withCycled sound found keys).setReported sound'
  · intro address batch between after done deposit listed pubkey key validator found own
    exact status_handed_marked sound done listed key found own
  · intro address registered
    obtain ⟨node, known⟩ := isRegistered_iff.mp registered
    refine ⟨_, statuses_of_registered known network, ?_⟩
    rw [List.map_map, ← queued address network]
    refine ⟨rfl, rfl, sound.distinct address network,
      List.forall_mem_map.mpr fun validator member => ⟨rfl, fun unknown => ?_⟩⟩
    exact (status_eq_unknown_iff sound).mp unknown address
      (List.mem_map.mpr ⟨validator, member, rfl⟩)

/-- A record for the key that both nodes hold. -/
def sharedRecord : List Deposit :=
  [plainDeposit 3 (repeated 9) "n"]

set_option maxRecDepth 2000 in
/-- A key that two nodes hold is registered after both steps, and a node is told of its two keys. -/
theorem statuses_exact_sharedKey :
    (∃ between after,
      (markActive (repeated 9) "n" sharedRecord).outcome (built sharedKey) = (.ok (), between) ∧
      (handToVault (repeated 9) "n" sharedRecord).outcome between = (.ok (), after) ∧
      after.status "n" (repeated 3) = .registered) ∧
    (∃ after,
      (publishSet (repeated 9) "n" sharedRecord).outcome (built sharedKey) = (.ok 1, after) ∧
      after.status "n" (repeated 3) ∈ [Status.uploaded, .registered]) ∧
    ∃ rows, (built sharedKey).statuses (repeated 1) "n" = .ok rows ∧
      rows.map StatusRow.pubkey = [repeated 3, repeated 4] := by
  obtain ⟨-, published, -, registered, listed⟩ := statuses_exact sharedKey "n"
  have found : (built sharedKey).vault? (repeated 9) "n" =
      some { address := repeated 9, network := "n" } := by decide
  have keys : requireKeys sharedRecord = .ok [repeated 3] := rfl
  have one : plainDeposit 3 (repeated 9) "n" ∈ sharedRecord := List.mem_singleton.mpr rfl
  refine ⟨?_, ?_, ?_⟩
  · have marked : (markActive (repeated 9) "n" sharedRecord).outcome (built sharedKey) = _ :=
      markActive_eq_ok.mpr ⟨_, _, found, keys, rfl⟩
    have vaults := (onlyNodes_withActive (built sharedKey) "n" [repeated 3]).vaults
    have handed : (handToVault (repeated 9) "n" sharedRecord).outcome
        ((built sharedKey).withActive "n" [repeated 3]) = _ :=
      handToVault_eq_ok.mpr ⟨_, _, keys, (vault?_congr vaults _ _).trans found, rfl⟩
    have entry : Directory.findValidator (Directory.withVault
          ((built sharedKey).withActive "n" [repeated 3]) (repeated 9) "n" (Vault.withUploaded
            { address := repeated 9, network := "n" } [repeated 3])) "n" (repeated 3) =
        some { Validator.ofDeposit (repeated 3) (plainDeposit 3 (repeated 9) "n") with
          active := true } := by decide
    exact ⟨_, _, marked, handed, registered _ _ _ _ (.inr ⟨marked, handed⟩) _ one _ rfl _ entry rfl⟩
  · have given : (publishSet (repeated 9) "n" sharedRecord).outcome (built sharedKey) =
        (.ok 1, (built sharedKey).withPublished (repeated 9) "n" sharedRecord
          { address := repeated 9, network := "n" } [repeated 3]) :=
      publishSet_eq_ok.mpr ⟨_, _, found, keys, by decide, rfl⟩
    have holds : Holds ((built sharedKey).withPublished (repeated 9) "n" sharedRecord
        { address := repeated 9, network := "n" } [repeated 3]) "n" (repeated 3) (repeated 1) := by
      decide
    obtain ⟨node, there, has⟩ := holds_iff_hasValidator.mp holds
    exact ⟨_, given, published _ _ _ _ given _ one _ rfl _ node there has⟩
  · obtain ⟨rows, told, order, -⟩ := listed (repeated 1) (by decide)
    exact ⟨rows, told, order.trans (by decide)⟩

end StakingDirectory.Directory
