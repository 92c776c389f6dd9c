/-
**What a cycle does.**

* `outcome_cycleSet_of_vault`: a cycle succeeds wherever its vault exists, since the records of a
  chosen set have keys;
* `validatorsAt_cycled`, `used_cycled`, `waiting_cycled`: it uses all validators with the keys of the
  chosen ones, of whichever node they are, and leaves the others waiting in their order;
* `length_waiting_cycled`: a user has as many fewer as the limit says, or none left;
* `pending_cycled`: the keys that wait are those that waited and were not chosen.
-/

import StakingDirectory.Proofs.Allotment.Choice

namespace StakingDirectory

namespace Directory

variable {directory : Directory} {address : Address} {network : String} {limit : Nat}
  {vault : Vault}

/-- The keys of the validators that are chosen. -/
def chosenKeys (directory : Directory) (network : String) (limit : Nat) : List Pubkey :=
  (directory.chosen network limit).map fun entry => entry.2.pubkey

/-- Every record of a chosen set has a key, which is one of the chosen ones. -/
theorem exists_chosenKey (genuine : Genuine directory) {deposit : Deposit}
    (member : deposit ∈ directory.chooseSet network limit) :
    ∃ pubkey ∈ directory.chosenKeys network limit, deposit.validatorKey = .ok pubkey := by
  rw [chooseSet_eq] at member
  obtain ⟨entry, picked, rfl⟩ := List.mem_map.mp member
  exact ⟨entry.2.pubkey, List.mem_map.mpr ⟨entry, picked, rfl⟩,
    genuine.validatorsAt (mem_chosen picked).2.1⟩

/-- The chosen keys are those of the records of the chosen set. -/
theorem mem_chosenKeys (genuine : Genuine directory) {pubkey : Pubkey} :
    pubkey ∈ directory.chosenKeys network limit ↔
      ∃ deposit ∈ directory.chooseSet network limit, deposit.validatorKey = .ok pubkey := by
  constructor
  · intro member
    obtain ⟨entry, picked, rfl⟩ := List.mem_map.mp member
    refine ⟨entry.2.deposit, ?_, genuine.validatorsAt (mem_chosen picked).2.1⟩
    rw [chooseSet_eq]
    exact List.mem_map.mpr ⟨entry, picked, rfl⟩
  · rintro ⟨deposit, member, key⟩
    obtain ⟨own, chosen, key'⟩ := exists_chosenKey genuine member
    rw [key', Except.ok.injEq] at key
    rwa [← key]

theorem map_fst_chosen (directory : Directory) (network : String) (limit : Nat) :
    ((directory.chosenKeys network limit).zip (directory.chooseSet network limit)).map Prod.fst =
      directory.chosenKeys network limit := by
  refine List.map_fst_zip (Nat.le_of_eq ?_)
  rw [chosenKeys, chooseSet_eq, List.length_map, List.length_map]

/-! ### The directory after a cycle -/

/-- The set that was published last for a vault, empty if there is no such vault. -/
def latestSet (directory : Directory) (address : Address) (network : String) : List Deposit :=
  ((directory.vault? address network).map Vault.latestSet).getD []

/-- The directory after a cycle, whether it succeeds or is refused. -/
def cycled (directory : Directory) (address : Address) (network : String) (limit : Nat) :
    Directory :=
  ((cycleSet address network limit).outcome directory).2

/-- **A cycle succeeds for every vault that exists.** -/
theorem outcome_cycleSet_of_vault (genuine : Genuine directory)
    (found : directory.vault? address network = some vault) (limit : Nat) :
    (cycleSet address network limit).outcome directory =
      (.ok (vault.latestIndex + 1),
        directory.withCycled address network (directory.chooseSet network limit) vault
          (directory.chosenKeys network limit)) := by
  rw [outcome_cycleSet, checkBatch_eq_ok.mpr ⟨found, requireKeys_chooseSet genuine limit⟩]
  rfl

/-- A cycle is refused for any other vault. -/
theorem outcome_cycleSet_of_none (missing : directory.vault? address network = none)
    (limit : Nat) :
    (cycleSet address network limit).outcome directory =
      (.error (.unknownVault address network), directory) := by
  have refused : directory.checkBatch address network (directory.chooseSet network limit) =
      .error (.unknownVault address network) := by
    rw [checkBatch, requireVault, missing]
    rfl
  rw [outcome_cycleSet, refused]
  rfl

theorem cycled_eq (genuine : Genuine directory)
    (found : directory.vault? address network = some vault) (limit : Nat) :
    directory.cycled address network limit =
      directory.withCycled address network (directory.chooseSet network limit) vault
        (directory.chosenKeys network limit) := by
  rw [cycled, outcome_cycleSet_of_vault genuine found]

theorem steps_cycled (directory : Directory) (address : Address) (network : String)
    (limit : Nat) : Steps directory (directory.cycled address network limit) := by
  have steps := steps_change (.cycleSet address network limit) directory
  rw [Change.operation, Operation.outcome_map] at steps
  exact steps

theorem sound_cycled (sound : Sound directory) (address : Address) (network : String)
    (limit : Nat) : Sound (directory.cycled address network limit) :=
  (steps_cycled directory address network limit).keep Sound.step sound

/-- The set that was chosen is the latest set of the vault, which has all keys of it. -/
theorem vault?_cycled (genuine : Genuine directory)
    (found : directory.vault? address network = some vault) (limit : Nat) :
    (directory.cycled address network limit).vault? address network =
      some ((vault.withUploaded (directory.chosenKeys network limit)).withPublished
        (directory.chooseSet network limit)) := by
  rw [cycled_eq genuine found, vault?_withCycled found, if_pos ⟨rfl, rfl⟩]

theorem latestSet_cycled (genuine : Genuine directory)
    (found : directory.vault? address network = some vault) (limit : Nat) :
    (directory.cycled address network limit).latestSet address network =
      directory.chooseSet network limit := by
  rw [latestSet, vault?_cycled genuine found]
  rfl

theorem users_cycled (genuine : Genuine directory)
    (found : directory.vault? address network = some vault) (limit : Nat) :
    (directory.cycled address network limit).users = directory.users := by
  rw [cycled_eq genuine found]
  exact (onlyNodes_withUsed _ _ _).users

/-- **A cycle uses the validators with chosen keys**, in the lists of all registered nodes. -/
theorem validatorsAt_cycled (genuine : Genuine directory)
    (found : directory.vault? address network = some vault) (limit : Nat) (other : Address)
    (place : String) :
    (directory.cycled address network limit).validatorsAt other place =
      if other ∈ directory.registeredAddresses ∧ network = place then
        (directory.validatorsAt other place).map (Validator.published
          ((directory.chosenKeys network limit).zip (directory.chooseSet network limit)))
      else directory.validatorsAt other place := by
  rw [cycled_eq genuine found]
  exact validatorsAt_withUsed _ network _ other place

/-- **After a cycle all validators with chosen keys are used**, whichever nodes hold them. -/
theorem used_cycled (sound : Sound directory)
    (found : directory.vault? address network = some vault) {other : Address}
    {validator : Validator}
    (member : validator ∈ (directory.cycled address network limit).validatorsAt other network)
    (chosen : validator.pubkey ∈ directory.chosenKeys network limit) : validator.used = true := by
  have same := registeredAddresses_congr (users_cycled sound.genuine found limit)
  have after := sound_cycled sound address network limit
  have registered := after.owned.mem_registeredAddresses.mpr
    (after.placed (List.ne_nil_of_mem member))
  rw [same] at registered
  rw [validatorsAt_cycled sound.genuine found, if_pos ⟨registered, rfl⟩] at member
  obtain ⟨old, -, rfl⟩ := List.mem_map.mp member
  rw [(Validator.advances_published _ old).pubkey] at chosen
  refine (Validator.used_published _ old).mpr (.inr ?_)
  rw [map_fst_chosen]
  exact chosen

/-! ### What waits after a cycle -/

/-- **What was not chosen waits on**, in its order. -/
theorem waiting_cycled (genuine : Genuine directory)
    (found : directory.vault? address network = some vault) {addresses : List Address}
    (registered : addresses ⊆ directory.registeredAddresses) :
    (directory.cycled address network limit).waiting network addresses =
      (directory.waiting network addresses).filter fun entry =>
        entry.2.pubkey ∉ directory.chosenKeys network limit := by
  unfold waiting
  rw [List.filter_flatMap]
  refine List.flatMap_congr fun other member => ?_
  rw [validatorsAt_cycled genuine found, if_pos ⟨registered member, rfl⟩, List.filter_map,
    List.map_map, List.filter_map, List.filter_filter]
  have keys := map_fst_chosen directory network limit
  generalize (directory.chosenKeys network limit).zip (directory.chooseSet network limit) = entries
    at keys ⊢
  rw [← keys]
  have unused : ∀ validator : Validator,
      (!(validator.published entries).used) =
        (decide (validator.pubkey ∉ entries.map Prod.fst) && !validator.used) := by
    intro validator
    rw [Bool.eq_iff_iff]
    simp only [Bool.not_eq_true', Bool.and_eq_true, decide_eq_true_eq,
      ← Bool.not_eq_true, Validator.used_published, not_or]
    exact and_comm
  have same : (directory.validatorsAt other network).filter
      ((fun validator => !validator.used) ∘ Validator.published entries) =
      (directory.validatorsAt other network).filter fun validator =>
        decide (validator.pubkey ∉ entries.map Prod.fst) && !validator.used :=
    List.filter_congr fun validator _ => unused validator
  rw [same]
  refine List.map_congr_left fun validator inside => ?_
  have outside := (List.mem_filter.mp inside).2
  rw [Bool.and_eq_true, decide_eq_true_eq] at outside
  rw [Function.comp_apply, Validator.published_of_not_mem outside.1]

/-- **The queue of a user gets shorter by the limit**, until it is empty. -/
theorem length_waiting_cycled (genuine : Genuine directory)
    (found : directory.vault? address network = some vault) (limit : Nat) {user : User}
    (member : user ∈ directory.users) :
    ((directory.cycled address network limit).waiting network user.registered).length ≤
      (directory.waiting network user.registered).length - limit := by
  have registered : user.registered ⊆ directory.registeredAddresses :=
    fun _ listed => List.mem_flatMap.mpr ⟨user, member, listed⟩
  rw [waiting_cycled genuine found registered]
  generalize queue_eq : directory.waiting network user.registered = queue
  have gone : (queue.take limit).filter (fun entry =>
      entry.2.pubkey ∉ directory.chosenKeys network limit) = [] := by
    refine List.filter_eq_nil_iff.mpr fun entry inside => ?_
    have picked : entry ∈ directory.chosen network limit :=
      List.mem_flatMap.mpr ⟨user, member, by rw [queue_eq]; exact inside⟩
    have key : entry.2.pubkey ∈ directory.chosenKeys network limit :=
      List.mem_map.mpr ⟨entry, picked, rfl⟩
    simpa using key
  calc (queue.filter fun entry =>
        entry.2.pubkey ∉ directory.chosenKeys network limit).length
      = ((queue.take limit ++ queue.drop limit).filter fun entry =>
        entry.2.pubkey ∉ directory.chosenKeys network limit).length := by
        rw [List.take_append_drop]
    _ ≤ (queue.drop limit).length := by
        rw [List.filter_append, gone, List.nil_append]
        exact List.length_filter_le _ _
    _ = queue.length - limit := List.length_drop

/-- A validator with this key waits to be chosen. -/
def Pending (directory : Directory) (network : String) (pubkey : Pubkey) : Prop :=
  ∃ entry ∈ directory.waiting network directory.registeredAddresses, entry.2.pubkey = pubkey

theorem pending_of_chosen {pubkey : Pubkey}
    (member : pubkey ∈ directory.chosenKeys network limit) : directory.Pending network pubkey := by
  obtain ⟨entry, inside, same⟩ := List.mem_map.mp member
  exact ⟨entry, mem_waiting.mpr (mem_chosen inside), same⟩

theorem pending_cycled (genuine : Genuine directory)
    (found : directory.vault? address network = some vault) {pubkey : Pubkey} :
    (directory.cycled address network limit).Pending network pubkey ↔
      directory.Pending network pubkey ∧ pubkey ∉ directory.chosenKeys network limit := by
  have same := registeredAddresses_congr (users_cycled genuine found limit)
  unfold Pending
  rw [same, waiting_cycled genuine found (List.Subset.refl _)]
  constructor
  · rintro ⟨entry, inside, rfl⟩
    obtain ⟨waited, left⟩ := List.mem_filter.mp inside
    exact ⟨⟨entry, waited, rfl⟩, by simpa using left⟩
  · rintro ⟨⟨entry, waited, rfl⟩, left⟩
    exact ⟨entry, List.mem_filter.mpr ⟨waited, by simpa using left⟩, rfl⟩

end Directory

end StakingDirectory
