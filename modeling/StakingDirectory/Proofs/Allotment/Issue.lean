/-
**What a cycle issues.**

A published set may leave validators with records for other networks or for vaults that do not exist.
None of them is ever issued by a cycle:

* `Issuable`: a record has a key, is for the network, and for a vault there. All records of a chosen
  set are (`issuable_of_chosen`), since only unused validators are chosen, and these still have the
  records that were checked when they were handed in;
* `Spent`: a node holds a validator that is used. What was chosen is spent after the cycle
  (`spent_cycled`), stays spent whatever is done next (`Spent.steps`), and is not chosen again
  (`Spent.not_chosen`);
* `cycleSet_issues`: when a cycle succeeds, and what it then has issued.
-/

import StakingDirectory.Proofs.Allotment.Cycle

namespace StakingDirectory.Directory

variable {directory : Directory} {network : String}

/-! ### Records that can be issued -/

/-- **A record that is fit to be issued** on a network. -/
structure Issuable (directory : Directory) (network : String) (deposit : Deposit) : Prop where
  keyed : deposit.pubkey.length = 48
  place : deposit.network = network
  /-- The vault that the record pays out to exists. -/
  home : ∃ vault, directory.vault? deposit.withdrawalAddress network = some vault

/-- **Every record of a chosen set can be issued.** -/
theorem issuable_of_chosen (sound : Sound directory) {limit : Nat} {deposit : Deposit}
    (member : deposit ∈ directory.chooseSet network limit) :
    directory.Issuable network deposit := by
  rw [chooseSet_eq] at member
  obtain ⟨entry, picked, rfl⟩ := List.mem_map.mp member
  obtain ⟨-, held, unused⟩ := mem_chosen picked
  obtain ⟨place, target⟩ := sound.intact held unused
  have key := Deposit.pubkey_of_validatorKey (sound.genuine.validatorsAt held)
  refine ⟨?_, place, ?_⟩
  · rw [key]
    exact entry.2.pubkey.length_bytes
  · rw [target]
    exact sound.homed held

/-! ### Validators that are used -/

/-- A node holds a validator with this key that is used. -/
def Spent (directory : Directory) (network : String) (node : Address) (pubkey : Pubkey) : Prop :=
  ∃ validator ∈ directory.validatorsAt node network,
    validator.pubkey = pubkey ∧ validator.used = true

/-- **What is spent stays spent.** -/
theorem Spent.steps {before after : Directory} (steps : Steps before after) {node : Address}
    {pubkey : Pubkey} (spent : before.Spent network node pubkey) :
    after.Spent network node pubkey := by
  obtain ⟨validator, held, rfl, used⟩ := spent
  obtain ⟨later, there, advances⟩ := steps.advances held
  exact ⟨later, there, advances.pubkey, advances.used used⟩

/-- **What is spent is not chosen.** -/
theorem Spent.not_chosen (sound : Sound directory) {node : Address} {pubkey : Pubkey}
    (spent : directory.Spent network node pubkey) {limit : Nat} :
    (node, pubkey) ∉
      (directory.chosen network limit).map fun entry => (entry.1, entry.2.pubkey) := by
  obtain ⟨validator, held, rfl, used⟩ := spent
  intro again
  obtain ⟨entry, picked, same⟩ := List.mem_map.mp again
  obtain ⟨rfl, key⟩ := Prod.mk.inj same
  obtain ⟨-, held', unused⟩ := mem_chosen picked
  -- The node holds the key once, so that the validator would be used and unused.
  have one : entry.2 = validator :=
    List.inj_on_of_nodup_map (sound.distinct entry.1 network) held' held key
  rw [one, used] at unused
  cases unused

variable {address : Address} {vault : Vault} {limit : Nat}

/-- **What was chosen is spent after the cycle.** -/
theorem spent_cycled (sound : Sound directory)
    (found : directory.vault? address network = some vault) {node : Address} {pubkey : Pubkey}
    (picked : (node, pubkey) ∈
      (directory.chosen network limit).map fun entry => (entry.1, entry.2.pubkey)) :
    (directory.cycled address network limit).Spent network node pubkey := by
  obtain ⟨entry, inside, same⟩ := List.mem_map.mp picked
  obtain ⟨rfl, rfl⟩ := Prod.mk.inj same
  obtain ⟨-, held, -⟩ := mem_chosen inside
  obtain ⟨later, there, advances⟩ :=
    (steps_cycled directory address network limit).advances held
  have chosen : later.pubkey ∈ directory.chosenKeys network limit := by
    rw [advances.pubkey]
    exact List.mem_map.mpr ⟨entry, inside, rfl⟩
  exact ⟨later, there, advances.pubkey, used_cycled sound found there chosen⟩

/-- **No key of the set is in a set that is chosen next**, whichever node holds it. -/
theorem pubkey_ne_of_chosen_next (sound : Sound directory)
    (found : directory.vault? address network = some vault) {deposit next : Deposit} {other : Nat}
    (member : deposit ∈ directory.chooseSet network limit)
    (member' : next ∈ (directory.cycled address network limit).chooseSet network other) :
    next.pubkey ≠ deposit.pubkey := by
  intro same
  have after := sound_cycled sound address network limit
  obtain ⟨pubkey, chosen, key⟩ := exists_chosenKey after.genuine member'
  have key' : deposit.validatorKey = .ok pubkey := by
    rw [Deposit.validatorKey, ← same]
    exact key
  exact ((pending_cycled sound.genuine found).mp (pending_of_chosen chosen)).2
    ((mem_chosenKeys sound.genuine).mpr ⟨deposit, member, key'⟩)

/-! ### Cycles -/

/-- The keys of a chosen set are noted with a vault that it is handed to. -/
theorem mem_uploaded_of_chosen (genuine : Genuine directory) {deposit : Deposit}
    (member : deposit ∈ directory.chooseSet network limit) :
    ∃ pubkey ∈ (vault.withUploaded (directory.chosenKeys network limit)).uploaded,
      deposit.validatorKey = .ok pubkey := by
  obtain ⟨pubkey, chosen, key⟩ := exists_chosenKey genuine member
  exact ⟨pubkey, Vault.mem_withUploaded.mpr (.inr chosen), key⟩

/-- The vault of a cycle that succeeds exists. -/
theorem exists_vault_of_cycleSet {index : UInt64} {after : Directory}
    (succeeded : (cycleSet address network limit).outcome directory = (.ok index, after)) :
    ∃ vault, directory.vault? address network = some vault := by
  cases found : directory.vault? address network with
  | some vault => exact ⟨vault, rfl⟩
  | none =>
    rw [outcome_cycleSet_of_none found] at succeeded
    cases succeeded

/-- **A cycle succeeds wherever its vault exists, and issues what was chosen.** In every directory
that can come about, also after sets with other records were published, a cycle succeeds if and only
if its vault exists on the network; otherwise it is refused for the vault. When it succeeds, the
latest set of the vault is the one that could be chosen before; each record of it has a key of 48
bytes, is for the network and for a vault that exists there, and its key is noted with the vault. No
set that is chosen next has one of these keys, and no validator that was chosen is chosen for the
network again, whatever is done in between. -/
theorem cycleSet_issues (actions : List Action) (address : Address) (network : String)
    (limit : Nat) :
    ((∃ index after,
        (cycleSet address network limit).outcome (built actions) = (.ok index, after)) ↔
      ∃ vault, (built actions).vault? address network = some vault) ∧
    ((built actions).vault? address network = none →
      (cycleSet address network limit).outcome (built actions) =
        (.error (.unknownVault address network), built actions)) ∧
    ∀ index after,
      (cycleSet address network limit).outcome (built actions) = (.ok index, after) →
      (∃ vault, after.vault? address network = some vault ∧
        vault.latestSet = (built actions).chooseSet network limit ∧
        ∀ deposit ∈ vault.latestSet, (built actions).Issuable network deposit ∧
          ∃ pubkey ∈ vault.uploaded, deposit.validatorKey = .ok pubkey) ∧
      (∀ deposit ∈ (built actions).chooseSet network limit, ∀ other,
        ∀ next ∈ after.chooseSet network other, next.pubkey ≠ deposit.pubkey) ∧
      ∀ (more : List Action) (other : Nat), ∀ entry ∈ (built actions).chosen network limit,
        (entry.1, entry.2.pubkey) ∉ ((more.foldl Directory.after after).chosen network other).map
          fun again => (again.1, again.2.pubkey) := by
  have sound := sound_built actions
  generalize built actions = directory at sound ⊢
  refine ⟨⟨fun ⟨_, _, succeeded⟩ => exists_vault_of_cycleSet succeeded,
      fun ⟨vault, found⟩ => ⟨_, _, outcome_cycleSet_of_vault sound.genuine found limit⟩⟩,
    fun missing => outcome_cycleSet_of_none missing limit, fun index after succeeded => ?_⟩
  obtain ⟨vault, found⟩ := exists_vault_of_cycleSet succeeded
  obtain rfl : directory.cycled address network limit = after := congrArg Prod.snd succeeded
  refine ⟨⟨_, vault?_cycled sound.genuine found limit, rfl, fun deposit member =>
      ⟨issuable_of_chosen sound member, mem_uploaded_of_chosen sound.genuine member⟩⟩,
    fun deposit member other next => pubkey_ne_of_chosen_next sound found member,
    fun more other entry picked => ?_⟩
  have steps := steps_foldl more (directory.cycled address network limit)
  have spent := spent_cycled sound found (List.mem_map.mpr ⟨entry, picked, rfl⟩)
  exact (spent.steps steps).not_chosen
    (steps.keep Sound.step (sound_cycled sound address network limit))

/-- A node hands in two records, and a set is published with another record for the first key, which
is for another network and for a vault that does not exist. -/
def relabelledFirst : List Action :=
  opening "a" [repeated 1] "n" [repeated 9] ++
    [.change (.uploadDeposits (repeated 1)
        [plainDeposit 3 (repeated 9) "n", plainDeposit 4 (repeated 9) "n"]),
      .change (.publishSet (repeated 9) "n" [plainDeposit 3 (repeated 8) "m"])]

set_option maxRecDepth 2000 in
/-- The other record is stored, but a cycle issues the second record only. -/
theorem cycleSet_issues_relabelledFirst :
    ((built relabelledFirst).validatorsAt (repeated 1) "n").map Validator.deposit =
      [plainDeposit 3 (repeated 8) "m", plainDeposit 4 (repeated 9) "n"] ∧
    (∃ index after, (cycleSet (repeated 9) "n" 5).outcome (built relabelledFirst) =
        (.ok index, after) ∧
      after.latestSet (repeated 9) "n" = [plainDeposit 4 (repeated 9) "n"] ∧
      (plainDeposit 4 (repeated 9) "n").pubkey.length = 48) ∧
    (cycleSet (repeated 8) "n" 5).outcome (built relabelledFirst) =
      (.error (.unknownVault (repeated 8) "n"), built relabelledFirst) := by
  refine ⟨by decide, ?_, (cycleSet_issues relabelledFirst (repeated 8) "n" 5).2.1 (by decide)⟩
  obtain ⟨succeeds, -, issues⟩ := cycleSet_issues relabelledFirst (repeated 9) "n" 5
  obtain ⟨index, after, succeeded⟩ := succeeds.mpr ⟨_, Option.eq_some_of_isSome (by decide)⟩
  obtain ⟨⟨vault, there, chosen, issued⟩, -⟩ := issues index after succeeded
  have set : vault.latestSet = [plainDeposit 4 (repeated 9) "n"] := chosen.trans (by decide)
  refine ⟨index, after, succeeded, ?_, (issued _ (by rw [set]; exact List.mem_cons_self)).1.keyed⟩
  rw [latestSet, there]
  exact set

end StakingDirectory.Directory
