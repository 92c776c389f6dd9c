/-
**What marking a batch does, and to which validators.**

A batch is gone through record by record, and for each record all registered nodes are gone through.
What comes of it can be said of every validator at once:

* `renewed` is a validator after a set was published: it is used and has the last record of the set
  for its key, if there is one (`published_eq_renewed`); `marked` is a validator after the validators
  of a batch were marked as active (`confirmed_eq_marked`). `Replaced` says field by field what
  becomes of a validator when records for its key are published (`replaced_renewed`);
* `Revised`: in all lists of one network validators were changed in this way, and users, other lists
  and the standing of nodes were left alone;
* `marks_exact`: publishing a set and marking a batch do this to the whole directory. Nodes that are
  not registered are not gone through, but they hold no validators.
-/

import StakingDirectory.Proofs.Directory.Growth

namespace StakingDirectory

/-! ### One validator -/

namespace Validator

/-- **What a set leaves a validator with** is the last record for its key. -/
theorem published_eq (entries : List (Pubkey × Deposit)) (validator : Validator) :
    validator.published entries =
      (((entries.filter fun entry => entry.1 = validator.pubkey).map Prod.snd).getLast?).elim
        validator fun deposit => Directory.markUsed deposit validator :=
  changed_eq_last Directory.markUsed (fun _ _ => rfl) (fun _ _ _ => rfl) entries validator

theorem confirmed_eq (pubkeys : List Pubkey) (validator : Validator) :
    validator.confirmed pubkeys =
      if validator.pubkey ∈ pubkeys then validator.activated else validator := by
  induction pubkeys generalizing validator with
  | nil => rfl
  | cons pubkey rest ih =>
    show (validator.changeFor pubkey activated).confirmed rest = _
    rw [changeFor, ih]
    by_cases same : validator.pubkey = pubkey
    · rw [if_pos same, if_pos (List.mem_cons.mpr (.inl same))]
      split <;> rfl
    · rw [if_neg same]
      simp only [List.mem_cons, same, false_or]

/-- A validator after a set was published. -/
def renewed (batch : List Deposit) (validator : Validator) : Validator :=
  match (batch.filter fun deposit => deposit.pubkey = validator.pubkey.bytes).getLast? with
  | some deposit => { validator with deposit, used := true }
  | none => validator

/-- A validator after the validators of a batch were marked as active. -/
def marked (batch : List Deposit) (validator : Validator) : Validator :=
  if ∃ deposit ∈ batch, deposit.pubkey = validator.pubkey.bytes then
    { validator with active := true }
  else validator

variable {batch : List Deposit} {pubkeys : List Pubkey}

/-- The records beside a key are those with its bytes. -/
theorem filter_zip_keys
    (keys : List.Forall₂ (fun deposit pubkey => deposit.validatorKey = .ok pubkey) batch pubkeys)
    (pubkey : Pubkey) :
    ((pubkeys.zip batch).filter fun entry => entry.1 = pubkey).map Prod.snd =
      batch.filter fun deposit => deposit.pubkey = pubkey.bytes := by
  induction keys with
  | nil => rfl
  | @cons deposit own rest rest' key _ ih =>
    rw [List.zip_cons_cons]
    by_cases same : own = pubkey
    · rw [List.filter_cons_of_pos (by simpa using same), List.map_cons, ih,
        List.filter_cons_of_pos (by simpa using (Deposit.pubkey_eq_bytes_iff key).mpr same)]
    · rw [List.filter_cons_of_neg (by simpa using same), ih, List.filter_cons_of_neg
        (by simpa using fun bytes => same ((Deposit.pubkey_eq_bytes_iff key).mp bytes))]

theorem published_eq_renewed
    (keys : List.Forall₂ (fun deposit pubkey => deposit.validatorKey = .ok pubkey) batch pubkeys)
    (validator : Validator) :
    validator.published (pubkeys.zip batch) = validator.renewed batch := by
  rw [published_eq, filter_zip_keys keys, renewed]
  cases (batch.filter fun deposit => deposit.pubkey = validator.pubkey.bytes).getLast? <;> rfl

/-- A key is one of a batch if its bytes are. -/
theorem mem_keys_iff
    (keys : List.Forall₂ (fun deposit pubkey => deposit.validatorKey = .ok pubkey) batch pubkeys)
    (pubkey : Pubkey) :
    pubkey ∈ pubkeys ↔ ∃ deposit ∈ batch, deposit.pubkey = pubkey.bytes := by
  induction keys with
  | nil => simp
  | cons key _ ih =>
    rw [List.mem_cons, ih, List.exists_mem_cons_iff, Deposit.pubkey_eq_bytes_iff key, eq_comm]

theorem confirmed_eq_marked
    (keys : List.Forall₂ (fun deposit pubkey => deposit.validatorKey = .ok pubkey) batch pubkeys)
    (validator : Validator) :
    validator.confirmed pubkeys = validator.marked batch := by
  rw [confirmed_eq, marked]
  simp only [mem_keys_iff keys]
  rfl

/-- **What becomes of a validator when records for its key are published.** -/
structure Replaced (records : List Deposit) (before after : Validator) : Prop where
  pubkey : after.pubkey = before.pubkey
  vault : after.vault = before.vault
  /-- The last record is the deposit, if there is one. -/
  deposit : after.deposit = records.getLast?.getD before.deposit
  used : after.used = true ↔ before.used = true ∨ records ≠ []

theorem Replaced.refl (validator : Validator) : Replaced [] validator validator where
  pubkey := rfl
  vault := rfl
  deposit := rfl
  used := by simp

theorem Replaced.trans {earlier later : List Deposit} {first second third : Validator}
    (before : Replaced earlier first second) (after : Replaced later second third) :
    Replaced (earlier ++ later) first third where
  pubkey := after.pubkey.trans before.pubkey
  vault := after.vault.trans before.vault
  deposit := by
    rw [after.deposit, before.deposit, List.getLast?_append]
    cases later.getLast? <;> rfl
  used := by
    rw [after.used, before.used, or_assoc, ← not_and_or, ← List.append_eq_nil_iff]

/-- What is not used has the deposit that it had. -/
theorem Replaced.unused {records : List Deposit} {before after : Validator}
    (replaced : Replaced records before after) (unused : after.used = false) :
    before.used = false ∧ after.deposit = before.deposit := by
  have none : ¬ (before.used = true ∨ records ≠ []) := by
    rw [← replaced.used, unused]
    exact Bool.false_ne_true
  rw [not_or, Bool.not_eq_true, not_not] at none
  exact ⟨none.1, by rw [replaced.deposit, none.2]; rfl⟩

theorem replaced_renewed (batch : List Deposit) (validator : Validator) :
    Replaced (batch.filter fun deposit => deposit.pubkey = validator.pubkey.bytes) validator
      (validator.renewed batch) := by
  rw [renewed]
  cases last : (batch.filter fun deposit => deposit.pubkey = validator.pubkey.bytes).getLast? with
  | none =>
    rw [List.getLast?_eq_none_iff.mp last]
    exact .refl validator
  | some deposit =>
    have some : (batch.filter fun deposit => deposit.pubkey = validator.pubkey.bytes) ≠ [] := by
      intro nothing
      rw [nothing] at last
      cases last
    exact ⟨rfl, rfl, by rw [last]; rfl, iff_of_true rfl (.inr some)⟩

end Validator

/-- Records whose keys are long enough have keys. -/
theorem exists_requireKeys {batch : List Deposit}
    (keyed : ∀ deposit ∈ batch, deposit.pubkey.length = 48) :
    ∃ pubkeys, Directory.requireKeys batch = .ok pubkeys := by
  simp only [Directory.requireKeys_eq_ok]
  induction batch with
  | nil => exact ⟨[], .nil⟩
  | cons deposit rest ih =>
    obtain ⟨pubkeys, keys⟩ := ih fun other member => keyed other (List.mem_cons_of_mem _ member)
    have key : deposit.validatorKey = .ok ⟨deposit.pubkey, keyed deposit List.mem_cons_self⟩ :=
      dif_pos (keyed deposit List.mem_cons_self)
    exact ⟨_, .cons key keys⟩

namespace Directory

/-! ### All validators of a network -/

/-- **The validators of all nodes on a network were changed**, and nothing else but vaults was. -/
structure Revised (network : String) (change : Validator → Validator)
    (before after : Directory) : Prop where
  users : after.users = before.users
  userIndex : after.userIndex = before.userIndex
  /-- Nodes have their addresses and owners, and are registered or not, as before. -/
  standing : ∀ address, after.standing? address = before.standing? address
  elsewhere : ∀ address place, place ≠ network →
    after.validatorsAt address place = before.validatorsAt address place
  here : ∀ address, after.validatorsAt address network =
    (before.validatorsAt address network).map change

variable {directory : Directory} {network : String}

theorem Revised.withVault {change : Validator → Validator} {between : Directory}
    (revised : Revised network change directory between) (address : Address) (place : String)
    (vault : Vault) :
    Revised network change directory (between.withVault address place vault) :=
  ⟨revised.users, revised.userIndex, revised.standing, revised.elsewhere, revised.here⟩

/-- Changes in the lists of the registered nodes are changes in all lists. -/
theorem revised_of_registered (sound : Sound directory) {change : Validator → Validator}
    {after : Directory} (nodes : OnlyNodes directory after)
    (standing : SameStanding directory after)
    (lists : ∀ address place, after.validatorsAt address place =
      if address ∈ directory.registeredAddresses ∧ network = place then
        (directory.validatorsAt address place).map change
      else directory.validatorsAt address place) :
    Revised network change directory after where
  users := nodes.users
  userIndex := nodes.userIndex
  standing := standing.nodes
  elsewhere address place other := by
    rw [lists, if_neg fun both => other both.2.symm]
  here address := by
    rw [lists]
    split
    · rfl
    · rename_i outside
      -- The node is not registered, and holds nothing.
      have nothing : directory.validatorsAt address network = [] := by
        by_contra some
        exact outside ⟨sound.owned.mem_registeredAddresses.mpr (sound.placed some), rfl⟩
      rw [nothing, List.map_nil]

variable {batch : List Deposit} {pubkeys : List Pubkey}

theorem revised_withUsed (sound : Sound directory)
    (keys : List.Forall₂ (fun deposit pubkey => deposit.validatorKey = .ok pubkey) batch pubkeys) :
    Revised network (Validator.renewed batch) directory
      (directory.withUsed network (pubkeys.zip batch)) := by
  refine revised_of_registered sound (onlyNodes_withUsed _ _ _) (sameStanding_withUsed _ _ _)
    fun address place => ?_
  rw [validatorsAt_withUsed, ← funext (Validator.published_eq_renewed keys)]

theorem revised_withActive (sound : Sound directory)
    (keys : List.Forall₂ (fun deposit pubkey => deposit.validatorKey = .ok pubkey) batch pubkeys) :
    Revised network (Validator.marked batch) directory (directory.withActive network pubkeys) := by
  refine revised_of_registered sound (onlyNodes_withActive _ _ _) (sameStanding_withActive _ _ _)
    fun address place => ?_
  rw [validatorsAt_withActive, ← funext (Validator.confirmed_eq_marked keys)]

/-- A cycle leaves the validators as the publication of its set does. -/
theorem revised_withCycled (sound : Sound directory) {address : Address} {vault : Vault}
    (found : directory.vault? address network = some vault)
    (keys : requireKeys batch = .ok pubkeys) :
    Revised network (Validator.renewed batch) directory
      (directory.withCycled address network batch vault pubkeys) := by
  have handed : (handToVault address network batch).outcome directory = _ :=
    handToVault_eq_ok.mpr ⟨pubkeys, vault, keys, found, rfl⟩
  have sound' := sound.outcome (.handToVault address network batch) rfl handed
  -- A hand-over leaves the nodes alone.
  obtain ⟨users, userIndex, standing, elsewhere, here⟩ :=
    revised_withUsed sound' (requireKeys_eq_ok.mp keys)
  exact ⟨users, userIndex, standing, elsewhere, here⟩

/-! ### Publishing and marking -/

/-- **Marking a batch changes the validators with its keys, and no others.** Let a vault exist and all
records of a batch have keys of 48 bytes; keys may come more than once or be unknown, and records may
be for other networks. In every directory that can come about, publishing the batch succeeds with the
next number. Then every validator on the network of the vault, of whichever node, whose key is in the
batch is used and has the last record of the batch for its key; of the vault the latest set is the
batch, and its number is one more; nothing else has changed. Marking the batch as active succeeds as
well, and then every validator on the network whose key is in the batch is active, and nothing else
has changed. -/
theorem marks_exact (actions : List Action) (address : Address) (network : String)
    (batch : List Deposit) (vault : Vault)
    (found : (built actions).vault? address network = some vault)
    (keyed : ∀ deposit ∈ batch, deposit.pubkey.length = 48) :
    (∃ after, (publishSet address network batch).outcome (built actions) =
        (.ok (vault.latestIndex + 1), after) ∧
      Revised network (Validator.renewed batch) (built actions) after ∧
      ∀ other place, after.vault? other place =
        if address = other ∧ network = place then
          some { vault with latestSet := batch, latestIndex := vault.latestIndex + 1 }
        else (built actions).vault? other place) ∧
    ∃ after, (markActive address network batch).outcome (built actions) = (.ok (), after) ∧
      Revised network (Validator.marked batch) (built actions) after ∧
      after.vaults = (built actions).vaults := by
  have sound := sound_built actions
  generalize built actions = directory at found sound ⊢
  obtain ⟨pubkeys, spelled⟩ := exists_requireKeys keyed
  have passed := checkBatch_eq_ok.mpr ⟨found, spelled⟩
  have keys := requireKeys_eq_ok.mp spelled
  constructor
  · refine ⟨directory.withPublished address network batch vault pubkeys, ?_,
      (revised_withUsed sound keys).withVault _ _ _, vault?_withPublished found batch vault pubkeys⟩
    rw [outcome_publishSet, passed]
    rfl
  · refine ⟨directory.withActive network pubkeys, ?_, revised_withActive sound keys,
      (onlyNodes_withActive _ _ _).vaults⟩
    rw [outcome_markActive, passed]
    rfl

/-- Two nodes of one user, which hold one key both. -/
def sharedKey : List Action :=
  opening "a" [repeated 1, repeated 2] "n" [repeated 9] ++
    [.change (.uploadDeposits (repeated 1)
        [plainDeposit 3 (repeated 9) "n", plainDeposit 4 (repeated 9) "n"]),
      .change (.uploadDeposits (repeated 2) [plainDeposit 3 (repeated 9) "n"])]

/-- Two records for the shared key, the later of them for another network and a vault that does not
exist, and one for a key that nobody holds. -/
def relabelledBatch : List Deposit :=
  [plainDeposit 3 (repeated 9) "n", plainDeposit 7 (repeated 9) "n",
    plainDeposit 3 (repeated 8) "m"]

set_option maxRecDepth 2000 in
/-- Both nodes have the later record in the end. -/
theorem marks_exact_relabelledBatch :
    (built sharedKey).vault? (repeated 9) "n" = some { address := repeated 9, network := "n" } ∧
    (∀ deposit ∈ relabelledBatch, deposit.pubkey.length = 48) ∧
    (∃ after,
      (publishSet (repeated 9) "n" relabelledBatch).outcome (built sharedKey) = (.ok 1, after) ∧
      after.validatorsAt (repeated 1) "n" =
        [{ Validator.ofDeposit (repeated 3) (plainDeposit 3 (repeated 9) "n") with
            deposit := plainDeposit 3 (repeated 8) "m", used := true },
          .ofDeposit (repeated 4) (plainDeposit 4 (repeated 9) "n")] ∧
      after.validatorsAt (repeated 2) "n" =
        [{ Validator.ofDeposit (repeated 3) (plainDeposit 3 (repeated 9) "n") with
            deposit := plainDeposit 3 (repeated 8) "m", used := true }]) ∧
    ∃ after,
      (markActive (repeated 9) "n" relabelledBatch).outcome (built sharedKey) = (.ok (), after) ∧
      after.validatorsAt (repeated 2) "n" =
        [{ Validator.ofDeposit (repeated 3) (plainDeposit 3 (repeated 9) "n") with
            active := true }] := by
  have found : (built sharedKey).vault? (repeated 9) "n" =
      some { address := repeated 9, network := "n" } := by decide
  have keyed : ∀ deposit ∈ relabelledBatch, deposit.pubkey.length = 48 := by decide
  obtain ⟨⟨published, succeeds, renewed, -⟩, marked, succeeds', revised, -⟩ :=
    marks_exact sharedKey (repeated 9) "n" relabelledBatch _ found keyed
  exact ⟨found, keyed,
    ⟨published, succeeds, (renewed.here _).trans (by decide), (renewed.here _).trans (by decide)⟩,
    marked, succeeds', (revised.here _).trans (by decide)⟩

end Directory

end StakingDirectory
