/-
**What the checks of the directory let through.**

For each check that an operation makes first, the exact condition under which it is passed, and
with which value. For what is done with a vault, this gives when it succeeds, and what it leaves
behind (`handToVault_eq_ok`, `publishSet_eq_ok`, `markActive_eq_ok`, `cycleSet_eq_ok`).
-/

import StakingDirectory.Proofs.Directory.Effect

namespace StakingDirectory

open Operation

theorem Deposit.requireKey_eq_ok {deposit : Deposit} {pubkey : Pubkey} :
    deposit.requireKey = .ok pubkey ↔ deposit.validatorKey = .ok pubkey := by
  unfold Deposit.requireKey
  cases deposit.validatorKey <;> simp

/-- A record with a key has the bytes of the key. -/
theorem Deposit.pubkey_of_validatorKey {deposit : Deposit} {pubkey : Pubkey}
    (key : deposit.validatorKey = .ok pubkey) : deposit.pubkey = pubkey.bytes := by
  unfold validatorKey FixedBytes.ofBytes at key
  split at key
  · cases key
    rfl
  · cases key

/-- **A record has the key whose bytes it has.** -/
theorem Deposit.validatorKey_eq_ok {deposit : Deposit} {pubkey : Pubkey} :
    deposit.validatorKey = .ok pubkey ↔ deposit.pubkey = pubkey.bytes := by
  refine ⟨pubkey_of_validatorKey, fun same => ?_⟩
  unfold validatorKey FixedBytes.ofBytes
  rw [dif_pos (same ▸ pubkey.length_bytes)]
  exact congrArg Except.ok (FixedBytes.ext_bytes same)

/-- Records are for the same key if they have the same bytes for it. -/
theorem Deposit.pubkey_eq_bytes_iff {deposit : Deposit} {own pubkey : Pubkey}
    (key : deposit.validatorKey = .ok own) : deposit.pubkey = pubkey.bytes ↔ own = pubkey := by
  rw [Deposit.pubkey_of_validatorKey key]
  exact ⟨FixedBytes.ext_bytes, congrArg FixedBytes.bytes⟩

/-- An exit may be handed in for a validator of the node. -/
theorem Node.checkExit_eq_ok {node : Node} {network : String} {entry : ExitEntry}
    {pubkey : Pubkey} :
    node.checkExit network entry = .ok pubkey ↔
      entry.validatorKey = .ok pubkey ∧ node.hasValidator network pubkey = true := by
  unfold Node.checkExit
  cases entry.validatorKey with
  | error fault => simp
  | ok other =>
    simp only [Except.ok.injEq]
    by_cases held : node.hasValidator network other = true
    · rw [if_pos held, Except.ok.injEq]
      constructor
      · rintro rfl
        exact ⟨rfl, held⟩
      · exact fun both => both.1
    · rw [if_neg held]
      constructor
      · exact fun passed => by cases passed
      · rintro ⟨rfl, also⟩
        exact absurd also held

namespace Directory

variable {directory : Directory}

theorem userPosition_eq_ok {email : String} {position : Nat} :
    directory.userPosition email = .ok position ↔
      directory.userIndex[email]? = some position := by
  unfold userPosition
  cases directory.userIndex[email]? <;> simp

theorem registeredNode_eq_ok {address : Address} {node : Node} :
    directory.registeredNode address = .ok node ↔
      directory.node? address = some node ∧ node.registered = true := by
  unfold registeredNode
  cases directory.node? address with
  | none => simp
  | some other =>
    by_cases registered : other.registered = true
    · simp only [registered, if_true, Except.ok.injEq, Option.some.injEq]
      constructor
      · rintro rfl
        exact ⟨rfl, registered⟩
      · exact fun both => both.1
    · simp only [registered, Option.some.injEq]
      constructor
      · exact fun passed => by cases passed
      · rintro ⟨rfl, also⟩
        exact absurd also registered

theorem requireVault_eq_ok {address : Address} {network : String} {vault : Vault} :
    directory.requireVault address network = .ok vault ↔
      directory.vault? address network = some vault := by
  unfold requireVault
  cases directory.vault? address network <;> simp

/-- A vault comes in once at an address on a network. -/
theorem checkNewVault_eq_ok {address : Address} {network : String} {refusal : Refusal} :
    (if ((directory.vaults[network]?).getD ∅).contains address then Except.error refusal
      else .ok ()) = .ok () ↔ directory.vault? address network = none := by
  unfold vault?
  cases directory.vaults[network]? <;> simp

theorem checkWhitelisting_eq_ok {email : String} {address : Address} {position : Nat}
    {free : Bool} :
    directory.checkWhitelisting email address = .ok (position, free) ↔
      directory.userIndex[email]? = some position ∧
        if free then directory.node? address = none
        else ∃ node, directory.node? address = some node ∧ node.owner = email := by
  unfold checkWhitelisting
  rw [bind_eq_ok]
  simp only [userPosition_eq_ok]
  cases directory.node? address with
  | none => cases free <;> simp [pure, Except.pure]
  | some node =>
    by_cases owned : node.owner = email <;>
      cases free <;> simp [owned, pure, Except.pure, throw, throwThe, MonadExceptOf.throw]

/-- A user may register exactly the nodes that are theirs and not yet registered. -/
theorem checkRegistration_eq_ok {email : String} {address : Address} {position : Nat} :
    directory.checkRegistration email address = .ok position ↔
      directory.userIndex[email]? = some position ∧
        ∃ node, directory.node? address = some node ∧ node.registered = false ∧
          node.owner = email := by
  unfold checkRegistration
  rw [bind_eq_ok]
  simp only [userPosition_eq_ok]
  cases directory.node? address with
  | none => simp [throw, throwThe, MonadExceptOf.throw]
  | some node =>
    by_cases registered : node.registered = true <;> by_cases owned : node.owner = email <;>
      simp [registered, owned, pure, Except.pure, throw, throwThe, MonadExceptOf.throw]

/-- A record may be handed in if it has a key and its vault exists. -/
theorem checkDeposit_eq_ok {deposit : Deposit} {pubkey : Pubkey} :
    directory.checkDeposit deposit = .ok pubkey ↔
      deposit.validatorKey = .ok pubkey ∧
        ∃ vault, directory.vault? deposit.withdrawalAddress deposit.network = some vault := by
  unfold checkDeposit
  simp only [bind_eq_ok, Deposit.requireKey_eq_ok, requireVault_eq_ok]
  constructor
  · rintro ⟨other, key, vault, found, same⟩
    cases same
    exact ⟨key, vault, found⟩
  · rintro ⟨key, vault, found⟩
    exact ⟨pubkey, key, vault, found, rfl⟩

/-- The keys of a batch are found if every record has one. -/
theorem requireKeys_eq_ok {batch : List Deposit} {pubkeys : List Pubkey} :
    requireKeys batch = .ok pubkeys ↔
      List.Forall₂ (fun deposit pubkey => deposit.validatorKey = .ok pubkey) batch pubkeys := by
  unfold requireKeys
  simp only [mapM_eq_ok, Deposit.requireKey_eq_ok]

theorem checkDeposits_eq_ok {address : Address} {batch : List Deposit} {node : Node}
    {pubkeys : List Pubkey} :
    directory.checkDeposits address batch = .ok (node, pubkeys) ↔
      (directory.node? address = some node ∧ node.registered = true) ∧
        List.Forall₂
          (fun deposit pubkey => deposit.validatorKey = .ok pubkey ∧
            ∃ vault, directory.vault? deposit.withdrawalAddress deposit.network = some vault)
          batch pubkeys := by
  unfold checkDeposits
  rw [both_eq_ok, registeredNode_eq_ok, mapM_eq_ok]
  simp only [checkDeposit_eq_ok]

theorem checkExits_eq_ok {address : Address} {network : String} {batch : List ExitEntry}
    {node : Node} {pubkeys : List Pubkey} :
    directory.checkExits address network batch = .ok (node, pubkeys) ↔
      (directory.node? address = some node ∧ node.registered = true) ∧
        List.Forall₂
          (fun entry pubkey => entry.validatorKey = .ok pubkey ∧
            node.hasValidator network pubkey = true)
          batch pubkeys := by
  unfold checkExits
  rw [both_eq_ok, registeredNode_eq_ok, mapM_eq_ok]
  simp only [Node.checkExit_eq_ok]

theorem checkHandOver_eq_ok {address : Address} {network : String} {batch : List Deposit}
    {pubkeys : List Pubkey} {vault : Vault} :
    directory.checkHandOver address network batch = .ok (pubkeys, vault) ↔
      requireKeys batch = .ok pubkeys ∧ directory.vault? address network = some vault := by
  unfold checkHandOver
  rw [both_eq_ok, requireVault_eq_ok]

theorem checkBatch_eq_ok {address : Address} {network : String} {batch : List Deposit}
    {vault : Vault} {pubkeys : List Pubkey} :
    directory.checkBatch address network batch = .ok (vault, pubkeys) ↔
      directory.vault? address network = some vault ∧ requireKeys batch = .ok pubkeys := by
  unfold checkBatch
  rw [both_eq_ok, requireVault_eq_ok]

/-! ### What is handed over and published -/

section Accepted

variable {address : Address} {network : String} {batch : List Deposit} {next : Directory}

/-- A batch with keys is handed to a vault that exists. -/
theorem handToVault_eq_ok :
    (handToVault address network batch).outcome directory = (.ok (), next) ↔
      ∃ pubkeys vault, requireKeys batch = .ok pubkeys ∧
        directory.vault? address network = some vault ∧
        directory.withVault address network (vault.withUploaded pubkeys) = next := by
  rw [outcome_handToVault, settled_eq_ok]
  simp only [Prod.exists, checkHandOver_eq_ok, Prod.mk.injEq, true_and, and_assoc]

/-- A batch with keys is published for a vault that exists. -/
theorem publishSet_eq_ok {version : UInt64} :
    (publishSet address network batch).outcome directory = (.ok version, next) ↔
      ∃ vault pubkeys, directory.vault? address network = some vault ∧
        requireKeys batch = .ok pubkeys ∧ (vault.withPublished batch).latestIndex = version ∧
        directory.withPublished address network batch vault pubkeys = next := by
  rw [outcome_publishSet, settled_eq_ok]
  simp only [Prod.exists, checkBatch_eq_ok, Prod.mk.injEq, and_assoc]

/-- A batch with keys is marked as active under a vault that exists. -/
theorem markActive_eq_ok :
    (markActive address network batch).outcome directory = (.ok (), next) ↔
      ∃ vault pubkeys, directory.vault? address network = some vault ∧
        requireKeys batch = .ok pubkeys ∧ directory.withActive network pubkeys = next := by
  rw [outcome_markActive, settled_eq_ok]
  simp only [Prod.exists, checkBatch_eq_ok, Prod.mk.injEq, true_and, and_assoc]

/-- The set that is chosen is handed over and published for a vault that exists. -/
theorem cycleSet_eq_ok {limit : Nat} {version : UInt64} :
    (cycleSet address network limit).outcome directory = (.ok version, next) ↔
      ∃ vault pubkeys, directory.vault? address network = some vault ∧
        requireKeys (directory.chooseSet network limit) = .ok pubkeys ∧
        ((vault.withUploaded pubkeys).withPublished
          (directory.chooseSet network limit)).latestIndex = version ∧
        directory.withCycled address network (directory.chooseSet network limit) vault pubkeys =
          next := by
  rw [outcome_cycleSet, settled_eq_ok]
  simp only [Prod.exists, checkBatch_eq_ok, Prod.mk.injEq, and_assoc]

end Accepted

end Directory

end StakingDirectory
