/-
**What is reported of a key moves on, unless a node in front hands the key in.**

A status is read off the first registered node that holds the key, with the vault and the flags of
that one entry.

* `Steps.findValidator_advances`: where no node comes to hold the key, this entry advances;
* `Steps.rank_le`: where it has advanced the status does not fall behind, since vaults keep their
  keys as well;
* `allAdvance_after`: of all actions only uploads bring keys to nodes;
* `validatorAt?_uploaded`: an upload adds what it hands in behind what a node holds, so a node held
  its entry for a key before, or comes to hold it by its own first record (`held_or_arrives`). The
  entry that is consulted is hence left alone, or the upload `Overtakes` it, and then the new one is
  consulted (`Overtakes.findValidator`);
* `status_monotone`: hence a status falls behind at most in an upload that overtakes, and is then
  that of the new entry.
-/

import Mathlib.Data.List.Induction
import StakingDirectory.Proofs.Directory.Intake

namespace StakingDirectory

/-- How far along a status is. -/
def Status.rank : Status → Nat
  | .unknown => 0
  | .pending => 1
  | .uploaded => 2
  | .registered => 3
  | .removed => 4

namespace Directory

open Operation

variable {directory before after : Directory} {network : String} {pubkey : Pubkey}

/-! ### The first node with a key -/

/-- The validator with this key that the node at an address holds on a network. -/
def validatorAt? (directory : Directory) (network : String) (pubkey : Pubkey) (address : Address) :
    Option Validator :=
  (directory.validatorsAt address network).find? fun validator => validator.pubkey = pubkey

/-- Whether the node at an address holds the key on a network. -/
def Holds (directory : Directory) (network : String) (pubkey : Pubkey) (address : Address) :
    Prop :=
  pubkey ∈ (directory.validatorsAt address network).map Validator.pubkey

instance (directory : Directory) (network : String) (pubkey : Pubkey) (address : Address) :
    Decidable (directory.Holds network pubkey address) :=
  inferInstanceAs (Decidable (_ ∈ _))

theorem validatorAt?_eq_none {address : Address} :
    directory.validatorAt? network pubkey address = none ↔
      ¬ directory.Holds network pubkey address := by
  simp [validatorAt?, Holds]

theorem holds_iff {address : Address} :
    directory.Holds network pubkey address ↔
      ∃ validator, directory.validatorAt? network pubkey address = some validator := by
  rw [← Option.ne_none_iff_exists', Ne, validatorAt?_eq_none, not_not]

/-- A validator is found at the first registered node that holds the key. -/
theorem findValidator_eq_some {validator : Validator} :
    directory.findValidator network pubkey = some validator ↔
      ∃ earlier address later, directory.registeredAddresses = earlier ++ address :: later ∧
        directory.validatorAt? network pubkey address = some validator ∧
        ∀ other ∈ earlier, ¬ directory.Holds network pubkey other := by
  rw [findValidator_eq]
  refine List.findSome?_eq_some_iff.trans ?_
  simp only [← validatorAt?_eq_none]
  rfl

/-- For a key that a registered node holds a validator is found. -/
theorem exists_findValidator {address : Address}
    (registered : address ∈ directory.registeredAddresses)
    (holds : directory.Holds network pubkey address) :
    ∃ validator, directory.findValidator network pubkey = some validator := by
  rw [← Option.ne_none_iff_exists', findValidator_eq]
  intro nowhere
  exact validatorAt?_eq_none.mp (List.findSome?_eq_none_iff.mp nowhere address registered) holds

/-- A validator that is found is held by a registered node, and has the key. -/
theorem findValidator_mem {validator : Validator}
    (found : directory.findValidator network pubkey = some validator) :
    ∃ address ∈ directory.registeredAddresses,
      validator ∈ directory.validatorsAt address network ∧ validator.pubkey = pubkey := by
  obtain ⟨earlier, address, later, order, here, -⟩ := findValidator_eq_some.mp found
  refine ⟨address, ?_, List.mem_of_find?_eq_some here, by simpa using List.find?_some here⟩
  rw [order]
  exact List.mem_append_right earlier List.mem_cons_self

/-- What a node holds it still holds after a step, where it has advanced. -/
theorem Step.validatorAt? (step : Step before after) {address : Address} {validator : Validator}
    (found : before.validatorAt? network pubkey address = some validator) :
    ∃ later, after.validatorAt? network pubkey address = some later ∧
      validator.Advances later := by
  obtain ⟨advanced, new, same, advance, -, -⟩ := step.grown address network
  have related := advance.find? pubkey
  rw [show (before.validatorsAt address network).find? _ = some validator from found] at related
  cases kept : advanced.find? fun validator => validator.pubkey = pubkey with
  | none =>
    rw [kept] at related
    cases related
  | some later =>
    rw [kept] at related
    cases related with
    | some advances =>
      refine ⟨later, ?_, advances⟩
      rw [Directory.validatorAt?, same, List.find?_append, kept, Option.some_or]

/-- A node that comes in between holds nothing. -/
theorem Step.not_holds_of_unregistered (step : Step before after) (sound : Sound before)
    {address : Address} (unregistered : before.isRegistered address = false) :
    ¬ after.Holds network pubkey address := by
  have nothing : before.validatorsAt address network = [] := by
    by_contra holds
    rw [sound.placed holds] at unregistered
    cases unregistered
  obtain ⟨advanced, new, same, advance, -, fresh⟩ := step.grown address network
  rw [nothing] at advance
  have none_kept : advanced = [] := List.forall₂_nil_left_iff.mp advance
  have none_new : new = [] := by
    refine List.eq_nil_iff_forall_not_mem.mpr fun validator member => ?_
    have registered := (fresh validator member).registered
    rw [unregistered] at registered
    cases registered
  rw [Holds, same, none_kept, none_new]
  exact List.not_mem_nil

/-- **A step searches the nodes that were registered before**, in their order. -/
theorem Step.findValidator_eq (step : Step before after) (sound : Sound before) :
    after.findValidator network pubkey =
      before.registeredAddresses.findSome? (after.validatorAt? network pubkey) := by
  have searched : after.findValidator network pubkey =
      after.registeredAddresses.findSome? (after.validatorAt? network pubkey) :=
    Directory.findValidator_eq after network pubkey
  rw [searched]
  rcases step.registered_split with same | ⟨earlier, address, later, was, now, unregistered⟩
  · rw [same]
  · have nothing : after.validatorAt? network pubkey address = none :=
      validatorAt?_eq_none.mpr (step.not_holds_of_unregistered sound unregistered)
    rw [was, now, List.findSome?_append, List.findSome?_append, List.findSome?_cons, nothing]

theorem Step.holds (step : Step before after) {address : Address}
    (holds : before.Holds network pubkey address) : after.Holds network pubkey address := by
  obtain ⟨advanced, new, same, advance, -, -⟩ := step.grown address network
  rw [Holds, same, List.map_append, advance.map_pubkey]
  exact List.mem_append_left _ holds

/-- **Where no node comes to hold the key, the entry that is consulted advances.** -/
theorem Step.findValidator_advances (step : Step before after) (sound : Sound before)
    (quiet : ∀ address, after.Holds network pubkey address → before.Holds network pubkey address)
    {validator : Validator} (found : before.findValidator network pubkey = some validator) :
    ∃ later, after.findValidator network pubkey = some later ∧ validator.Advances later := by
  obtain ⟨earlier, holder, later, order, here, without⟩ := findValidator_eq_some.mp found
  obtain ⟨advanced, there, advances⟩ := step.validatorAt? here
  have nothing : earlier.findSome? (after.validatorAt? network pubkey) = none :=
    List.findSome?_eq_none_iff.mpr fun other inside =>
      validatorAt?_eq_none.mpr fun holds => without other inside (quiet other holds)
  refine ⟨advanced, ?_, advances⟩
  rw [step.findValidator_eq sound, order, List.findSome?_append, nothing, Option.none_or,
    List.findSome?_cons, there]

theorem Steps.findValidator_advances (steps : Steps before after) (sound : Sound before)
    (quiet : ∀ address, after.Holds network pubkey address → before.Holds network pubkey address)
    {validator : Validator} (found : before.findValidator network pubkey = some validator) :
    ∃ later, after.findValidator network pubkey = some later ∧ validator.Advances later := by
  induction steps with
  | refl => exact ⟨validator, found, .refl validator⟩
  | @tail between after earlier last ih =>
    obtain ⟨middle, there, advances⟩ := ih fun address holds => quiet address (last.holds holds)
    have sound' : Sound between := Steps.keep Sound.step earlier sound
    -- What is held after the last step was held at first, and so in between.
    have quiet' : ∀ address, after.Holds network pubkey address →
        between.Holds network pubkey address := fun address holds =>
      Steps.keep (fun step => step.holds) earlier (quiet address holds)
    obtain ⟨later, now, further⟩ := last.findValidator_advances sound' quiet' there
    exact ⟨later, now, advances.trans further⟩

/-! ### Ranks -/

theorem Steps.vault_grows (steps : Steps before after) {address : Address} {vault : Vault}
    (found : before.vault? address network = some vault) :
    ∃ later, after.vault? address network = some later ∧
      ∀ pubkey ∈ vault.uploaded, pubkey ∈ later.uploaded := by
  induction steps with
  | refl => exact ⟨vault, found, fun _ => id⟩
  | tail _ last ih =>
    obtain ⟨between, there, kept⟩ := ih
    obtain ⟨later, now, further⟩ := last.vault_grows there
    exact ⟨later, now, fun pubkey member => further pubkey (kept pubkey member)⟩

/-- What a vault has acknowledged it does not take back. -/
theorem Steps.isAcknowledged (steps : Steps before after) {validator later : Validator}
    (advances : validator.Advances later)
    (acknowledged : before.isAcknowledged network validator pubkey = true) :
    after.isAcknowledged network later pubkey = true := by
  unfold Directory.isAcknowledged at acknowledged ⊢
  rw [advances.vault]
  cases found : before.vault? validator.vault network with
  | none =>
    rw [found] at acknowledged
    cases acknowledged
  | some vault =>
    obtain ⟨later, there, kept⟩ := steps.vault_grows found
    rw [found, Option.any_some, Std.ExtTreeSet.contains_iff_mem] at acknowledged
    rw [there, Option.any_some, Std.ExtTreeSet.contains_iff_mem]
    exact kept pubkey acknowledged

/-- What is reported of a validator, by whether its vault has acknowledged it. -/
def reported (validator : Validator) (acknowledged : Bool) : Status :=
  if acknowledged && validator.active then .registered
  else if acknowledged || validator.used then .uploaded
  else .pending

theorem status_of_findValidator {validator : Validator}
    (found : directory.findValidator network pubkey = some validator) :
    directory.status network pubkey =
      reported validator (directory.isAcknowledged network validator pubkey) := by
  rw [status, found]
  rfl

theorem rank_reported_le {validator later : Validator} (advances : validator.Advances later)
    {acknowledged still : Bool} (kept : acknowledged = true → still = true) :
    (reported validator acknowledged).rank ≤ (reported later still).rank := by
  have used := advances.used
  have active := advances.active
  unfold reported
  revert kept used active
  cases acknowledged <;> cases still <;> cases validator.used <;> cases later.used <;>
    cases validator.active <;> cases later.active <;> decide

/-- **A status does not fall behind where the entry that is consulted advances.** -/
theorem Steps.rank_le (steps : Steps before after)
    (advances : ∀ validator, before.findValidator network pubkey = some validator →
      ∃ later, after.findValidator network pubkey = some later ∧ validator.Advances later) :
    (before.status network pubkey).rank ≤ (after.status network pubkey).rank := by
  cases found : before.findValidator network pubkey with
  | none =>
    rw [status, found]
    exact Nat.zero_le _
  | some validator =>
    obtain ⟨later, there, further⟩ := advances validator found
    rw [status_of_findValidator found, status_of_findValidator there]
    exact rank_reported_le further (steps.isAcknowledged further)

/-! ### Actions -/

/-- **Only uploads bring validators in**; under any other action those that are held advance. -/
theorem allAdvance_after {action : Action}
    (other : ∀ node batch, action ≠ .change (.uploadDeposits node batch)) (directory : Directory)
    (address : Address) (network : String) :
    Validator.AllAdvance (directory.validatorsAt address network)
      ((directory.after action).validatorsAt address network) := by
  have same := Validator.allAdvance_refl (directory.validatorsAt address network)
  refine after_cases (P := fun next : Directory => Validator.AllAdvance _
    (next.validatorsAt address network)) directory action same fun makes => ?_
  cases makes with
  | addUser | whitelistAgain | addVault | handToVault => exact same
  | whitelistNode email node position known free =>
    rw [validatorsAt_withWhitelisted free]
    exact same
  | registerNode email node position =>
    rw [validatorsAt_withRegistered]
    exact same
  | uploadDeposits node _ batch => exact absurd rfl (other node batch)
  | uploadExits node place held batch pubkeys found =>
    rw [validatorsAt_withNode]
    split
    · rename_i here
      subst here
      rw [validatorsAt_of_node? found]
      exact Validator.allAdvance_attachExits held place (pubkeys.zip batch) network
    · exact same
  | publishSet vault place batch pubkeys =>
    exact allAdvance_withUsed directory place (pubkeys.zip batch) address network
  | markActive vault place batch pubkeys =>
    exact allAdvance_withActive directory place pubkeys address network
  | cycleSet vault place limit pubkeys old =>
    exact allAdvance_withUsed (directory.withVault vault place (old.withUploaded pubkeys)) place
      (pubkeys.zip (directory.chooseSet place limit)) address network

/-! ### Uploads -/

section Uploads

variable {node : Address} {batch : List Deposit} {own : Deposit}

/-- **After an upload a node has the entry that it had for a key**, or, if it had none and handed
the batch in, that of the first record for the key on the network. -/
theorem validatorAt?_uploaded {count : Nat}
    (accepted : (uploadDeposits node batch).outcome directory = (.ok count, after))
    (address : Address) :
    after.validatorAt? network pubkey address =
      (directory.validatorAt? network pubkey address).or
        (if node = address then
          (batch.find? fun deposit =>
            deposit.network = network ∧ deposit.pubkey = pubkey.bytes).map (.ofDeposit pubkey)
        else none) := by
  unfold validatorAt?
  by_cases here : node = address
  · subst here
    rw [validatorsAt_uploaded accepted, Validator.find?_append_fresh, List.find?_append,
      Validator.find?_handedIn, if_pos rfl]
  · have same := (onlyNode_uploaded accepted).others address (Ne.symm here)
    rw [if_neg here, Option.or_none, validatorsAt, same, ← validatorsAt]

theorem exists_uploaded
    (accepted : ((uploadDeposits node batch).outcome directory).1.isOk = true) :
    ∃ count, (uploadDeposits node batch).outcome directory =
      (.ok count, directory.after (.change (.uploadDeposits node batch))) := by
  refine exists_ok_of_isOk_map ?_
  rwa [outcome_map, isOk_map]

/-- **An upload is refused and changes nothing, or it is accepted.** -/
theorem refused_or_uploaded (directory : Directory) (node : Address) (batch : List Deposit) :
    directory.after (.change (.uploadDeposits node batch)) = directory ∨
      ∃ count, (uploadDeposits node batch).outcome directory =
        (.ok count, directory.after (.change (.uploadDeposits node batch))) := by
  cases passed : ((uploadDeposits node batch).outcome directory).1.isOk with
  | true => exact .inr (exists_uploaded passed)
  | false =>
    refine .inl (after_of_refused ?_)
    rwa [Action.operation, Change.operation, outcome_map, isOk_map]

theorem registeredAddresses_upload (directory : Directory) (node : Address)
    (batch : List Deposit) :
    (directory.after (.change (.uploadDeposits node batch))).registeredAddresses =
      directory.registeredAddresses := by
  rcases refused_or_uploaded directory node batch with refused | ⟨count, accepted⟩
  · rw [refused]
  · exact registeredAddresses_congr (onlyNode_uploaded accepted).users

/-- **A node comes to hold a key with a batch**, and its own record is the first one of the batch
for the key on the network. -/
structure Arrives (directory : Directory) (node : Address) (network : String) (pubkey : Pubkey)
    (batch : List Deposit) (own : Deposit) : Prop where
  accepted : ((uploadDeposits node batch).outcome directory).1.isOk = true
  unknown : ¬ directory.Holds network pubkey node
  first : (batch.find? fun deposit =>
    deposit.network = network ∧ deposit.pubkey = pubkey.bytes) = some own

/-- **What a node holds after an upload it held before, or it arrives with it.** -/
theorem held_or_arrives {address : Address} {validator : Validator}
    (there : (directory.after (.change (.uploadDeposits node batch))).validatorAt? network pubkey
      address = some validator) :
    directory.validatorAt? network pubkey address = some validator ∨
      node = address ∧ ∃ own, directory.Arrives node network pubkey batch own ∧
        .ofDeposit pubkey own = validator := by
  rcases refused_or_uploaded directory node batch with refused | ⟨count, accepted⟩
  · rw [refused] at there
    exact .inl there
  · have passed : ((uploadDeposits node batch).outcome directory).1.isOk = true := by
      rw [accepted]
      rfl
    rw [validatorAt?_uploaded accepted] at there
    cases before : directory.validatorAt? network pubkey address with
    | some old =>
      rw [before, Option.some_or] at there
      exact .inl there
    | none =>
      rw [before, Option.none_or] at there
      split at there
      · rename_i here
        subst here
        obtain ⟨own, first, same⟩ := Option.map_eq_some_iff.mp there
        exact .inr ⟨rfl, own, ⟨passed, validatorAt?_eq_none.mp before, first⟩, same⟩
      · cases there

/-- **A node that comes to hold a key is in front** of all registered nodes that hold it so far. -/
structure Overtakes (directory : Directory) (node : Address) (batch : List Deposit)
    (network : String) (pubkey : Pubkey) (own : Deposit) : Prop where
  arrives : directory.Arrives node network pubkey batch own
  ahead : ∃ earlier later, directory.registeredAddresses = earlier ++ node :: later ∧
    (∀ other ∈ earlier, ¬ directory.Holds network pubkey other) ∧
    ∃ holder ∈ later, directory.Holds network pubkey holder

/-- **The entry that is consulted after an upload that overtakes** is that of its record. -/
theorem Overtakes.findValidator (sound : Sound directory)
    (overtakes : directory.Overtakes node batch network pubkey own) :
    (directory.after (.change (.uploadDeposits node batch))).findValidator network pubkey =
      some (.ofDeposit pubkey own) := by
  obtain ⟨⟨passed, unknown, first⟩, earlier, later, order, without, -⟩ := overtakes
  obtain ⟨count, accepted⟩ := exists_uploaded passed
  have same := registeredAddresses_upload directory node batch
  refine findValidator_eq_some.mpr ⟨earlier, node, later, same.trans order, ?_, ?_⟩
  · rw [validatorAt?_uploaded accepted, validatorAt?_eq_none.mpr unknown, if_pos rfl, first]
    rfl
  · intro other inside
    have once := sound.owned.nodup_registeredAddresses
    rw [order] at once
    have different : node ≠ other := fun here =>
      (List.nodup_append.mp once).2.2 other inside node List.mem_cons_self here.symm
    rw [← validatorAt?_eq_none, validatorAt?_uploaded accepted, if_neg different,
      validatorAt?_eq_none.mpr (without other inside), Option.or_none]

/-- **An upload leaves the entry that is consulted as it is, or overtakes it.** -/
theorem findValidator_upload (node : Address) (batch : List Deposit) {validator : Validator}
    (found : directory.findValidator network pubkey = some validator) :
    (directory.after (.change (.uploadDeposits node batch))).findValidator network pubkey =
        some validator ∨
      ∃ own, directory.Overtakes node batch network pubkey own := by
  obtain ⟨earlier, holder, later, order, here, without⟩ := findValidator_eq_some.mp found
  have same := registeredAddresses_upload directory node batch
  by_cases unknown : ∀ other ∈ earlier,
      ¬ (directory.after (.change (.uploadDeposits node batch))).Holds network pubkey other
  · refine .inl (findValidator_eq_some.mpr ⟨earlier, holder, later, same.trans order, ?_, unknown⟩)
    rcases refused_or_uploaded directory node batch with refused | ⟨count, accepted⟩
    · rw [refused]
      exact here
    · rw [validatorAt?_uploaded accepted, here, Option.some_or]
  · -- A node in front has come to hold the key, so it is the one that handed the batch in.
    simp only [not_forall, not_not] at unknown
    obtain ⟨other, inside, holds⟩ := unknown
    obtain ⟨entry, there⟩ := holds_iff.mp holds
    rcases held_or_arrives there with held | ⟨rfl, own, arrives, -⟩
    · exact absurd (holds_iff.mpr ⟨entry, held⟩) (without other inside)
    · obtain ⟨front, rest, rfl⟩ := List.append_of_mem inside
      refine .inr ⟨own, arrives, front, rest ++ holder :: later, ?_,
        fun one listed => without one (List.mem_append_left _ listed), holder, ?_,
        holds_iff.mpr ⟨validator, here⟩⟩
      · rw [order, List.append_assoc, List.cons_append]
      · exact List.mem_append_right rest List.mem_cons_self

/-- **Under every action the entry that is consulted advances, or is overtaken.** -/
theorem findValidator_after (sound : Sound directory) (action : Action) {validator : Validator}
    (found : directory.findValidator network pubkey = some validator) :
    (∃ later, (directory.after action).findValidator network pubkey = some later ∧
      validator.Advances later) ∨
      ∃ node batch own, action = .change (.uploadDeposits node batch) ∧
        directory.Overtakes node batch network pubkey own := by
  by_cases upload : ∃ node batch, action = .change (.uploadDeposits node batch)
  · obtain ⟨node, batch, rfl⟩ := upload
    exact (findValidator_upload node batch found).imp
      (fun kept => ⟨validator, kept, .refl validator⟩)
      fun ⟨own, overtakes⟩ => ⟨node, batch, own, rfl, overtakes⟩
  · have other : ∀ node batch, action ≠ .change (.uploadDeposits node batch) :=
      fun node batch same => upload ⟨node, batch, same⟩
    refine .inl ((steps_after directory action).findValidator_advances sound ?_ found)
    intro address holds
    rw [Holds, (allAdvance_after other directory address network).map_pubkey] at holds
    exact holds

/-- A new entry is neither used nor active: what is reported of it is up to its own vault. -/
theorem Overtakes.status (sound : Sound directory)
    (overtakes : directory.Overtakes node batch network pubkey own) :
    (directory.after (.change (.uploadDeposits node batch))).status network pubkey =
      if (directory.after (.change (.uploadDeposits node batch))).isAcknowledged network
        (.ofDeposit pubkey own) pubkey then .uploaded else .pending := by
  rw [status_of_findValidator (overtakes.findValidator sound)]
  cases (directory.after (.change (.uploadDeposits node batch))).isAcknowledged network
    (.ofDeposit pubkey own) pubkey <;> rfl

end Uploads

/-! ### Runs -/

theorem built_concat (actions : List Action) (action : Action) :
    built (actions ++ [action]) = (built actions).after action :=
  List.foldl_append

/-- **A status falls behind only where it is overtaken.** -/
theorem rank_concat (actions : List Action) (action : Action) (network : String)
    (pubkey : Pubkey) :
    ((built actions).status network pubkey).rank ≤
        ((built (actions ++ [action])).status network pubkey).rank ∨
      ∃ node batch own, action = .change (.uploadDeposits node batch) ∧
        (built actions).Overtakes node batch network pubkey own := by
  rw [built_concat]
  by_contra overtaken
  rw [not_or] at overtaken
  refine overtaken.1 ((steps_after (built actions) action).rank_le fun validator found => ?_)
  exact (findValidator_after (sound_built actions) action found).resolve_right overtaken.2

/-- **A status never falls behind, unless a node in front hands the key in.** In every directory
that can come about, every action leaves every status at least as far along as it was, apart from an
upload that overtakes: by which a registered node, in front of all those that hold the key, comes to
hold it as well. After every such upload the key is found at the entry of the first record for the
key and the network in the batch, and the status is that of this entry: uploaded if the vault of the
record has acknowledged the key, and pending otherwise. Along every run without such an upload the
status only moves on. -/
theorem status_monotone (actions : List Action) (network : String) (pubkey : Pubkey) :
    (∀ action,
      ((built actions).status network pubkey).rank ≤
          ((built (actions ++ [action])).status network pubkey).rank ∨
        ∃ node batch own, action = .change (.uploadDeposits node batch) ∧
          (built actions).Overtakes node batch network pubkey own) ∧
    (∀ node batch own, (built actions).Overtakes node batch network pubkey own →
      (built (actions ++ [.change (.uploadDeposits node batch)])).findValidator network pubkey =
          some (.ofDeposit pubkey own) ∧
        (built (actions ++ [.change (.uploadDeposits node batch)])).status network pubkey =
          if (built (actions ++ [.change (.uploadDeposits node batch)])).isAcknowledged network
            (.ofDeposit pubkey own) pubkey then .uploaded else .pending) ∧
    ∀ later,
      ((built actions).status network pubkey).rank ≤
          ((built (actions ++ later)).status network pubkey).rank ∨
        ∃ earlier node batch own rest,
          later = earlier ++ .change (.uploadDeposits node batch) :: rest ∧
          (built (actions ++ earlier)).Overtakes node batch network pubkey own := by
  refine ⟨fun action => rank_concat actions action network pubkey, ?_, fun later => ?_⟩
  · intro node batch own overtakes
    rw [built_concat]
    exact ⟨overtakes.findValidator (sound_built actions), overtakes.status (sound_built actions)⟩
  · induction later using List.reverseRec with
    | nil =>
      rw [List.append_nil]
      exact .inl (Nat.le_refl _)
    | append_singleton later action ih =>
      rw [← List.append_assoc]
      rcases ih with ahead | ⟨earlier, node, batch, own, rest, rfl, overtakes⟩
      · rcases rank_concat (actions ++ later) action network pubkey with
          further | ⟨node, batch, own, rfl, overtakes⟩
        · exact .inl (Nat.le_trans ahead further)
        · exact .inr ⟨later, node, batch, own, [], rfl, overtakes⟩
      · exact .inr ⟨earlier, node, batch, own, rest ++ [action], by simp, overtakes⟩

/-- Two nodes of one user, the second of which holds a key that was handed to its vault. -/
def secondFirst : List Action :=
  opening "a" [repeated 1, repeated 2] "n" [repeated 8, repeated 9] ++
    [.change (.uploadDeposits (repeated 2) [plainDeposit 3 (repeated 9) "n"]),
      .change (.cycleSet (repeated 9) "n" 1)]

/-- What the first node then hands in: the key for the other vault, among records for its vault. -/
def laterFirst : List Deposit :=
  [plainDeposit 4 (repeated 9) "n", plainDeposit 3 (repeated 8) "n",
    plainDeposit 3 (repeated 9) "n"]

/-- The first record for the key is the one that counts, and its vault has not acknowledged it. -/
theorem status_monotone_laterFirst :
    (built secondFirst).Overtakes (repeated 1) laterFirst "n" (repeated 3)
        (plainDeposit 3 (repeated 8) "n") ∧
      (built secondFirst).status "n" (repeated 3) = .uploaded ∧
      (built (secondFirst ++ [.change (.uploadDeposits (repeated 1) laterFirst)])).findValidator
          "n" (repeated 3) =
        some (.ofDeposit (repeated 3) (plainDeposit 3 (repeated 8) "n")) ∧
      (built (secondFirst ++ [.change (.uploadDeposits (repeated 1) laterFirst)])).status
          "n" (repeated 3) = .pending := by
  have overtakes : (built secondFirst).Overtakes (repeated 1) laterFirst "n" (repeated 3)
      (plainDeposit 3 (repeated 8) "n") :=
    ⟨⟨by decide, by decide, by decide⟩, [], [repeated 2], by decide, by simp, repeated 2, by simp,
      by decide⟩
  obtain ⟨-, after, -⟩ := status_monotone secondFirst "n" (repeated 3)
  obtain ⟨found, status⟩ := after _ _ _ overtakes
  refine ⟨overtakes, by decide, found, status.trans (if_neg ?_)⟩
  decide

/-- Once the first node hands the same key in for another vault, the status falls back. -/
theorem status_overtaken :
    ¬ ∀ (actions : List Action) (action : Action) (network : String) (pubkey : Pubkey),
      ((built actions).status network pubkey).rank ≤
        ((built (actions ++ [action])).status network pubkey).rank := by
  intro monotone
  have kept := monotone secondFirst
    (.change (.uploadDeposits (repeated 1) [plainDeposit 3 (repeated 8) "n"])) "n" (repeated 3)
  exact absurd kept (by decide)

end Directory

end StakingDirectory
