/-
**Which vault a validator is for, and which one its deposit is for.**

A validator is for the vault of the record that it came with, and stays so. Its deposit is replaced
whenever a set with its key is published on its network, whatever the record in the set says:

* `publishedBy` is what an action publishes, and `publishedAlong` what actions in turn publish;
* every validator was there before an action, and what the action publishes has replaced its
  deposit, or it `Arrives` with the action (`replaced_or_arrives`);
* hence each validator arrived with an upload, and what was published since then has replaced its
  deposit (`exists_arrival`). `vault_of_arrival` says in full what this means for its vault.

A set need not be made by hand for both vaults to differ: where two nodes hold one key for different
vaults, a cycle leaves both with one deposit (`oneKeyTwice`).
-/

import StakingDirectory.Proofs.Allotment.Issue
import StakingDirectory.Proofs.Allotment.Provenance
import StakingDirectory.Proofs.Directory.Arrival

namespace StakingDirectory.Directory

open Operation

variable {directory : Directory}

/-! ### What is published -/

/-- The records that an action publishes if it succeeds, each beside the network. -/
def Action.selection (directory : Directory) : Action → List (String × Deposit)
  | .change (.publishSet _ network batch) => batch.map (Prod.mk network)
  | .change (.cycleSet _ network limit) =>
    (directory.chooseSet network limit).map (Prod.mk network)
  | _ => []

/-- The records that an action publishes. -/
def publishedBy (directory : Directory) (action : Action) : List (String × Deposit) :=
  if (action.operation.outcome directory).1.isOk then action.selection directory else []

/-- The records that are published when actions are carried out in turn. -/
def publishedAlong (directory : Directory) : List Action → List (String × Deposit)
  | [] => []
  | action :: rest => directory.publishedBy action ++ (directory.after action).publishedAlong rest

theorem publishedAlong_concat (directory : Directory) (actions : List Action) (action : Action) :
    directory.publishedAlong (actions ++ [action]) =
      directory.publishedAlong actions ++ (actions.foldl after directory).publishedBy action := by
  induction actions generalizing directory with
  | nil => exact List.append_nil _
  | cons first rest ih =>
    rw [List.cons_append, publishedAlong, publishedAlong, ih, List.append_assoc, List.foldl_cons]

theorem publishedFor_append (earlier later : List (String × Deposit)) (network : String)
    (pubkey : Pubkey) :
    publishedFor (earlier ++ later) network pubkey =
      publishedFor earlier network pubkey ++ publishedFor later network pubkey := by
  rw [publishedFor, List.filter_append, List.map_append]
  rfl

/-! ### What one action does -/

variable {next : Directory} {node : Address} {network : String} {validator : Validator}

/-- Hands nothing in, and publishes nothing. -/
def Action.Quiet : Action → Prop
  | .change wanted => wanted.Quiet
  | .registerNode _ _ => True

theorem Action.Quiet.keeps {action : Action} (quiet : action.Quiet) (directory : Directory) :
    Keeps directory (directory.after action) := by
  cases action with
  | change wanted => exact keeps_change quiet directory
  | registerNode email address =>
    refine after_cases (P := Keeps directory) directory _ (.refl directory) fun makes => ?_
    cases makes with
    | registerNode _ _ position => exact keeps_withRegistered directory address position

/-- What neither hands in nor publishes leaves vaults and deposits alone. -/
theorem Action.Quiet.exists_replaced {action : Action} (quiet : action.Quiet)
    (sound : Sound directory)
    (member : validator ∈ (directory.after action).validatorsAt node network) :
    ∃ old ∈ directory.validatorsAt node network, old.Replaced [] validator := by
  have other : ∀ address batch, action ≠ .change (.uploadDeposits address batch) := by
    rintro address batch rfl
    exact quiet
  obtain ⟨old, there, key, deposit, used⟩ := (quiet.keeps directory).exists_record member
  obtain ⟨former, there', advances⟩ :=
    (allAdvance_after other directory node network).exists_of_mem_right member
  -- The node holds the key once.
  obtain rfl : old = former := List.inj_on_of_nodup_map (sound.distinct node network) there there'
    (key.trans advances.pubkey)
  exact ⟨old, there, advances.pubkey, advances.vault, deposit.symm, by simp [used]⟩

/-- In good order a node holds one validator for a key. -/
theorem Sound.validatorAt?_of_mem (sound : Sound directory)
    (member : validator ∈ directory.validatorsAt node network) :
    directory.validatorAt? network validator.pubkey node = some validator := by
  cases found : directory.validatorAt? network validator.pubkey node with
  | none => exact absurd (List.mem_map_of_mem member) (validatorAt?_eq_none.mp found)
  | some other =>
    have same : other.pubkey = validator.pubkey := by simpa using List.find?_some found
    rw [List.inj_on_of_nodup_map (sound.distinct node network) (List.mem_of_find?_eq_some found)
      member same]

/-- **Every validator was there before an action**, and what the action publishes has replaced its
deposit, or it arrives with the action. -/
theorem replaced_or_arrives (sound : Sound directory) (action : Action)
    (member : validator ∈ (directory.after action).validatorsAt node network) :
    (∃ old ∈ directory.validatorsAt node network,
      old.Replaced (publishedFor (directory.publishedBy action) network validator.pubkey)
        validator) ∨
    ∃ batch own, action = .change (.uploadDeposits node batch) ∧
      directory.Arrives node network validator.pubkey batch own ∧
      (Validator.ofDeposit validator.pubkey own).Replaced [] validator := by
  have sound' := (steps_after directory action).keep Sound.step sound
  cases passed : (action.operation.outcome directory).1.isOk with
  | false =>
    rw [after_of_refused passed] at member
    rw [publishedBy, passed, if_neg Bool.false_ne_true]
    exact .inl ⟨validator, member, .refl validator⟩
  | true =>
    have makes := makes_after passed
    rw [publishedBy, if_pos passed]
    have alone : action.Quiet →
        ∃ old ∈ directory.validatorsAt node network, old.Replaced [] validator :=
      fun quiet => quiet.exists_replaced sound member
    have handedIn : ∀ address batch, action = .change (.uploadDeposits address batch) →
        validator ∈ directory.validatorsAt node network ∨
          address = node ∧ ∃ own, directory.Arrives node network validator.pubkey batch own ∧
            (Validator.ofDeposit validator.pubkey own).Replaced [] validator := by
      rintro address batch rfl
      rcases held_or_arrives (sound'.validatorAt?_of_mem member) with
        held | ⟨here, own, arrives, same⟩
      · exact .inl (List.mem_of_find?_eq_some held)
      · refine .inr ⟨here, own, here ▸ arrives, ?_⟩
        rw [same]
        exact .refl validator
    generalize directory.after action = next at makes member
    cases makes with
    | uploadDeposits address old batch =>
      rcases handedIn address batch rfl with held | ⟨rfl, own, came⟩
      · exact .inl ⟨validator, held, .refl validator⟩
      · exact .inr ⟨batch, own, rfl, came⟩
    | publishSet address place batch pubkeys vault found keys =>
      have revised : Revised place (Validator.renewed batch) directory
          (directory.withPublished address place batch vault pubkeys) :=
        (revised_withUsed sound (requireKeys_eq_ok.mp keys)).withVault _ _ _
      exact .inl (revised.exists_replaced member)
    | cycleSet address place limit pubkeys vault found keys =>
      exact .inl ((revised_withCycled sound found keys).exists_replaced member)
    | _ => exact .inl (alone trivial)

/-! ### Whole runs -/

/-- **Every validator arrived with an upload**, and what was published since then has replaced its
deposit. -/
theorem exists_arrival (actions : List Action)
    (member : validator ∈ (built actions).validatorsAt node network) :
    ∃ earlier batch later own,
      actions = earlier ++ .change (.uploadDeposits node batch) :: later ∧
      (built earlier).Arrives node network validator.pubkey batch own ∧
      (Validator.ofDeposit validator.pubkey own).Replaced
        (publishedFor (((built earlier).after (.change (.uploadDeposits node batch))).publishedAlong
          later) network validator.pubkey) validator := by
  induction actions using List.reverseRecOn generalizing validator with
  | nil => simp [built, validatorsAt, node?] at member
  | append_singleton actions action ih =>
    rw [built_concat] at member
    rcases replaced_or_arrives (sound_built actions) action member with
      ⟨old, there, replaced⟩ | ⟨batch, own, rfl, arrives, came⟩
    · obtain ⟨earlier, batch, later, own, rfl, arrives, before⟩ := ih there
      refine ⟨earlier, batch, later ++ [action], own, by simp, replaced.pubkey ▸ arrives, ?_⟩
      have reached : later.foldl after ((built earlier).after
          (.change (.uploadDeposits node batch))) =
            built (earlier ++ .change (.uploadDeposits node batch) :: later) := by
        rw [built, built, List.foldl_append, List.foldl_cons]
      rw [publishedAlong_concat, publishedFor_append, reached]
      rw [← replaced.pubkey] at before
      exact before.trans replaced
    · exact ⟨actions, batch, [], own, rfl, arrives, came⟩

/-- **A validator is for the vault of the record it came with, and its deposit for that of the last
record that was published since.** Whatever was done to a directory, a validator came with an
upload by which its node came to hold the key on the network, and with the first record of the batch
for it. The validator is for the vault of this record, which exists, and it is used if and only if
records for its key were published on the network since it came. Its deposit is the last of them if
there are any, and otherwise the record that it came with. So the deposit is for the vault of the
validator unless this last record is for another one. When the validator is the one that is found
for its key, the status of the key is looked up with the vault of the record that it came with. -/
theorem vault_of_arrival (actions : List Action) (node : Address) (network : String)
    (validator : Validator) (member : validator ∈ (built actions).validatorsAt node network) :
    ∃ earlier batch later own published home,
      actions = earlier ++ .change (.uploadDeposits node batch) :: later ∧
      (built earlier).Arrives node network validator.pubkey batch own ∧
      published = publishedFor (((built earlier).after
        (.change (.uploadDeposits node batch))).publishedAlong later) network validator.pubkey ∧
      validator.vault = own.withdrawalAddress ∧
      validator.deposit = published.getLast?.getD own ∧
      (validator.used = true ↔ published ≠ []) ∧
      (validator.vault = validator.deposit.withdrawalAddress ↔
        ∀ last ∈ published.getLast?, last.withdrawalAddress = own.withdrawalAddress) ∧
      (built actions).vault? own.withdrawalAddress network = some home ∧
      ((built actions).findValidator network validator.pubkey = some validator →
        (built actions).status network validator.pubkey =
          reported validator (home.uploaded.contains validator.pubkey)) := by
  obtain ⟨earlier, batch, later, own, split, arrives, replaced⟩ := exists_arrival actions member
  obtain ⟨home, found⟩ := (sound_built actions).homed member
  have vault : validator.vault = own.withdrawalAddress := replaced.vault
  refine ⟨earlier, batch, later, own, _, home, split, arrives, rfl, vault, replaced.deposit, ?used,
    ?destination, vault ▸ found, fun first => ?status⟩
  case used =>
    rw [replaced.used]
    exact or_iff_right Bool.false_ne_true
  case destination =>
    rw [replaced.deposit, vault]
    cases (publishedFor (((built earlier).after
        (.change (.uploadDeposits node batch))).publishedAlong later) network
          validator.pubkey).getLast? with
    | none => simp [Validator.ofDeposit]
    | some last => simp [eq_comm]
  case status =>
    rw [status_of_findValidator first, isAcknowledged, found]
    rfl

/-- Two nodes of one user hand in one key for different vaults, and a cycle publishes the record of
the first one. -/
def oneKeyTwice : List Action :=
  opening "a" [repeated 1, repeated 2] "n" [repeated 8, repeated 9] ++
    [.change (.uploadDeposits (repeated 1) [plainDeposit 3 (repeated 9) "n"]),
      .change (.uploadDeposits (repeated 2) [plainDeposit 3 (repeated 8) "n"]),
      .change (.cycleSet (repeated 9) "n" 1)]

/-- What the second node is left with. -/
def leftWith : Validator :=
  { Validator.ofDeposit (repeated 3) (plainDeposit 3 (repeated 8) "n") with
    deposit := plainDeposit 3 (repeated 9) "n", used := true }

set_option maxRecDepth 2000 in
/-- The second node is left with the deposit of the first one, and for its own vault. -/
theorem vault_of_arrival_oneKeyTwice :
    leftWith ∈ (built oneKeyTwice).validatorsAt (repeated 2) "n" ∧
    ∃ earlier batch later own published home,
      oneKeyTwice = earlier ++ .change (.uploadDeposits (repeated 2) batch) :: later ∧
      (built earlier).Arrives (repeated 2) "n" leftWith.pubkey batch own ∧
      published = publishedFor (((built earlier).after
        (.change (.uploadDeposits (repeated 2) batch))).publishedAlong later) "n" leftWith.pubkey ∧
      own.withdrawalAddress = repeated 8 ∧
      published.getLast? = some (plainDeposit 3 (repeated 9) "n") ∧
      (built oneKeyTwice).vault? (repeated 8) "n" = some home := by
  have member : leftWith ∈ (built oneKeyTwice).validatorsAt (repeated 2) "n" := by decide
  obtain ⟨earlier, batch, later, own, published, home, split, arrives, since, vault, deposit, used,
    -, found, -⟩ := vault_of_arrival oneKeyTwice (repeated 2) "n" leftWith member
  have own_vault : own.withdrawalAddress = repeated 8 := by
    rw [← vault]
    decide
  refine ⟨member, earlier, batch, later, own, published, home, split, arrives, since, own_vault, ?_,
    own_vault ▸ found⟩
  cases last : published.getLast? with
  | none => exact absurd (List.getLast?_eq_none_iff.mp last) (used.mp rfl)
  | some record =>
    rw [last, Option.getD_some] at deposit
    rw [← deposit]
    rfl

set_option maxRecDepth 2000 in
/-- **A deposit need not be for the vault of its validator.** -/
theorem vault_mismatched :
    ¬ ∀ (actions : List Action) (node : Address) (network : String),
      ∀ validator ∈ (built actions).validatorsAt node network,
        validator.vault = validator.deposit.withdrawalAddress := by
  intro same
  have kept := same relabelledFirst (repeated 1) "n"
  exact absurd kept (by decide)

end StakingDirectory.Directory
