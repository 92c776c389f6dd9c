/-
**Where stored and published deposits come from.**

* `Validator.record` is what a validator is apart from its exit and its marks on a network; most
  changes leave the records of all validators and all published sets as they are (`keeps_change`);
* `Handles` says once what else happens to them: a batch is handed in by a node, or a chosen set is
  published, which replaces the deposits on its network (`Revised.exists_replaced`);
* `Sourced`: whatever is stored or published was handed in, and is on the network it is for
  (`Sourced.handles`);
* `Traced`: a validator has the deposit that its node handed in first for the key, until a set with
  the key is published; from then on it has the deposit that was published last (`Traced.handles`).
-/

import StakingDirectory.Proofs.Allotment.Cycle
import StakingDirectory.Proofs.Allotment.Marking
import StakingDirectory.Proofs.Directory.Intake
import StakingDirectory.Proofs.Directory.Progress

namespace StakingDirectory

/-- A change of one item that keeps a part of it keeps the parts of all items. -/
theorem map_modifyFirst {α β : Type} {part : α → β} {has : α → Bool} {change : α → α}
    (kept : ∀ item, part (change item) = part item) (items : List α) :
    (modifyFirst has change items).map part = items.map part := by
  induction items with
  | nil => rfl
  | cons item rest ih =>
    unfold modifyFirst
    split
    · rw [List.map_cons, List.map_cons, kept]
    · rw [List.map_cons, List.map_cons, ih]

namespace Validator

/-- The key and the deposit of a validator, and whether it is used. -/
def record (validator : Validator) : Pubkey × Deposit × Bool :=
  (validator.pubkey, validator.deposit, validator.used)

/-- Changes that keep a part of every validator keep it in turn. -/
theorem changed_kept {β : Type} {part : Validator → β}
    {changes : List (Pubkey × (Validator → Validator))}
    (kept : ∀ change ∈ changes, ∀ validator, part (change.2 validator) = part validator)
    (validator : Validator) : part (validator.changed changes) = part validator := by
  refine List.foldlRecOn (motive := fun between : Validator => part between = part validator)
    changes _ rfl fun between same change member => ?_
  rw [changeFor]
  split
  · rw [kept change member, same]
  · exact same

theorem record_confirmed (pubkeys : List Pubkey) (validator : Validator) :
    (validator.confirmed pubkeys).record = validator.record := by
  refine changed_kept ?_ validator
  exact List.forall_mem_map.mpr fun _ _ _ => rfl

/-- **What is taken in for a new key is the first record for it.** -/
theorem accepted_first {held : List Validator} {entries : List (Pubkey × Deposit)}
    {validator : Validator} (member : validator ∈ accepted held entries) :
    validator ∈ held ∨ validator.used = false ∧
      validator.pubkey ∉ held.map Validator.pubkey ∧
        ((entries.filter fun entry => entry.1 = validator.pubkey).map Prod.snd).head? =
          some validator.deposit := by
  induction entries generalizing held with
  | nil => exact .inl member
  | cons entry rest ih =>
    change validator ∈ accepted (if entry.1 ∈ held.map Validator.pubkey then held
      else held ++ [.ofDeposit entry.1 entry.2]) rest at member
    split at member
    · rename_i known
      refine (ih member).imp_right fun ⟨unused, fresh, first⟩ => ⟨unused, fresh, ?_⟩
      have other : entry.1 ≠ validator.pubkey := fun same => fresh (same ▸ known)
      rw [List.filter_cons_of_neg (by simpa using other)]
      exact first
    · rename_i unknown
      rcases ih member with before | ⟨unused, fresh, first⟩
      · rcases List.mem_append.mp before with before | last
        · exact .inl before
        · obtain rfl := List.mem_singleton.mp last
          refine .inr ⟨rfl, unknown, ?_⟩
          rw [List.filter_cons_of_pos (by simp [ofDeposit])]
          rfl
      · rw [List.map_append, List.mem_append, not_or] at fresh
        refine .inr ⟨unused, fresh.1, ?_⟩
        have other : entry.1 ≠ validator.pubkey := fun same =>
          fresh.2 (List.mem_singleton.mpr same.symm)
        rw [List.filter_cons_of_neg (by simpa using other)]
        exact first

end Validator

namespace Directory

open Operation

variable {directory next : Directory}

/-! ### Changes that leave deposits alone -/

/-- The records of validators and the published sets are the same. -/
structure Keeps (before after : Directory) : Prop where
  records : ∀ address network, (after.validatorsAt address network).map Validator.record =
    (before.validatorsAt address network).map Validator.record
  sets : ∀ address network, after.latestSet address network = before.latestSet address network

theorem Keeps.refl (directory : Directory) : Keeps directory directory :=
  ⟨fun _ _ => rfl, fun _ _ => rfl⟩

theorem latestSet_congr (same : next.vaults = directory.vaults) (address : Address)
    (network : String) : next.latestSet address network = directory.latestSet address network := by
  rw [latestSet, latestSet, vault?_congr same]

/-- Where the lists of nodes and all vaults are the same, nothing happened to a deposit. -/
theorem keeps_of_eq
    (lists : ∀ address network,
      next.validatorsAt address network = directory.validatorsAt address network)
    (vaults : next.vaults = directory.vaults) : Keeps directory next :=
  ⟨fun address network => by rw [lists], latestSet_congr vaults⟩

/-- A validator has the record of one that was there before. -/
theorem Keeps.exists_record (keeps : Keeps directory next) {address : Address} {network : String}
    {validator : Validator} (member : validator ∈ next.validatorsAt address network) :
    ∃ old ∈ directory.validatorsAt address network, old.pubkey = validator.pubkey ∧
      old.deposit = validator.deposit ∧ old.used = validator.used := by
  have inside := List.mem_map_of_mem (f := Validator.record) member
  rw [keeps.records] at inside
  obtain ⟨old, there, same⟩ := List.mem_map.mp inside
  obtain ⟨key, rest⟩ := Prod.mk.inj same
  obtain ⟨deposit, used⟩ := Prod.mk.inj rest
  exact ⟨old, there, key, deposit, used⟩

theorem Keeps.holds_iff (keeps : Keeps directory next) (network : String) (pubkey : Pubkey)
    (address : Address) :
    next.Holds network pubkey address ↔ directory.Holds network pubkey address := by
  have keys : ∀ validators : List Validator,
      validators.map Validator.pubkey = (validators.map Validator.record).map Prod.fst := by
    intro validators
    rw [List.map_map]
    rfl
  unfold Holds
  rw [keys, keys, keeps.records]

theorem keeps_withRegistered (directory : Directory) (address : Address) (position : Nat) :
    Keeps directory (directory.withRegistered address position) :=
  keeps_of_eq (validatorsAt_withRegistered address position) rfl

theorem latestSet_withNewVault {address : Address} {network : String}
    (fresh : directory.vault? address network = none) (other : Address) (place : String) :
    (directory.withNewVault address network).latestSet other place =
      directory.latestSet other place := by
  unfold latestSet
  rw [vault?_withNewVault]
  split
  · rename_i here
    obtain ⟨rfl, rfl⟩ := here
    rw [fresh]
    rfl
  · rfl

theorem latestSet_withUploaded {address : Address} {network : String} {vault : Vault}
    (found : directory.vault? address network = some vault) (pubkeys : List Pubkey)
    (other : Address) (place : String) :
    (directory.withVault address network (vault.withUploaded pubkeys)).latestSet other place =
      directory.latestSet other place := by
  unfold latestSet
  rw [vault?_withVault found]
  split
  · rename_i here
    obtain ⟨rfl, rfl⟩ := here
    rw [found]
    rfl
  · rfl

theorem records_attachExits (node : Node) (network : String)
    (entries : List (Pubkey × ExitEntry)) (other : String) :
    ((node.attachExits network entries).held other).map Validator.record =
      (node.held other).map Validator.record := by
  rw [Node.held_attachExits]
  split
  · refine List.foldlRecOn (motive := fun between : List Validator =>
      between.map Validator.record = (node.held other).map Validator.record) entries _ rfl
      fun between same entry _ => ?_
    have kept : ∀ validator : Validator,
        (validator.attachExit entry.2.exit).record = validator.record := fun _ => rfl
    exact (map_modifyFirst kept between).trans same
  · rfl

/-- Hands nothing in, and publishes nothing. -/
def Change.Quiet : Change → Prop
  | .uploadDeposits _ _ | .publishSet _ _ _ | .cycleSet _ _ _ => False
  | _ => True

/-- **Only what is handed in or published changes deposits**, among the changes that need no
signature. -/
theorem keeps_change {change : Change} (quiet : change.Quiet) (directory : Directory) :
    Keeps directory (change.operation.outcome directory).2 := by
  refine after_cases (P := Keeps directory) directory (.change change) (.refl directory)
    fun makes => ?_
  cases makes with
  | addUser => exact keeps_of_eq (validatorsAt_congr rfl) rfl
  | whitelistNode email address position known free =>
    exact keeps_of_eq (validatorsAt_withWhitelisted free email position) rfl
  | whitelistAgain => exact .refl directory
  | addVault address network fresh => exact ⟨fun _ _ => rfl, latestSet_withNewVault fresh⟩
  | uploadExits address network node batch pubkeys found =>
    refine ⟨fun other place => ?_, latestSet_congr rfl⟩
    rw [validatorsAt_withNode]
    split
    · rename_i here
      subst here
      rw [records_attachExits, validatorsAt_of_node? found]
    · rfl
  | handToVault address network batch pubkeys vault keys found =>
    exact ⟨fun _ _ => rfl, latestSet_withUploaded found pubkeys⟩
  | markActive address network batch pubkeys =>
    refine ⟨fun other place => ?_,
      latestSet_congr (onlyNodes_withActive directory network pubkeys).vaults⟩
    rw [validatorsAt_withActive]
    split
    · rw [List.map_map]
      exact List.map_congr_left fun validator _ => Validator.record_confirmed pubkeys validator
    · rfl
  | uploadDeposits | publishSet | cycleSet => cases quiet

/-! ### What is handed in and published -/

/-- **What happens to deposits**, with the records that a node hands in, and those that are
published on a network. -/
inductive Handles (directory : Directory) :
    List (Address × Deposit) → List (String × Deposit) → Directory → Prop
  | quiet {next : Directory} (keeps : Keeps directory next) : Handles directory [] [] next
  | upload {node : Address} {old : Node} {batch : List Deposit} {pubkeys : List Pubkey}
      (found : directory.node? node = some old)
      (keys : List.Forall₂ (fun deposit pubkey => deposit.validatorKey = .ok pubkey) batch
        pubkeys) :
      Handles directory (batch.map (Prod.mk node)) []
        (directory.withNode node (old.acceptDeposits (pubkeys.zip batch)).1)
  | cycle {address : Address} {network : String} {vault : Vault}
      (found : directory.vault? address network = some vault) (limit : Nat) :
      Handles directory [] ((directory.chooseSet network limit).map (Prod.mk network))
        (directory.cycled address network limit)

/-- The records that a node handed in for a key on a network. -/
def handedFor (handed : List (Address × Deposit)) (node : Address) (network : String)
    (pubkey : Pubkey) : List Deposit :=
  (handed.filter fun entry =>
    entry.1 = node ∧ entry.2.network = network ∧ entry.2.pubkey = pubkey.bytes).map Prod.snd

/-- The records for a key that were published on a network. -/
def publishedFor (published : List (String × Deposit)) (network : String) (pubkey : Pubkey) :
    List Deposit :=
  (published.filter fun entry =>
    entry.1 = network ∧ entry.2.pubkey = pubkey.bytes).map Prod.snd

theorem publishedFor_batch (batch : List Deposit) (network : String) (pubkey : Pubkey) :
    publishedFor (batch.map (Prod.mk network)) network pubkey =
      batch.filter fun deposit => deposit.pubkey = pubkey.bytes := by
  rw [publishedFor, List.filter_map, List.map_map]
  simp only [Function.comp_def, true_and, List.map_id']

theorem publishedFor_of_ne {network place : String} (other : place ≠ network)
    (batch : List Deposit) (pubkey : Pubkey) :
    publishedFor (batch.map (Prod.mk place)) network pubkey = [] := by
  rw [publishedFor, List.map_eq_nil_iff, List.filter_eq_nil_iff]
  rintro entry member both
  obtain ⟨deposit, -, rfl⟩ := List.mem_map.mp member
  exact other (by simpa using (of_decide_eq_true both).1)

theorem mem_publishedFor {batch : List Deposit} {network place : String} {pubkey : Pubkey}
    {deposit : Deposit}
    (member : deposit ∈ publishedFor (batch.map (Prod.mk network)) place pubkey) :
    network = place ∧ deposit ∈ batch ∧ deposit.pubkey = pubkey.bytes := by
  obtain ⟨entry, inside, rfl⟩ := List.mem_map.mp member
  obtain ⟨listed, both⟩ := List.mem_filter.mp inside
  obtain ⟨deposit, known, rfl⟩ := List.mem_map.mp listed
  obtain ⟨here, key⟩ := of_decide_eq_true both
  exact ⟨here, known, key⟩

/-- **A published set replaces the deposits on its network.** -/
theorem Revised.exists_replaced {node : Address} {network place : String} {validator : Validator}
    {batch : List Deposit} (revised : Revised place (Validator.renewed batch) directory next)
    (member : validator ∈ next.validatorsAt node network) :
    ∃ old ∈ directory.validatorsAt node network,
      old.Replaced (publishedFor (batch.map (Prod.mk place)) network validator.pubkey)
        validator := by
  by_cases here : place = network
  · subst here
    rw [revised.here] at member
    obtain ⟨old, there, rfl⟩ := List.mem_map.mp member
    have replaced := Validator.replaced_renewed batch old
    refine ⟨old, there, ?_⟩
    rw [replaced.pubkey, publishedFor_batch]
    exact replaced
  · rw [revised.elsewhere _ _ (Ne.symm here)] at member
    rw [publishedFor_of_ne here]
    exact ⟨validator, member, .refl validator⟩

/-- A cycle publishes what was chosen. -/
theorem revised_cycled (sound : Sound directory) {address : Address} {network : String}
    {vault : Vault} (found : directory.vault? address network = some vault) (limit : Nat) :
    Revised network (Validator.renewed (directory.chooseSet network limit)) directory
      (directory.cycled address network limit) := by
  obtain ⟨_, pubkeys, there, keys, -, same⟩ :=
    cycleSet_eq_ok.mp (outcome_cycleSet_of_vault sound.genuine found limit)
  rw [cycled_eq sound.genuine found, ← same]
  exact revised_withCycled sound there keys

/-! ### Everything was handed in -/

/-- **Whatever is stored or published was handed in**, for the network that it is on. -/
structure Sourced (handed : List Deposit) (directory : Directory) : Prop where
  stored : ∀ {address : Address} {network : String} {validator : Validator},
    validator ∈ directory.validatorsAt address network →
      validator.deposit.network = network ∧ validator.deposit ∈ handed
  published : ∀ {address : Address} {network : String} {deposit : Deposit},
    deposit ∈ directory.latestSet address network → deposit.network = network ∧ deposit ∈ handed

theorem sourced_empty : Sourced [] {} where
  stored member := by simp [validatorsAt, node?] at member
  published member := by simp [latestSet, vault?] at member

theorem Sourced.mono {handed more : List Deposit} (sourced : Sourced handed directory)
    (subset : handed ⊆ more) : Sourced more directory where
  stored member := (sourced.stored member).imp_right (@subset _)
  published member := (sourced.published member).imp_right (@subset _)

/-- What is chosen was stored. -/
theorem Sourced.chosen {handed : List Deposit} (sourced : Sourced handed directory)
    {network : String} {limit : Nat} {deposit : Deposit}
    (member : deposit ∈ directory.chooseSet network limit) :
    deposit.network = network ∧ deposit ∈ handed := by
  rw [chooseSet_eq] at member
  obtain ⟨entry, inside, rfl⟩ := List.mem_map.mp member
  exact sourced.stored (mem_chosen inside).2.1

/-- **Nothing is stored or published that was not handed in**, whatever happens. -/
theorem Sourced.handles {handed : List Deposit} {more : List (Address × Deposit)}
    {published : List (String × Deposit)} (sound : Sound directory)
    (sourced : Sourced handed directory) (handles : Handles directory more published next) :
    Sourced (handed ++ more.map Prod.snd) next := by
  have before := sourced.mono (List.subset_append_left handed (more.map Prod.snd))
  cases handles with
  | quiet keeps =>
    refine ⟨fun member => ?_, fun member => before.published (keeps.sets _ _ ▸ member)⟩
    obtain ⟨old, there, -, same, -⟩ := keeps.exists_record member
    rw [← same]
    exact before.stored there
  | @upload node old batch pubkeys found keys =>
    refine ⟨fun {address network validator} member => ?_,
      fun member => before.published (latestSet_congr rfl _ _ ▸ member)⟩
    rw [validatorsAt_acceptDeposits found] at member
    split at member
    · rename_i here
      subst here
      obtain ⟨new, same, -, fresh⟩ := Validator.accepted_eq_append
        (directory.validatorsAt node network)
        ((pubkeys.zip batch).filter fun entry => entry.2.network = network)
      rw [same] at member
      rcases List.mem_append.mp member with held | taken
      · exact before.stored held
      · obtain ⟨-, entry, inside, rfl⟩ := fresh validator taken
        obtain ⟨listed, place⟩ := List.mem_filter.mp inside
        have known : entry.2 ∈ batch := (List.of_mem_zip listed).2
        refine ⟨of_decide_eq_true place, List.mem_append_right _ ?_⟩
        rw [List.map_map]
        exact List.mem_map.mpr ⟨entry.2, known, rfl⟩
    · exact before.stored member
  | @cycle vault network found_vault found limit =>
    refine ⟨fun {address place validator} member => ?_, fun {address place deposit} member => ?_⟩
    · obtain ⟨old, there, replaced⟩ := (revised_cycled sound found limit).exists_replaced member
      have same := replaced.deposit
      cases last : (publishedFor ((directory.chooseSet network limit).map (Prod.mk network)) place
          validator.pubkey).getLast? with
      | none =>
        rw [last, Option.getD_none] at same
        rw [same]
        exact before.stored there
      | some deposit =>
        rw [last, Option.getD_some] at same
        obtain ⟨rfl, chosen, -⟩ := mem_publishedFor (List.mem_of_getLast? last)
        rw [same]
        exact before.chosen chosen
    · by_cases here : vault = address ∧ network = place
      · obtain ⟨rfl, rfl⟩ := here
        rw [latestSet_cycled sound.genuine found] at member
        exact before.chosen member
      · rw [latestSet, cycled_eq sound.genuine found, vault?_withCycled found, if_neg here]
          at member
        exact before.published member

/-! ### Whose deposit it is -/

theorem handedFor_append (earlier later : List (Address × Deposit)) (node : Address)
    (network : String) (pubkey : Pubkey) :
    handedFor (earlier ++ later) node network pubkey =
      handedFor earlier node network pubkey ++ handedFor later node network pubkey := by
  rw [handedFor, List.filter_append, List.map_append]
  rfl

theorem handedFor_of_ne {node other : Address} (different : node ≠ other) (batch : List Deposit)
    (network : String) (pubkey : Pubkey) :
    handedFor (batch.map (Prod.mk node)) other network pubkey = [] := by
  rw [handedFor, List.map_eq_nil_iff, List.filter_eq_nil_iff]
  rintro entry member both
  obtain ⟨deposit, -, rfl⟩ := List.mem_map.mp member
  exact different (of_decide_eq_true both).1

/-- The records of a batch for a key, beside their keys. -/
theorem handedFor_batch {batch : List Deposit} {pubkeys : List Pubkey}
    (keys : List.Forall₂ (fun deposit pubkey => deposit.validatorKey = .ok pubkey) batch pubkeys)
    (node : Address) (network : String) (pubkey : Pubkey) :
    handedFor (batch.map (Prod.mk node)) node network pubkey =
      ((((pubkeys.zip batch).filter fun entry => entry.2.network = network).filter
        fun entry => entry.1 = pubkey).map Prod.snd) := by
  have entries : batch = (pubkeys.zip batch).map Prod.snd :=
    (List.map_snd_zip (Nat.le_of_eq keys.length_eq)).symm
  rw [handedFor, List.filter_map, List.map_map, List.filter_filter]
  conv_lhs => rw [entries, List.filter_map, List.map_map]
  refine congrArg (List.map Prod.snd) (List.filter_congr fun entry member => ?_)
  have key := (List.forall₂_iff_zip.mp keys.flip).2 member
  rw [Bool.eq_iff_iff]
  simp [Deposit.pubkey_eq_bytes_iff key, and_comm]

/-- **Where the deposit of a validator comes from**, given what was handed in and the records for
its key that were published while its node held it. -/
structure Origin (handed : List (Address × Deposit)) (published : List Deposit) (node : Address)
    (network : String) (validator : Validator) (own : Deposit) : Prop where
  /-- The node handed this record in first. -/
  first : (handedFor handed node network validator.pubkey).head? = some own
  /-- The last record that was published since then has taken its place. -/
  last : validator.deposit = published.getLast?.getD own
  /-- Some node handed the present deposit in first. -/
  giver : ∃ other, (handedFor handed other network validator.pubkey).head? = some validator.deposit
  unused : validator.used = false → validator.deposit = own

/-- What was handed in first stays the first. -/
theorem Origin.append {handed : List (Address × Deposit)} {published : List Deposit}
    {node : Address} {network : String} {validator : Validator} {own : Deposit}
    (origin : Origin handed published node network validator own)
    (more : List (Address × Deposit)) :
    Origin (handed ++ more) published node network validator own where
  first := by rw [handedFor_append, List.head?_append, origin.first, Option.some_or]
  last := origin.last
  giver := by
    obtain ⟨other, given⟩ := origin.giver
    exact ⟨other, by rw [handedFor_append, List.head?_append, given, Option.some_or]⟩
  unused := origin.unused

/-- **Every deposit has its origin**, and of keys that a node does not hold there is nothing. -/
structure Traced (handed : List (Address × Deposit))
    (published : Address → String → Pubkey → List Deposit) (directory : Directory) : Prop where
  stored : ∀ {node : Address} {network : String} {validator : Validator},
    validator ∈ directory.validatorsAt node network →
      ∃ own, Origin handed (published node network validator.pubkey) node network validator own
  absent : ∀ {node : Address} {network : String} {pubkey : Pubkey},
    ¬ directory.Holds network pubkey node →
      handedFor handed node network pubkey = [] ∧ published node network pubkey = []

theorem traced_empty : Traced [] (fun _ _ _ => []) {} where
  stored member := by simp [validatorsAt, node?] at member
  absent _ := ⟨rfl, rfl⟩

section

variable {handed : List (Address × Deposit)}
  {published : Address → String → Pubkey → List Deposit}

theorem Traced.quiet (traced : Traced handed published directory)
    (keeps : Keeps directory next) : Traced handed published next where
  stored member := by
    obtain ⟨old, there, key, deposit, used⟩ := keeps.exists_record member
    obtain ⟨own, origin⟩ := traced.stored there
    rw [key] at origin
    refine ⟨own, ?first, ?last, ?giver, ?unused⟩
    case first => exact key ▸ origin.first
    case last => exact deposit ▸ origin.last
    case giver =>
      obtain ⟨other, given⟩ := origin.giver
      exact ⟨other, by rw [← key, ← deposit, given]⟩
    case unused => exact fun unused => deposit ▸ origin.unused (used.trans unused)
  absent without := traced.absent fun holds => without ((keeps.holds_iff _ _ _).mpr holds)

/-- **A node that hands a batch in** gets what comes first for each key that it does not hold. -/
theorem Traced.upload (traced : Traced handed published directory) {node : Address} {old : Node}
    {batch : List Deposit} {pubkeys : List Pubkey} (found : directory.node? node = some old)
    (keys : List.Forall₂ (fun deposit pubkey => deposit.validatorKey = .ok pubkey) batch pubkeys) :
    Traced (handed ++ batch.map (Prod.mk node)) published
      (directory.withNode node (old.acceptDeposits (pubkeys.zip batch)).1) where
  stored {other network validator} member := by
    have kept : validator ∈ directory.validatorsAt other network → ∃ own,
        Origin (handed ++ batch.map (Prod.mk node)) (published other network validator.pubkey)
          other network validator own := fun held =>
      (traced.stored held).imp fun own origin => origin.append _
    rw [validatorsAt_acceptDeposits found] at member
    split at member
    · rename_i here
      subst here
      rcases Validator.accepted_first member with held | ⟨unused, fresh, first⟩
      · exact kept held
      · have without : ¬ directory.Holds network validator.pubkey node := fresh
        obtain ⟨nothing, none⟩ := traced.absent without
        have given : (handedFor (handed ++ batch.map (Prod.mk node)) node network
            validator.pubkey).head? = some validator.deposit := by
          rw [handedFor_append, nothing, List.nil_append, handedFor_batch keys]
          exact first
        exact ⟨validator.deposit, given, by rw [none]; rfl, ⟨node, given⟩, fun _ => rfl⟩
    · exact kept member
  absent {other network pubkey} without := by
    rw [Holds, validatorsAt_acceptDeposits found] at without
    split at without
    · rename_i here
      subst here
      rw [Validator.mem_map_pubkey_accepted, not_or] at without
      obtain ⟨nothing, none⟩ := traced.absent without.1
      refine ⟨?_, none⟩
      rw [handedFor_append, nothing, List.nil_append, handedFor_batch keys, List.map_eq_nil_iff,
        List.filter_eq_nil_iff]
      intro entry inside same
      exact without.2 (List.mem_map.mpr ⟨entry, inside, of_decide_eq_true same⟩)
    · rename_i elsewhere
      obtain ⟨nothing, none⟩ := traced.absent without
      exact ⟨by rw [handedFor_append, nothing, handedFor_of_ne elsewhere]; rfl, none⟩

/-- **A cycle puts what it publishes in the place of the deposits** of all validators with the key,
and every record that it publishes was handed in first by the node that it is taken from. -/
theorem Traced.cycle (sound : Sound directory) (traced : Traced handed published directory)
    {address : Address} {network : String} {vault : Vault}
    (found : directory.vault? address network = some vault) (limit : Nat) :
    Traced handed
      (fun node place pubkey => published node place pubkey ++
        if directory.Holds place pubkey node then
          publishedFor ((directory.chooseSet network limit).map (Prod.mk network)) place pubkey
        else [])
      (directory.cycled address network limit) where
  stored {node place validator} member := by
    obtain ⟨old, there, replaced⟩ := (revised_cycled sound found limit).exists_replaced member
    have key := replaced.pubkey.symm
    have same := replaced.deposit
    obtain ⟨own, origin⟩ := traced.stored there
    have holds : directory.Holds place validator.pubkey node :=
      List.mem_map.mpr ⟨old, there, key⟩
    rw [key] at origin
    refine ⟨own, ?first, ?last, ?giver, ?unused⟩
    case first => exact key ▸ origin.first
    case last =>
      rw [if_pos holds, List.getLast?_append, same, origin.last]
      cases (publishedFor ((directory.chooseSet network limit).map (Prod.mk network)) place
        validator.pubkey).getLast? <;> rfl
    case giver =>
      cases last : (publishedFor ((directory.chooseSet network limit).map (Prod.mk network)) place
          validator.pubkey).getLast? with
      | none =>
        obtain ⟨other, given⟩ := origin.giver
        rw [last, Option.getD_none] at same
        exact ⟨other, by rw [same, ← key, given]⟩
      | some deposit =>
        rw [last, Option.getD_some] at same
        obtain ⟨rfl, chosen, named⟩ := mem_publishedFor (List.mem_of_getLast? last)
        rw [chooseSet_eq] at chosen
        obtain ⟨entry, picked, rfl⟩ := List.mem_map.mp chosen
        obtain ⟨-, held, waiting⟩ := mem_chosen picked
        obtain ⟨given, source⟩ := traced.stored held
        have own_key := (Deposit.pubkey_eq_bytes_iff (sound.genuine.validatorsAt held)).mp named
        exact ⟨entry.1, by rw [same, ← own_key, source.first, source.unused waiting]⟩
    case unused =>
      intro waiting
      obtain ⟨before, still⟩ := replaced.unused waiting
      rw [still, origin.unused before]
  absent {node place pubkey} without := by
    have before : ¬ directory.Holds place pubkey node := by
      intro holds
      obtain ⟨validator, held, rfl⟩ := List.mem_map.mp holds
      obtain ⟨later, there, advances⟩ :=
        (steps_cycled directory address network limit).advances held
      exact without (List.mem_map.mpr ⟨later, there, advances.pubkey⟩)
    obtain ⟨nothing, none⟩ := traced.absent before
    exact ⟨nothing, by rw [none, if_neg before]; rfl⟩

/-- **Deposits keep their origins**, whatever happens. -/
theorem Traced.handles (sound : Sound directory) (traced : Traced handed published directory)
    {more : List (Address × Deposit)} {now : List (String × Deposit)}
    (handles : Handles directory more now next) :
    Traced (handed ++ more)
      (fun node network pubkey => published node network pubkey ++
        if directory.Holds network pubkey node then publishedFor now network pubkey else [])
      next := by
  have nothing : (fun node network pubkey => published node network pubkey ++
      if directory.Holds network pubkey node then publishedFor [] network pubkey else []) =
        published := by
    funext node network pubkey
    rw [publishedFor, List.filter_nil, List.map_nil, ite_self, List.append_nil]
  cases handles with
  | quiet keeps =>
    rw [List.append_nil, nothing]
    exact traced.quiet keeps
  | upload found keys =>
    rw [nothing]
    exact traced.upload found keys
  | cycle found limit =>
    rw [List.append_nil]
    exact traced.cycle sound found limit

end

end Directory

end StakingDirectory
