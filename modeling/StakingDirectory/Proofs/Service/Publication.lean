/-
**How often a key is published.**

A cycle marks every validator with a chosen key as used, but a key that was published is new again
to a node that does not hold it yet. Keys are therefore published once for each node that hands them
in, and not once altogether.

* `publications` are the sets that the cycles of a run publish on a network, and `handouts` the
  validators that their records are taken from, with the nodes that hold them;
* `Ready` is what steady commands keep, and they change the directory by steps only (`Ready.after`);
* `unused_handouts`: what is handed out in a run was not used when the run began, so that nothing is
  handed out twice (`nodup_handouts`);
* `timesPublished_le_holders` counts: a key is in the sets at most as often as there are nodes that
  hold it in the end, and once it was published, only as often as nodes come to hold it later.
-/

import Mathlib.Data.List.Perm.Subperm
import StakingDirectory.Proofs.Allotment.Cycle
import StakingDirectory.Proofs.Directory.Progress
import StakingDirectory.Proofs.Service.Admission
import StakingDirectory.Proofs.Service.Run

namespace StakingDirectory

/-- The registered nodes that hold a key on a network. -/
def Directory.holders (directory : Directory) (network : String) (pubkey : Pubkey) :
    List Address :=
  directory.registeredAddresses.filter fun address => directory.Holds network pubkey address

/-- All nodes that hold a key are registered. -/
theorem Directory.mem_holders {directory : Directory} (sound : Sound directory) {network : String}
    {pubkey : Pubkey} {node : Address} (holds : directory.Holds network pubkey node) :
    node ∈ directory.holders network pubkey := by
  have nonempty : directory.validatorsAt node network ≠ [] := by
    intro empty
    rw [Holds, empty] at holds
    cases holds
  exact List.mem_filter.mpr ⟨sound.owned.mem_registeredAddresses.mpr (sound.placed nonempty),
    decide_eq_true holds⟩

namespace Service

open Operation Directory

variable {mint : Mint} {service : Service} {network : String} {pubkey : Pubkey}

/-! ### Steady runs -/

/-- Brings no other state back or in, and publishes no set but a chosen one. -/
def Command.Steady : Command → Prop
  | .revertToSnapshot _ | .setState _ | .restart _ | .change (.publishSet _ _ _) => False
  | _ => True

/-- The service after commands in turn. -/
def continued (service : Service) (mint : Mint) (commands : List Command) : Service :=
  commands.foldl (fun service command => service.after mint command) service

/-- The archive is tidy, and the live directory in good order. -/
structure Ready (service : Service) : Prop where
  tidy : service.archive.Tidy none
  sound : Sound service.directory

theorem ready_new : Ready {} :=
  ⟨Archive.tidy_ofState _, sound_empty⟩

/-- A change of the live state that changes the directory by steps. -/
theorem Ready.withLive (ready : Ready service) {next : Service} {state : State}
    (changed : next.archive = service.archive.withLive state)
    (steps : Steps service.directory state.directory) :
    Ready next ∧ Steps service.directory next.directory := by
  have same : next.directory = state.directory := by
    rw [directory, live, changed, Archive.liveState_withLive ready.tidy]
  refine ⟨⟨?_, ?_⟩, same ▸ steps⟩
  · rw [changed]
    exact Archive.tidy_withLive ready.tidy state
  · rw [same]
    exact steps.keep Sound.step ready.sound

/-- **A steady command changes the live directory by steps**, and leaves the archive tidy. -/
theorem Ready.after (ready : Ready service) (mint : Mint) {command : Command}
    (steady : command.Steady) :
    Ready (service.after mint command) ∧
      Steps service.directory (service.after mint command).directory := by
  have unchanged : Ready service ∧ Steps service.directory service.directory := ⟨ready, .refl⟩
  unfold Service.after
  cases command with
  | change change =>
    rw [Command.operation, outcome_map, outcome_onDirectory]
    exact ready.withLive rfl (steps_change change service.directory)
  | registerNode email node signature =>
    rw [Command.operation, outcome_map, outcome_registerNode]
    refine settled_state (P := fun next : Service =>
      Ready next ∧ Steps service.directory next.directory) unchanged fun position passed => ?_
    obtain ⟨_, allowed, rest⟩ := bind_eq_ok.mp passed
    obtain ⟨_, _, same⟩ := bind_eq_ok.mp rest
    cases same
    have steps := steps_registerNode email node service.directory
    rw [Directory.outcome_registerNode, allowed] at steps
    exact ready.withLive rfl steps
  | createSession => exact ready.withLive rfl .refl
  | login token nonce node signature =>
    rw [Command.operation, outcome_map, outcome_login]
    exact settled_state (P := fun next : Service =>
      Ready next ∧ Steps service.directory next.directory) unchanged fun _ _ =>
        ready.withLive rfl .refl
  | takeSnapshot name =>
    have same : (service.takeSnapshot name).directory = service.directory := by
      rw [directory, live, takeSnapshot, Archive.liveState_take ready.tidy]
      rfl
    exact ⟨⟨Archive.tidy_take ready.tidy name, same ▸ ready.sound⟩, same ▸ .refl⟩
  | revertToSnapshot | setState | restart => cases steady

theorem Ready.continued {commands : List Command} (ready : Ready service) (mint : Mint)
    (steady : ∀ command ∈ commands, command.Steady) :
    Ready (service.continued mint commands) ∧
      Steps service.directory (service.continued mint commands).directory := by
  induction commands generalizing service with
  | nil => exact ⟨ready, .refl⟩
  | cons command rest ih =>
    obtain ⟨next, first⟩ := ready.after mint (steady command List.mem_cons_self)
    obtain ⟨last, further⟩ :=
      ih next fun later member => steady later (List.mem_cons_of_mem _ member)
    exact ⟨last, first.trans further⟩

/-! ### What is published -/

/-- The vault that a change publishes a set for, and its network. -/
def vaultOfSet? : Change → Option (Address × String)
  | .publishSet vault place _ | .cycleSet vault place _ => some (vault, place)
  | _ => none

/-- The set that a command publishes on a network, unless it is refused: the latest set of the
vault afterwards. -/
def publishedBy (mint : Mint) (network : String) (service : Service) :
    Command → List (List Deposit)
  | .change change =>
    match vaultOfSet? change, (((Command.change change).operation mint).outcome service).1 with
    | some (vault, place), .ok _ =>
      if place = network then
        [(service.after mint (.change change)).directory.latestSet vault network]
      else []
    | _, _ => []
  | _ => []

/-- The sets that commands in turn publish on a network. -/
def publications (mint : Mint) (network : String) : Service → List Command → List (List Deposit)
  | _, [] => []
  | service, command :: rest =>
    publishedBy mint network service command ++
      publications mint network (service.after mint command) rest

/-- How many records of some sets are for a key. -/
def timesPublished (pubkey : Pubkey) (sets : List (List Deposit)) : Nat :=
  sets.flatten.countP fun deposit => deposit.pubkey = pubkey.bytes

/-- The validators that a command publishes the deposits of on a network, with their nodes. -/
def handedOutBy (network : String) (service : Service) : Command → List (Address × Validator)
  | .change (.cycleSet vault place limit) =>
    if place = network ∧ (service.directory.vault? vault network).isSome then
      service.directory.chosen network limit
    else []
  | _ => []

/-- The validators that commands in turn publish the deposits of on a network. -/
def handouts (mint : Mint) (network : String) : Service → List Command → List (Address × Validator)
  | _, [] => []
  | service, command :: rest =>
    handedOutBy network service command ++ handouts mint network (service.after mint command) rest

/-- What is handed out is chosen in a cycle of a vault that exists. -/
theorem mem_handedOutBy {command : Command} {entry : Address × Validator}
    (member : entry ∈ handedOutBy network service command) :
    ∃ address limit vault, command = .change (.cycleSet address network limit) ∧
      service.directory.vault? address network = some vault ∧
      entry ∈ service.directory.chosen network limit := by
  unfold handedOutBy at member
  split at member
  · split at member
    · rename_i address place limit here
      obtain ⟨rfl, known⟩ := here
      obtain ⟨vault, found⟩ := Option.isSome_iff_exists.mp known
      exact ⟨address, limit, vault, rfl, found, member⟩
    · cases member
  · cases member

/-- A cycle succeeds if its vault exists, and is refused otherwise. -/
theorem outcome_cycle (ready : Ready service) (address : Address) (place : String) (limit : Nat) :
    (((Command.change (.cycleSet address place limit)).operation mint).outcome service).1 =
      match service.directory.vault? address place with
      | some vault => .ok (.reply (.published (vault.latestIndex + 1)))
      | none => .error (.unknownVault address place) := by
  simp only [Command.operation, Change.operation, outcome_map, outcome_onDirectory]
  cases found : service.directory.vault? address place with
  | some vault => rw [outcome_cycleSet_of_vault ready.sound.genuine found]; rfl
  | none => rw [outcome_cycleSet_of_none found]; rfl

/-- The latest set of a vault that was cycled is the chosen one. -/
theorem latestSet_after (ready : Ready service) {address : Address} {place : String}
    {vault : Vault} (found : service.directory.vault? address place = some vault) (limit : Nat) :
    (service.after mint (.change (.cycleSet address place limit))).directory.latestSet address
        place = (service.directory.chosen place limit).map fun entry => entry.2.deposit := by
  rw [directory_change ready.tidy, Change.operation, outcome_map, ← chooseSet_eq]
  exact latestSet_cycled ready.sound.genuine found limit

/-- **The records of the set that a steady command publishes** are those of the validators handed
out. -/
theorem flatten_publishedBy (ready : Ready service) {command : Command}
    (steady : command.Steady) :
    (publishedBy mint network service command).flatten =
      (handedOutBy network service command).map fun entry => entry.2.deposit := by
  cases command with
  | change change =>
    cases change with
    | publishSet address place batch => cases steady
    | cycleSet address place limit =>
      simp only [publishedBy, vaultOfSet?, handedOutBy, outcome_cycle ready]
      by_cases here : place = network
      · subst here
        cases found : service.directory.vault? address place with
        | none => simp
        | some vault => simp [latestSet_after ready found]
      · cases service.directory.vault? address place <;> simp [here]
    | _ => rfl
  | _ => rfl

theorem flatten_publications {commands : List Command} (ready : Ready service)
    (steady : ∀ command ∈ commands, command.Steady) :
    (publications mint network service commands).flatten =
      (handouts mint network service commands).map fun entry => entry.2.deposit := by
  induction commands generalizing service with
  | nil => rfl
  | cons command rest ih =>
    have now := steady command List.mem_cons_self
    obtain ⟨next, -⟩ := ready.after mint now
    rw [publications, handouts, List.flatten_append, List.map_append, flatten_publishedBy ready now,
      ih next fun later member => steady later (List.mem_cons_of_mem _ member)]

/-! ### What is handed out -/

/-- **What is handed out in a run was not used when the run began.** -/
theorem unused_handouts {commands : List Command} (ready : Ready service)
    (steady : ∀ command ∈ commands, command.Steady) {entry : Address × Validator}
    (member : entry ∈ handouts mint network service commands) {validator : Validator}
    (held : validator ∈ service.directory.validatorsAt entry.1 network)
    (same : validator.pubkey = entry.2.pubkey) : validator.used = false := by
  induction commands generalizing service validator with
  | nil => cases member
  | cons command rest ih =>
    obtain ⟨next, steps⟩ := ready.after mint (steady command List.mem_cons_self)
    rcases List.mem_append.mp member with now | later
    · obtain ⟨-, limit, -, -, -, picked⟩ := mem_handedOutBy now
      obtain ⟨-, held', unused⟩ := mem_chosen picked
      have one : validator = entry.2 := List.inj_on_of_nodup_map
        (ready.sound.distinct entry.1 network) held held' same
      rw [one]
      exact unused
    · obtain ⟨further, there, advances⟩ := steps.advances held
      have unused := ih next (fun later member => steady later (List.mem_cons_of_mem _ member))
        later there (advances.pubkey.trans same)
      exact advances.unused unused

/-- After a set was published, every validator with a key of it is used. -/
theorem used_after (ready : Ready service) {command : Command} {entry : Address × Validator}
    (member : entry ∈ handedOutBy network service command) {address : Address}
    {validator : Validator}
    (held : validator ∈ (service.after mint command).directory.validatorsAt address network)
    (same : validator.pubkey = entry.2.pubkey) : validator.used = true := by
  obtain ⟨vault, limit, _, rfl, found, picked⟩ := mem_handedOutBy member
  rw [directory_change ready.tidy, Change.operation, outcome_map] at held
  refine used_cycled ready.sound found held ?_
  rw [same]
  exact List.mem_map.mpr ⟨entry, picked, rfl⟩

/-- What is handed out is held by its node from then on, and its record has its key. -/
theorem holds_handouts {commands : List Command} (ready : Ready service)
    (steady : ∀ command ∈ commands, command.Steady) {entry : Address × Validator}
    (member : entry ∈ handouts mint network service commands) :
    entry.2.deposit.validatorKey = .ok entry.2.pubkey ∧
      (service.continued mint commands).directory.Holds network entry.2.pubkey entry.1 := by
  induction commands generalizing service with
  | nil => cases member
  | cons command rest ih =>
    obtain ⟨next, -⟩ := ready.after mint (steady command List.mem_cons_self)
    rcases List.mem_append.mp member with now | later
    · obtain ⟨-, limit, -, -, -, picked⟩ := mem_handedOutBy now
      obtain ⟨-, held, -⟩ := mem_chosen picked
      obtain ⟨-, steps⟩ := ready.continued mint steady
      obtain ⟨last, there, advances⟩ := steps.advances held
      exact ⟨ready.sound.genuine.validatorsAt held,
        List.mem_map.mpr ⟨last, there, advances.pubkey⟩⟩
    · exact ih next (fun later member => steady later (List.mem_cons_of_mem _ member)) later

/-- **No validator of a node is handed out twice.** -/
theorem nodup_handouts (mint : Mint) (network : String) {commands : List Command}
    (ready : Ready service) (steady : ∀ command ∈ commands, command.Steady) :
    ((handouts mint network service commands).map fun entry =>
      (entry.1, entry.2.pubkey)).Nodup := by
  induction commands generalizing service with
  | nil => exact List.nodup_nil
  | cons command rest ih =>
    obtain ⟨next, steps⟩ := ready.after mint (steady command List.mem_cons_self)
    have later := fun one member => steady one (List.mem_cons_of_mem command member)
    rw [handouts, List.map_append, List.nodup_append]
    refine ⟨?_, ih next later, ?_⟩
    · unfold handedOutBy
      split
      · split
        · exact nodup_chosen ready.sound network _
        · exact List.nodup_nil
      · exact List.nodup_nil
    · -- What a cycle hands out it uses, and what is used is not handed out again.
      intro pair inside other inside' equal
      obtain ⟨entry, now, rfl⟩ := List.mem_map.mp inside
      obtain ⟨again, after, rfl⟩ := List.mem_map.mp inside'
      obtain ⟨node, key⟩ := Prod.mk.inj equal
      obtain ⟨-, _, -, -, -, picked⟩ := mem_handedOutBy now
      obtain ⟨marked, there, advances⟩ := steps.advances (mem_chosen picked).2.1
      have used := used_after ready now there advances.pubkey
      rw [node] at there
      rw [unused_handouts next later after there (advances.pubkey.trans key)] at used
      cases used

/-! ### Counting -/

/-- A set with a record for a key comes from a validator with the key. -/
theorem exists_handedOutBy (ready : Ready service) {command : Command} (steady : command.Steady)
    (published : 0 < timesPublished pubkey (publishedBy mint network service command)) :
    ∃ entry ∈ handedOutBy network service command, entry.2.pubkey = pubkey := by
  rw [timesPublished, flatten_publishedBy ready steady, List.countP_pos_iff] at published
  obtain ⟨_, inside, same⟩ := published
  obtain ⟨entry, member, rfl⟩ := List.mem_map.mp inside
  obtain ⟨-, _, -, -, -, picked⟩ := mem_handedOutBy member
  have key := ready.sound.genuine.validatorsAt (mem_chosen picked).2.1
  exact ⟨entry, member, (Deposit.pubkey_eq_bytes_iff key).mp (by simpa using same)⟩

/-- How often a key is published is how many validators with it are handed out. -/
theorem timesPublished_eq {commands : List Command} (ready : Ready service)
    (steady : ∀ command ∈ commands, command.Steady) (pubkey : Pubkey) :
    timesPublished pubkey (publications mint network service commands) =
      ((handouts mint network service commands).filter fun entry =>
        entry.2.pubkey = pubkey).length := by
  rw [timesPublished, flatten_publications ready steady, List.countP_map,
    ← List.countP_eq_length_filter]
  refine List.countP_congr fun entry member => ?_
  have key := (holds_handouts ready steady member).1
  rw [Function.comp_apply, decide_eq_true_eq, decide_eq_true_eq]
  exact Deposit.pubkey_eq_bytes_iff key

/-- **A key is published at most once for each node that is handed out for it.** -/
theorem timesPublished_le {commands : List Command} (ready : Ready service)
    (steady : ∀ command ∈ commands, command.Steady) {nodes : List Address}
    (listed : ∀ entry ∈ handouts mint network service commands, entry.2.pubkey = pubkey →
      entry.1 ∈ nodes) :
    timesPublished pubkey (publications mint network service commands) ≤ nodes.length := by
  rw [timesPublished_eq ready steady]
  have distinct := nodup_handouts mint network ready steady
  generalize handouts mint network service commands = entries at listed distinct ⊢
  have once : ((entries.filter fun entry => entry.2.pubkey = pubkey).map Prod.fst).Nodup := by
    refine List.Nodup.map_on ?_ ((List.Nodup.of_map _ distinct).filter _)
    intro entry member other member' same
    obtain ⟨inside, key⟩ := List.mem_filter.mp member
    obtain ⟨inside', key'⟩ := List.mem_filter.mp member'
    refine List.inj_on_of_nodup_map distinct inside inside' (Prod.ext same ?_)
    rw [decide_eq_true_eq] at key key'
    exact key.trans key'.symm
  rw [← List.length_map Prod.fst]
  refine (List.subperm_of_subset once fun node member => ?_).length_le
  obtain ⟨entry, inside, rfl⟩ := List.mem_map.mp member
  obtain ⟨inside, key⟩ := List.mem_filter.mp inside
  exact listed entry inside (by simpa using key)

/-- **A key is published at most once for each node that hands it in.** Let no state be brought back
or put in, and sets be published by cycles only. A network's sets then have at most as many records
for a key as there are registered nodes that hold it on the network in the end. Once a cycle has
published the key, the sets that follow have at most as many records for it as there are nodes that
hold it in the end and did not hold it after that cycle. -/
theorem timesPublished_le_holders (mint : Mint) (commands : List Command)
    (steady : ∀ command ∈ commands, command.Steady) (network : String) (pubkey : Pubkey) :
    ((played mint commands).directory.holders network pubkey).Nodup ∧
    timesPublished pubkey (publications mint network {} commands) ≤
      ((played mint commands).directory.holders network pubkey).length ∧
    ∀ earlier command later, commands = earlier ++ command :: later →
      0 < timesPublished pubkey (publishedBy mint network (played mint earlier) command) →
      timesPublished pubkey
          (publications mint network (played mint (earlier ++ [command])) later) ≤
        (((played mint commands).directory.holders network pubkey).filter fun node =>
          ¬ (played mint (earlier ++ [command])).directory.Holds network pubkey node).length := by
  have ready : ∀ {some : List Command}, (∀ command ∈ some, command.Steady) →
      Ready (played mint some) := fun steady => (ready_new.continued mint steady).1
  refine ⟨(ready steady).sound.owned.nodup_registeredAddresses.filter _, ?_, ?_⟩
  · refine timesPublished_le ready_new steady fun entry member key => ?_
    subst key
    exact mem_holders (ready steady).sound (holds_handouts ready_new steady member).2
  · rintro earlier command later rfl published
    have before := ready fun one member => steady one (List.mem_append_left _ member)
    have after : played mint (earlier ++ [command]) = (played mint earlier).after mint command :=
      List.foldl_append
    have whole : (played mint (earlier ++ [command])).continued mint later =
        played mint (earlier ++ command :: later) := by
      rw [continued, played, ← List.foldl_append, List.append_assoc, List.singleton_append]
      rfl
    have now : command.Steady := steady command (by simp)
    have next : Ready (played mint (earlier ++ [command])) := by
      rw [after]
      exact (before.after mint now).1
    have rest : ∀ one ∈ later, one.Steady := fun one member => steady one (by simp [member])
    refine timesPublished_le next rest fun entry member key => ?_
    subst key
    have holds := (holds_handouts next rest member).2
    rw [whole] at holds
    refine List.mem_filter.mpr ⟨mem_holders (ready steady).sound holds, decide_eq_true ?_⟩
    -- What the node held when the key was published is used, and so is not handed out any more.
    intro already
    obtain ⟨validator, held, same⟩ := List.mem_map.mp already
    obtain ⟨first, published, key⟩ := exists_handedOutBy before now published
    have unused := unused_handouts next rest member held same
    rw [after] at held
    rw [used_after before published held (same.trans key.symm)] at unused
    cases unused

/-! ### Two nodes with one key -/

/-- A command asks for an action, with a good signature where one is needed. -/
inductive Command.Asks : Command → Action → Prop
  | change (change : Change) : Asks (.change change) (.change change)
  | registerNode {email : String} {node : Address} {signature : Bytes}
      (signed : Signature.verifyRegistration email node signature = .ok ()) :
      Asks (.registerNode email node signature) (.registerNode email node)

theorem Command.Asks.after_alone {command : Command} {action : Action}
    (asks : command.Asks action) (mint : Mint) (state : State) (issued : Nat) :
    (alone state issued).after mint command =
      alone { state with directory := state.directory.after action } issued := by
  cases asks with
  | change change =>
    rw [Service.after, Command.operation, outcome_map, outcome_onDirectory]
    rfl
  | @registerNode email node signature signed =>
    have checked : (alone state issued).checkRegistration email node signature =
        state.directory.checkRegistration email node := by
      rw [checkRegistration, directory_alone, signed]
      cases state.directory.checkRegistration email node <;> rfl
    rw [Service.after, Command.operation, outcome_map, outcome_registerNode, checked,
      Directory.after, Action.operation, outcome_map, Directory.outcome_registerNode]
    cases state.directory.checkRegistration email node <;> rfl

/-- **Signed commands make of a new service what their actions make of an empty directory.** -/
theorem played_of_asks {commands : List Command} {actions : List Action}
    (asks : List.Forall₂ Command.Asks commands actions) (mint : Mint) :
    played mint commands = alone { directory := built actions } 0 := by
  have run : ∀ directory : Directory,
      continued (alone { directory } 0) mint commands =
        alone { directory := actions.foldl Directory.after directory } 0 := by
    induction asks with
    | nil => exact fun _ => rfl
    | @cons command action _ _ first _ ih =>
      intro directory
      rw [continued, List.foldl_cons, first.after_alone, List.foldl_cons]
      exact ih (directory.after action)
  exact run {}

/-- A user comes in with two nodes, and a vault. -/
def arrivals : List Command :=
  [.change (.addUser "a"), .change (.whitelistNode "a" Signature.firstAccount),
    .registerNode "a" Signature.firstAccount Signature.firstRegistration,
    .change (.whitelistNode "a" Signature.secondAccount),
    .registerNode "a" Signature.secondAccount Signature.secondRegistration,
    .change (.addVault (repeated 9) "n")]

/-- Both nodes hand in the same record, the second one after it was published. -/
def handedInTwice : List Command :=
  [.change (.uploadDeposits Signature.firstAccount [plainDeposit 3 (repeated 9) "n"]),
    .change (.cycleSet (repeated 9) "n" 1),
    .change (.uploadDeposits Signature.secondAccount [plainDeposit 3 (repeated 9) "n"]),
    .change (.cycleSet (repeated 9) "n" 1)]

/-- The directory after they came in. -/
def arrived : Directory :=
  built (opening "a" [Signature.firstAccount, Signature.secondAccount] "n" [repeated 9])

theorem played_arrivals (mint : Mint) :
    played mint arrivals = alone { directory := arrived } 0 := by
  refine played_of_asks ?_ mint
  exact .cons (.change _) (.cons (.change _) (.cons
    (.registerNode Signature.verifyRegistration_firstAccount) (.cons (.change _) (.cons
      (.registerNode Signature.verifyRegistration_secondAccount) (.cons (.change _) .nil)))))

theorem publications_append (mint : Mint) (network : String) (service : Service)
    (earlier later : List Command) :
    publications mint network service (earlier ++ later) =
      publications mint network service earlier ++
        publications mint network (service.continued mint earlier) later := by
  induction earlier generalizing service with
  | nil => rfl
  | cons command rest ih =>
    rw [List.cons_append, publications, publications, ih, List.append_assoc]
    rfl

theorem steady_handedInTwice : ∀ command ∈ arrivals ++ handedInTwice, command.Steady := by
  simp [arrivals, handedInTwice, Command.Steady]

/-- The record is in both sets. -/
theorem timesPublished_handedInTwice :
    timesPublished (repeated 3)
      (publications Mint.numbered "n" {} (arrivals ++ handedInTwice)) = 2 := by
  have before : publications Mint.numbered "n" {} arrivals = [] := rfl
  have after : continued {} Mint.numbered arrivals = alone { directory := arrived } 0 :=
    played_arrivals Mint.numbered
  rw [publications_append, before, after]
  decide

/-- Two nodes hold the key in the end, and it was published twice. -/
theorem timesPublished_le_holders_handedInTwice :
    (∀ command ∈ arrivals ++ handedInTwice, command.Steady) ∧
    2 ≤ ((played Mint.numbered (arrivals ++ handedInTwice)).directory.holders "n"
      (repeated 3)).length := by
  refine ⟨steady_handedInTwice, ?_⟩
  rw [← timesPublished_handedInTwice]
  exact (timesPublished_le_holders Mint.numbered (arrivals ++ handedInTwice) steady_handedInTwice
    "n" (repeated 3)).2.1

/-- A key can be published more than once. -/
theorem published_twice :
    ¬ ∀ (mint : Mint) (commands : List Command), (∀ command ∈ commands, command.Steady) →
      ∀ (network : String) (pubkey : Pubkey),
        timesPublished pubkey (publications mint network {} commands) ≤ 1 := by
  intro once
  have most := once Mint.numbered (arrivals ++ handedInTwice) steady_handedInTwice "n" (repeated 3)
  rw [timesPublished_handedInTwice] at most
  omega

end Service

end StakingDirectory
