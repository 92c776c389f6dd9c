/-
**Nothing is lost as long as no version is brought back.**

* `Session.Grows` says what a session can have become, and `State.Grows` collects this for the
  sessions with what a directory can have become;
* `Proceeds` says once what a forward command can do to the service, and under which conditions;
  every forward command comes down to this in turn (`leadsTo_after`), and it keeps what is there
  (`LeadsTo.grows`);
* `publishesFor` are the commands that publish a set for a vault. Its version counts them
  (`latestIndex_continued`);
* `live_grows`: in a run of forward commands, nothing of the live state is lost, and the version of
  a vault does not decrease as long as the count stays within its 64 bits.
-/

import StakingDirectory.Proofs.Directory.Extension
import StakingDirectory.Proofs.Service.Publication

namespace StakingDirectory

/-! ### Sessions -/

/-- What a session can have become. -/
structure Session.Grows (before after : Session) : Prop where
  token : after.token = before.token
  nonce : after.nonce = before.nonce
  /-- Once it is logged in, a session stays as it is. -/
  settled : before.loggedIn = true → after = before

theorem Session.Grows.refl (session : Session) : Grows session session :=
  ⟨rfl, rfl, fun _ => rfl⟩

theorem Session.Grows.trans {first second third : Session} (earlier : Grows first second)
    (later : Grows second third) : Grows first third where
  token := later.token.trans earlier.token
  nonce := later.nonce.trans earlier.nonce
  settled loggedIn := by
    have same := earlier.settled loggedIn
    rw [later.settled (same ▸ loggedIn), same]

theorem Session.grows_withNode {session : Session} (waiting : session.loggedIn = false)
    (node : Address) : Grows session (session.withNode node) where
  token := rfl
  nonce := rfl
  settled loggedIn := by
    rw [waiting] at loggedIn
    cases loggedIn

namespace Sessions

variable {sessions : Sessions}

/-- Sessions stay at their places. -/
def Grows (before after : Sessions) : Prop :=
  Stays Session.Grows (fun place : Nat => before.list[place]?) fun place => after.list[place]?

theorem Grows.refl (sessions : Sessions) : Grows sessions sessions :=
  .of_eq Session.Grows.refl fun _ => rfl

theorem Grows.trans {first second third : Sessions} (earlier : Grows first second)
    (later : Grows second third) : Grows first third :=
  Stays.trans Session.Grows.trans earlier later

theorem grows_withBegun (sessions : Sessions) (token : String) :
    Grows sessions (sessions.withBegun token) :=
  stays_append Session.Grows.refl sessions.list _

theorem grows_withLogin {place : Nat} {session : Session}
    (there : sessions.list[place]? = some session) (waiting : session.loggedIn = false)
    (node : Address) : Grows sessions (sessions.withLogin place session node) := by
  intro position other found
  obtain ⟨inside, -⟩ := List.getElem?_eq_some_iff.mp there
  show ∃ later, (sessions.list.set place (session.withNode node))[position]? = some later ∧ _
  rw [List.getElem?_set]
  by_cases here : place = position
  · subst here
    obtain rfl : session = other := Option.some.inj (there.symm.trans found)
    rw [if_pos rfl, if_pos inside]
    exact ⟨_, rfl, Session.grows_withNode waiting node⟩
  · rw [if_neg here]
    exact ⟨other, found, .refl other⟩

end Sessions

/-- **What a state can have become.** -/
structure State.Grows (before after : State) : Prop where
  directory : before.directory.Grows after.directory
  sessions : before.sessions.Grows after.sessions

theorem State.Grows.refl (state : State) : Grows state state :=
  ⟨.refl _, .refl _⟩

theorem State.Grows.trans {first second third : State} (earlier : Grows first second)
    (later : Grows second third) : Grows first third :=
  ⟨earlier.directory.trans later.directory, earlier.sessions.trans later.sessions⟩

namespace Service

open Operation Directory

variable {mint : Mint} {service next : Service} {α : Type}

/-! ### Going forward -/

/-- What a forward command can do to the service. -/
inductive Proceeds (mint : Mint) (service : Service) : Service → Prop
  | directory {next : Directory} (steps : Directory.Steps service.directory next) :
      Proceeds mint service (service.withState { service.live with directory := next })
  | begin :
      Proceeds mint service
        { archive := service.archive.withLive
            { service.live with sessions := service.live.sessions.withBegun (mint service.issued) }
          issued := service.issued + 1 }
  | login {place : Nat} {session : Session} (node : Address)
      (there : service.live.sessions.list[place]? = some session)
      (waiting : session.loggedIn = false) :
      Proceeds mint service (service.withState
        { service.live with sessions := service.live.sessions.withLogin place session node })
  | snapshot (name : String) : Proceeds mint service (service.takeSnapshot name)

/-- What forward commands in turn can do to the service. -/
abbrev LeadsTo (mint : Mint) : Service → Service → Prop := Relation.ReflTransGen (Proceeds mint)

theorem Proceeds.tidy (proceeds : Proceeds mint service next)
    (tidy : service.archive.Tidy none) : next.archive.Tidy none := by
  cases proceeds with
  | directory | begin | login => exact Archive.tidy_withLive tidy _
  | snapshot name => exact Archive.tidy_take tidy name

theorem Proceeds.grows (proceeds : Proceeds mint service next)
    (tidy : service.archive.Tidy none) : service.live.Grows next.live := by
  cases proceeds with
  | directory steps =>
    rw [live_withState tidy]
    exact ⟨steps.grows, .refl _⟩
  | begin =>
    show State.Grows _ (service.archive.withLive _).liveState
    rw [Archive.liveState_withLive tidy]
    exact ⟨.refl _, Sessions.grows_withBegun _ _⟩
  | login node there waiting =>
    rw [live_withState tidy]
    exact ⟨.refl _, Sessions.grows_withLogin there waiting node⟩
  | snapshot name =>
    rw [live_takeSnapshot tidy]
    exact .refl _

/-- **Going forward keeps the archive tidy and what is in the live state.** -/
theorem LeadsTo.grows (leads : LeadsTo mint service next) (tidy : service.archive.Tidy none) :
    next.archive.Tidy none ∧ service.live.Grows next.live := by
  induction leads with
  | refl => exact ⟨tidy, .refl _⟩
  | tail _ last ih => exact ⟨last.tidy ih.1, ih.2.trans (last.grows ih.1)⟩

/-! ### Forward commands -/

theorem leadsTo_onDirectory {operation : Operation Directory α}
    (steps : ∀ directory, Steps directory (operation.outcome directory).2) (service : Service) :
    LeadsTo mint service ((onDirectory operation).outcome service).2 := by
  rw [outcome_onDirectory]
  exact .single (.directory (steps service.directory))

theorem leadsTo_onLogin (token nonce : String) (node : Address) (service : Service) :
    LeadsTo mint service ((onLive (loginLive token nonce node)).outcome service).2 := by
  rw [outcome_onLive, outcome_loginLive]
  cases passed : service.live.checkLogin token nonce node with
  | error refusal =>
    rw [settled_error, withState_live]
  | ok value =>
    obtain ⟨session, place, found⟩ := value
    obtain ⟨-, -, checked⟩ := State.checkLogin_eq_ok.mp passed
    obtain ⟨-, there, waiting, -⟩ := Sessions.checkLogin_eq_ok.mp checked
    exact .single (.login node there waiting)

theorem leadsTo_demandSignature (check : Except Signature.Fault Unit)
    {operation : Operation Service α}
    (leads : LeadsTo mint service (operation.outcome service).2) :
    LeadsTo mint service ((do demandSignature check; operation).outcome service).2 := by
  rw [outcome_bind, outcome_demandSignature]
  cases checkSigned check with
  | ok value => exact leads
  | error refusal => exact .refl

/-- **Every forward command goes forward**, whether it succeeds or is refused. -/
theorem leadsTo_after (mint : Mint) (service : Service) {command : Command}
    (forward : command.Forward) : LeadsTo mint service (service.after mint command) := by
  unfold after
  cases command with
  | change change =>
    rw [Command.operation, outcome_map]
    exact leadsTo_onDirectory (steps_change change) service
  | registerNode email node signature =>
    rw [Command.operation, outcome_map, registerNode, outcome_bind, outcome_get]
    dsimp only
    rw [outcome_bind, outcome_demand]
    cases service.directory.checkRegistration email node with
    | error refusal => exact .refl
    | ok position =>
      exact leadsTo_demandSignature _
        (leadsTo_onDirectory (steps_registerNode email node) service)
  | createSession => exact .single .begin
  | login token nonce node signature =>
    rw [Command.operation, outcome_map]
    exact leadsTo_demandSignature _ (leadsTo_onLogin token nonce node service)
  | takeSnapshot name => exact .single (.snapshot name)
  | revertToSnapshot | setState | restart => cases forward

theorem leadsTo_continued (mint : Mint) (service : Service) {commands : List Command}
    (forward : ∀ command ∈ commands, command.Forward) :
    LeadsTo mint service (service.continued mint commands) := by
  induction commands generalizing service with
  | nil => exact .refl
  | cons command rest ih =>
    exact (leadsTo_after mint service (forward command List.mem_cons_self)).trans
      (ih _ fun later member => forward later (List.mem_cons_of_mem _ member))

/-! ### Versions of published sets -/

variable {address : Address} {network : String} {directory after : Directory} {vault : Vault}

/-- The vault at an address on a network stays, with the set that is published for it. -/
def KeepsSet (address : Address) (network : String) (before after : Directory) : Prop :=
  ∀ vault, before.vault? address network = some vault →
    ∃ later, after.vault? address network = some later ∧
      later.latestIndex = vault.latestIndex ∧ later.latestSet = vault.latestSet

/-- What can happen at an address on a network while no set is published for it. -/
inductive Undisturbed (address : Address) (network : String) : Option Vault → Option Vault → Prop
  | same (vault : Option Vault) : Undisturbed address network vault vault
  | added : Undisturbed address network none (some { address, network })
  | handed (vault : Vault) (pubkeys : List Pubkey) :
      Undisturbed address network (some vault) (some (vault.withUploaded pubkeys))

/-- **A set is published for one vault only.** -/
theorem vault?_change {change : Change} (elsewhere : vaultOfSet? change ≠ some (address, network))
    (directory : Directory) :
    Undisturbed address network (directory.vault? address network)
      ((change.operation.outcome directory).2.vault? address network) := by
  have quiet : ∀ {after : Directory}, after.vaults = directory.vaults →
      Undisturbed address network (directory.vault? address network)
        (after.vault? address network) := by
    intro after same
    rw [vault?_congr same]
    exact .same _
  refine after_cases (P := fun after : Directory => Undisturbed address network
    (directory.vault? address network) (after.vault? address network)) directory (.change change)
    (.same _) fun makes => ?_
  cases makes with
  | addUser | whitelistNode | whitelistAgain | uploadDeposits | uploadExits => exact quiet rfl
  | markActive other place batch pubkeys =>
    exact quiet (onlyNodes_withActive directory place pubkeys).vaults
  | addVault other place fresh =>
    rw [vault?_withNewVault]
    split
    · rename_i here
      obtain ⟨rfl, rfl⟩ := here
      rw [fresh]
      exact .added
    · exact .same _
  | handToVault other place batch pubkeys old keys there =>
    rw [vault?_withVault there]
    split
    · rename_i here
      obtain ⟨rfl, rfl⟩ := here
      rw [there]
      exact .handed old pubkeys
    · exact .same _
  | publishSet other place batch pubkeys old there =>
    have apart : ¬ (other = address ∧ place = network) :=
      fun both => elsewhere (congrArg some (Prod.ext both.1 both.2))
    rw [vault?_withPublished there, if_neg apart]
    exact .same _
  | cycleSet other place limit pubkeys old there =>
    have apart : ¬ (other = address ∧ place = network) :=
      fun both => elsewhere (congrArg some (Prod.ext both.1 both.2))
    rw [vault?_withCycled there, if_neg apart]
    exact .same _

theorem keepsSet_change {change : Change} (elsewhere : vaultOfSet? change ≠ some (address, network))
    (directory : Directory) :
    KeepsSet address network directory (change.operation.outcome directory).2 := by
  intro vault found
  have happened := vault?_change elsewhere directory
  rw [found] at happened
  generalize (change.operation.outcome directory).2.vault? address network = there
    at happened ⊢
  cases happened with
  | same => exact ⟨vault, rfl, rfl, rfl⟩
  | handed _ pubkeys => exact ⟨_, rfl, rfl, rfl⟩

/-- Whether a change publishes a set for a vault, and is not refused. -/
def publishes (address : Address) (network : String) (directory : Directory)
    (change : Change) : Bool :=
  vaultOfSet? change = some (address, network) && (change.operation.outcome directory).1.isOk

/-- A checked change that raises the version by one, where it is made. -/
theorem latestIndex_settled {β : Type} {check : Except Refusal α} {change : α → β × Directory}
    (found : directory.vault? address network = some vault)
    (raised : ∀ value, check = .ok value → ∃ later,
      (change value).2.vault? address network = some later ∧
        later.latestIndex = vault.latestIndex + 1) :
    ∃ later, (settled check change directory).2.vault? address network = some later ∧
      later.latestIndex =
        vault.latestIndex + if (settled check change directory).1.isOk then 1 else 0 := by
  cases check with
  | error refusal => exact ⟨vault, found, (UInt64.add_zero _).symm⟩
  | ok value => exact raised value rfl

/-- **The version of a vault counts the sets that are published for it.** -/
theorem latestIndex_change (change : Change)
    (found : directory.vault? address network = some vault) :
    ∃ later, (change.operation.outcome directory).2.vault? address network = some later ∧
      later.latestIndex =
        vault.latestIndex + if publishes address network directory change then 1 else 0 := by
  by_cases aimed : vaultOfSet? change = some (address, network)
  · rw [publishes, decide_eq_true aimed, Bool.true_and]
    cases change with
    | publishSet other place batch =>
      cases aimed
      rw [Change.operation, outcome_map, isOk_map, outcome_publishSet]
      refine latestIndex_settled found ?_
      rintro ⟨old, pubkeys⟩ passed
      obtain ⟨there, -⟩ := checkBatch_eq_ok.mp passed
      obtain rfl : old = vault := Option.some.inj (there.symm.trans found)
      exact ⟨_, (vault?_withPublished there _ _ _ _ _).trans (if_pos ⟨rfl, rfl⟩), rfl⟩
    | cycleSet other place limit =>
      cases aimed
      rw [Change.operation, outcome_map, isOk_map, outcome_cycleSet]
      refine latestIndex_settled found ?_
      rintro ⟨old, pubkeys⟩ passed
      obtain ⟨there, -⟩ := checkBatch_eq_ok.mp passed
      obtain rfl : old = vault := Option.some.inj (there.symm.trans found)
      exact ⟨_, (vault?_withCycled there _ _ _ _ _).trans (if_pos ⟨rfl, rfl⟩), rfl⟩
    | _ => cases aimed
  · obtain ⟨later, there, same, -⟩ := keepsSet_change aimed directory vault found
    refine ⟨later, there, ?_⟩
    rw [publishes, decide_eq_false aimed]
    simpa using same

/-- Whether a command publishes a set for a vault, and is not refused. -/
def Command.publishesFor (address : Address) (network : String) (directory : Directory) :
    Command → Bool
  | .change wanted => publishes address network directory wanted
  | _ => false

/-- How many sets commands in turn publish for a vault. -/
def timesPublishedFor (mint : Mint) (address : Address) (network : String) :
    Service → List Command → Nat
  | _, [] => 0
  | service, command :: rest =>
    (if command.publishesFor address network service.directory then 1 else 0) +
      timesPublishedFor mint address network (service.after mint command) rest

/-- Only changes of the directory do anything to vaults. -/
theorem vaults_after (mint : Mint) (tidy : service.archive.Tidy none) {command : Command}
    (forward : command.Forward) (other : ∀ change, command ≠ .change change) :
    (service.after mint command).directory.vaults = service.directory.vaults := by
  cases command with
  | change change => exact absurd rfl (other change)
  | registerNode email node signature =>
    rw [after, Command.operation, outcome_map, outcome_registerNode]
    refine settled_state (P := fun next : Service =>
      next.directory.vaults = service.directory.vaults) rfl fun position _ => ?_
    rw [directory_withState tidy]
    rfl
  | createSession => exact congrArg Directory.vaults (directory_withState tidy _)
  | login token nonce node signature =>
    rw [after, Command.operation, outcome_map, outcome_login]
    refine settled_state (P := fun next : Service =>
      next.directory.vaults = service.directory.vaults) rfl fun _ _ => ?_
    rw [directory_withState tidy]
    rfl
  | takeSnapshot name =>
    exact congrArg (fun state => state.directory.vaults) (live_takeSnapshot tidy name)
  | revertToSnapshot | setState | restart => cases forward

theorem latestIndex_after (mint : Mint) (tidy : service.archive.Tidy none) {command : Command}
    (forward : command.Forward) (found : service.directory.vault? address network = some vault) :
    ∃ later, (service.after mint command).directory.vault? address network = some later ∧
      later.latestIndex = vault.latestIndex +
        if command.publishesFor address network service.directory then 1 else 0 := by
  cases command with
  | change change =>
    rw [directory_change tidy]
    exact latestIndex_change change found
  | _ =>
    have same := vaults_after mint tidy forward (fun _ => nofun)
    exact ⟨vault, (vault?_congr same address network).trans found, (UInt64.add_zero _).symm⟩

/-- **The version of a vault counts the sets that a run publishes for it**, in 64 bits. -/
theorem latestIndex_continued (mint : Mint) {commands : List Command}
    (tidy : service.archive.Tidy none) (forward : ∀ command ∈ commands, command.Forward)
    (found : service.directory.vault? address network = some vault) :
    ∃ later, (service.continued mint commands).directory.vault? address network = some later ∧
      later.latestIndex = vault.latestIndex +
        .ofNat (timesPublishedFor mint address network service commands) := by
  induction commands generalizing service vault with
  | nil => exact ⟨vault, found, (UInt64.add_zero _).symm⟩
  | cons command rest ih =>
    have now := forward command List.mem_cons_self
    obtain ⟨next, there, counted⟩ := latestIndex_after mint tidy now found
    obtain ⟨later, last, further⟩ := ih (tidy_after mint tidy command)
      (fun one member => forward one (List.mem_cons_of_mem _ member)) there
    refine ⟨later, last, ?_⟩
    rw [further, counted, timesPublishedFor, UInt64.ofNat_add, UInt64.add_assoc]
    split <;> rfl

/-! ### Runs -/

/-- **As long as no version is brought back and no state is put in, nothing is lost.** After any
run, let forward commands follow. Users then stay at their places, nodes at their addresses, vaults
on their networks, validators and sessions at their places, and have become what they may become.
The version of a vault does not decrease as long as it has room for the sets that are published. -/
theorem live_grows (mint : Mint) (earlier commands : List Command)
    (forward : ∀ command ∈ commands, command.Forward) :
    (played mint earlier).live.Grows (played mint (earlier ++ commands)).live ∧
    ∀ (address : Address) (network : String) (vault : Vault),
      (played mint earlier).directory.vault? address network = some vault →
      vault.latestIndex.toNat +
        timesPublishedFor mint address network (played mint earlier) commands < UInt64.size →
      ∃ later,
        (played mint (earlier ++ commands)).directory.vault? address network = some later ∧
          vault.latestIndex ≤ later.latestIndex := by
  have tidy := tidy_played mint earlier
  have run : played mint (earlier ++ commands) = (played mint earlier).continued mint commands :=
    List.foldl_append
  rw [run]
  refine ⟨((leadsTo_continued mint _ forward).grows tidy).2, ?_⟩
  intro address network vault found room
  obtain ⟨later, there, counted⟩ := latestIndex_continued mint tidy forward found
  refine ⟨later, there, ?_⟩
  rw [counted, UInt64.le_iff_toNat_le, UInt64.toNat_add, UInt64.toNat_ofNat']
  unfold UInt64.size at room
  omega

/-- After the first cycle the vault is at version 1, and there is one more set to come. -/
theorem live_grows_handedInTwice :
    (∀ command ∈ handedInTwice.drop 2, command.Forward) ∧
    (played Mint.numbered (arrivals ++ handedInTwice.take 2)).live.Grows
      (played Mint.numbered (arrivals ++ handedInTwice.take 2 ++ handedInTwice.drop 2)).live ∧
    ∃ vault later,
      (played Mint.numbered (arrivals ++ handedInTwice.take 2)).directory.vault? (repeated 9) "n" =
        some vault ∧
      vault.latestIndex.toNat + timesPublishedFor Mint.numbered (repeated 9) "n"
        (played Mint.numbered (arrivals ++ handedInTwice.take 2)) (handedInTwice.drop 2) = 1 + 1 ∧
      (played Mint.numbered
          (arrivals ++ handedInTwice.take 2 ++ handedInTwice.drop 2)).directory.vault?
        (repeated 9) "n" = some later ∧
      vault.latestIndex ≤ later.latestIndex := by
  have forward : ∀ command ∈ handedInTwice.drop 2, command.Forward := by
    simp [handedInTwice, Command.Forward]
  have start : played Mint.numbered (arrivals ++ handedInTwice.take 2) =
      (alone { directory := arrived } 0).continued Mint.numbered (handedInTwice.take 2) := by
    rw [← played_arrivals Mint.numbered]
    exact List.foldl_append
  obtain ⟨vault, found, room⟩ : ∃ vault,
      (played Mint.numbered (arrivals ++ handedInTwice.take 2)).directory.vault? (repeated 9) "n" =
        some vault ∧
      vault.latestIndex.toNat + timesPublishedFor Mint.numbered (repeated 9) "n"
        (played Mint.numbered (arrivals ++ handedInTwice.take 2)) (handedInTwice.drop 2) =
          1 + 1 := by
    rw [start]
    refine ⟨_, Option.eq_some_of_isSome (by decide), ?_⟩
    decide
  obtain ⟨grows, versions⟩ :=
    live_grows Mint.numbered (arrivals ++ handedInTwice.take 2) (handedInTwice.drop 2) forward
  obtain ⟨later, there, most⟩ := versions _ _ vault found (by rw [room]; decide)
  exact ⟨forward, grows, vault, later, found, room, there, most⟩

end Service

end StakingDirectory
