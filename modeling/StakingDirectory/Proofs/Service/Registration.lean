/-
**Registered nodes signed for the email that owns them.**

* `CarriedOut` says at which moment of a run a command was carried out;
* `Entered`, `Listed` and `Signed` are the three moments by which a node comes to be registered,
  each after the one before: its owner was added, the owner was given its address, and the node
  signed for the owner's email;
* `Enrolled` is what the users and nodes of a directory owe to the run. Only three kinds of commands
  touch who owns what (`sameStanding_change`), and each of them brings the moment it owes
  (`enrolled_step`);
* `registered_signed`: hence every registered node of every retained state went through all three.
-/

import StakingDirectory.Proofs.Directory.Ownership
import StakingDirectory.Proofs.Service.Admission
import StakingDirectory.Proofs.Service.Run

namespace StakingDirectory

open Operation

namespace Directory

/-- Adds no user, and gives no address to one. -/
def Change.KeepsStanding : Change → Prop
  | .addUser _ | .whitelistNode _ _ => False
  | _ => True

/-- **Only new users and new addresses change the standing of nodes**, among the changes that need
no signature. -/
theorem sameStanding_change {change : Change} (keeps : change.KeepsStanding)
    (directory : Directory) : SameStanding directory (change.operation.outcome directory).2 := by
  refine after_cases (P := SameStanding directory) directory (.change change) (.refl directory)
    fun makes => ?_
  cases makes with
  | addUser | whitelistNode | whitelistAgain => cases keeps
  | addVault | handToVault => exact sameStanding_vaults directory _
  | uploadDeposits address node batch pubkeys found =>
    exact sameStanding_withNode found (standing_acceptDeposits _ _)
  | uploadExits address network node batch pubkeys found =>
    exact sameStanding_withNode found rfl
  | publishSet address network =>
    exact (sameStanding_withUsed directory network _).trans (sameStanding_vaults _ _)
  | markActive address network batch pubkeys =>
    exact sameStanding_withActive directory network pubkeys
  | cycleSet address network =>
    exact ((sameStanding_vaults directory _).trans (sameStanding_withUsed _ network _)).trans
      (sameStanding_vaults _ _)

end Directory

namespace Service

open Directory

variable {mint : Mint} {commands : List Command} {directory : Directory}

/-! ### Moments of a run -/

/-- After some commands of a run, this one was carried out. -/
def CarriedOut (mint : Mint) (before : List Command) (command : Command)
    (commands : List Command) : Prop :=
  before ++ [command] <+: commands ∧
    ((command.operation mint).outcome (played mint before)).1.isOk = true

/-- The email was added as a user. -/
def Entered (mint : Mint) (commands : List Command) (email : String) : Prop :=
  ∃ before, CarriedOut mint before (.change (.addUser email)) commands

/-- The email was added, and was then given an address. -/
def Listed (mint : Mint) (commands : List Command) (email : String) (address : Address) : Prop :=
  ∃ before, Entered mint before email ∧
    CarriedOut mint before (.change (.whitelistNode email address)) commands

/-- The email was given an address, which then signed for it. -/
def Signed (mint : Mint) (commands : List Command) (email : String) (address : Address) : Prop :=
  ∃ before signature, Listed mint before email address ∧
    CarriedOut mint before (.registerNode email address signature) commands ∧
    Signature.recoverAddress signature (Bytes.ofText (Signature.registrationText email address)) =
      .ok address

theorem CarriedOut.mono {before earlier : List Command} {command : Command}
    (carried : CarriedOut mint before command earlier) (first : earlier <+: commands) :
    CarriedOut mint before command commands :=
  ⟨carried.1.trans first, carried.2⟩

theorem carriedOut_last {command : Command}
    (passed : ((command.operation mint).outcome (played mint commands)).1.isOk = true) :
    CarriedOut mint commands command (commands ++ [command]) :=
  ⟨List.prefix_rfl, passed⟩

/-- A change succeeds as it does for the directory. -/
theorem isOk_change (service : Service) (change : Change) :
    (((Command.change change).operation mint).outcome service).1.isOk =
      (change.operation.outcome service.directory).1.isOk := by
  rw [Command.operation, outcome_map, outcome_onDirectory, isOk_map]

/-! ### The invariant -/

/-- **Every user was added, every node was given to its owner, and registered nodes signed.** -/
structure Enrolled (mint : Mint) (commands : List Command) (directory : Directory) : Prop where
  entered : ∀ {email : String} {position : Nat}, directory.userIndex[email]? = some position →
    Entered mint commands email
  listed : ∀ {address other : Address} {owner : String} {registered : Bool},
    directory.standing? address = some (other, owner, registered) →
      Listed mint commands owner address
  signed : ∀ {address other : Address} {owner : String},
    directory.standing? address = some (other, owner, true) → Signed mint commands owner address

theorem enrolled_empty : Enrolled mint commands {} where
  entered found := by simp at found
  listed found := by simp [standing?, node?] at found
  signed found := by simp [standing?, node?] at found

/-- What a run enrolled, a longer one has enrolled. -/
theorem Enrolled.mono {earlier : List Command} (enrolled : Enrolled mint earlier directory)
    (first : earlier <+: commands) : Enrolled mint commands directory where
  entered found := by
    obtain ⟨before, carried⟩ := enrolled.entered found
    exact ⟨before, carried.mono first⟩
  listed found := by
    obtain ⟨before, entered, carried⟩ := enrolled.listed found
    exact ⟨before, entered, carried.mono first⟩
  signed found := by
    obtain ⟨before, signature, listed, carried, recovered⟩ := enrolled.signed found
    exact ⟨before, signature, listed, carried.mono first, recovered⟩

theorem Enrolled.congr {next : Directory} (enrolled : Enrolled mint commands directory)
    (same : SameStanding directory next) : Enrolled mint commands next where
  entered found := enrolled.entered (same.userIndex ▸ found)
  listed found := enrolled.listed (same.nodes _ ▸ found)
  signed found := enrolled.signed (same.nodes _ ▸ found)

theorem Enrolled.withUser (enrolled : Enrolled mint commands directory) {email : String}
    (entered : Entered mint commands email) :
    Enrolled mint commands (directory.withUser email) where
  entered := by
    intro other position found
    simp only [Directory.withUser, Std.ExtTreeMap.getElem?_insert,
      Std.LawfulEqCmp.compare_eq_iff_eq] at found
    split at found
    · rename_i same
      exact same ▸ entered
    · exact enrolled.entered found
  listed := enrolled.listed
  signed := enrolled.signed

theorem Enrolled.withWhitelisted (enrolled : Enrolled mint commands directory) {email : String}
    {address : Address} (listed : Listed mint commands email address) (position : Nat) :
    Enrolled mint commands (directory.withWhitelisted email address position) where
  entered := enrolled.entered
  listed := by
    intro other _ owner registered found
    rw [standing?_withWhitelisted] at found
    split at found
    · rename_i same
      cases found
      exact same ▸ listed
    · exact enrolled.listed found
  signed := by
    intro other _ owner found
    rw [standing?_withWhitelisted] at found
    split at found
    · cases found
    · exact enrolled.signed found

theorem Enrolled.withRegistered (enrolled : Enrolled mint commands directory) {address : Address}
    {node : Node} (found : directory.node? address = some node)
    (signed : Signed mint commands node.owner address) (position : Nat) :
    Enrolled mint commands (directory.withRegistered address position) where
  entered := enrolled.entered
  listed := by
    intro other _ owner registered standing
    rw [standing?_withRegistered found] at standing
    split at standing
    · rename_i same
      cases standing
      exact same ▸ enrolled.listed (standing?_of_node? found)
    · exact enrolled.listed standing
  signed := by
    intro other _ owner standing
    rw [standing?_withRegistered found] at standing
    split at standing
    · rename_i same
      cases standing
      exact same ▸ signed
    · exact enrolled.signed standing

/-! ### Steps and runs -/

/-- **Every change brings the moment that it owes.** -/
theorem enrolled_change {service : Service} (played_eq : played mint commands = service)
    (enrolled : Enrolled mint commands service.directory) (change : Change) :
    Enrolled mint (commands ++ [.change change])
      (change.operation.outcome service.directory).2 := by
  have before : Enrolled mint (commands ++ [.change change]) service.directory :=
    enrolled.mono (List.prefix_append _ _)
  have carried : (change.operation.outcome service.directory).1.isOk = true →
      CarriedOut mint commands (.change change) (commands ++ [.change change]) := fun passed =>
    carriedOut_last (by rw [played_eq, isOk_change, passed])
  cases change with
  | addUser email =>
    simp only [Change.operation, outcome_map, outcome_addUser] at carried ⊢
    by_cases known : service.directory.userIndex.contains email = true
    · rw [if_pos known]
      exact before
    · rw [if_neg known] at carried ⊢
      exact before.withUser ⟨commands, carried rfl⟩
  | whitelistNode email address =>
    simp only [Change.operation, outcome_map, outcome_whitelistNode] at carried ⊢
    cases passed : service.directory.checkWhitelisting email address with
    | error refusal => exact before
    | ok value =>
      obtain ⟨position, free⟩ := value
      rw [passed] at carried
      obtain ⟨known, -⟩ := checkWhitelisting_eq_ok.mp passed
      cases free with
      | false => exact before
      | true =>
        exact before.withWhitelisted ⟨commands, enrolled.entered known, carried rfl⟩ position
  | addVault | uploadDeposits | uploadExits | handToVault | publishSet | markActive | cycleSet =>
    refine before.congr (sameStanding_change ?_ service.directory)
    trivial

/-- **Every forward command keeps users and nodes enrolled.** -/
theorem enrolled_step {command : Command} (forward : command.Forward)
    (enrolled : Enrolled mint commands (played mint commands).live.directory) :
    Enrolled mint (commands ++ [command])
      ((played mint commands).after mint command).live.directory := by
  have before : Enrolled mint (commands ++ [command]) (played mint commands).live.directory :=
    enrolled.mono (List.prefix_append _ _)
  have tidy := tidy_played mint commands
  generalize service_eq : played mint commands = service at enrolled before tidy ⊢
  cases command with
  | change change =>
    show Enrolled mint _ (service.after mint (.change change)).directory
    rw [directory_change tidy]
    exact enrolled_change service_eq enrolled change
  | registerNode email address signature =>
    have succeeds := outcome_registerNode email address signature service
    simp only [after, Command.operation, outcome_map, succeeds]
    cases passed : service.checkRegistration email address signature with
    | error refusal => exact before
    | ok position =>
      rw [passed] at succeeds
      obtain ⟨place, allowed, rest⟩ := bind_eq_ok.mp passed
      obtain ⟨_, accepted, -⟩ := bind_eq_ok.mp rest
      obtain ⟨-, node, found, -, rfl⟩ := checkRegistration_eq_ok.mp allowed
      rw [settled_ok, live_withState tidy]
      refine before.withRegistered found ⟨commands, signature,
        enrolled.listed (standing?_of_node? found), carriedOut_last ?_,
        Signature.verify_eq_ok.mp (checkSigned_eq_ok.mp accepted)⟩ position
      rw [service_eq, Command.operation, outcome_map, succeeds]
      rfl
  | createSession =>
    show Enrolled mint _ (service.withState _).live.directory
    rw [live_withState tidy]
    exact before
  | login token nonce node signature =>
    simp only [after, Command.operation, outcome_map, outcome_login]
    refine settled_state (P := fun next : Service => Enrolled mint _ next.live.directory) before
      fun _ _ => ?_
    rw [live_withState tidy]
    exact before
  | takeSnapshot name =>
    show Enrolled mint _ (service.takeSnapshot name).live.directory
    rw [live_takeSnapshot tidy]
    exact before
  | revertToSnapshot | setState | restart => cases forward

/-- **Whole runs keep the users and nodes of all retained states enrolled.** -/
theorem enrolled_played (replays : Replays mint commands) :
    (played mint commands).archive.Every fun state => Enrolled mint commands state.directory :=
  every_run (P := fun earlier state => Enrolled mint earlier state.directory) replays enrolled_empty
    (fun first enrolled => enrolled.mono first) fun _ _ _ => enrolled_step

/-- **Registered nodes signed for the email that owns them.** Let no state be put in but empty ones
and copies of earlier live states. Then for every registered node of the live state, or of the state
of any name, its owner was added as a user, was given the address of the node later, and the node
was registered still later upon a signature of this very email and address that leads back to it. -/
theorem registered_signed (mint : Mint) (commands : List Command)
    (replays : Replays mint commands) (state : State)
    (retained : state = (played mint commands).live ∨
      ∃ name, (played mint commands).archive.state? name = some state)
    (address : Address) (node : Node) (found : state.directory.node? address = some node)
    (registered : node.registered = true) :
    ∃ (entering listing signing : List Command) (signature : Bytes),
      CarriedOut mint entering (.change (.addUser node.owner)) listing ∧
      CarriedOut mint listing (.change (.whitelistNode node.owner address)) signing ∧
      CarriedOut mint signing (.registerNode node.owner address signature) commands ∧
      Signature.recoverAddress signature
        (Bytes.ofText (Signature.registrationText node.owner address)) = .ok address := by
  have enrolled := (enrolled_played replays).of_retained retained
  have standing : state.directory.standing? address = some (node.address, node.owner, true) := by
    rw [standing?_of_node? found, Node.standing, registered]
  obtain ⟨signing, signature, ⟨listing, ⟨entering, entered⟩, listed⟩, signed, recovered⟩ :=
    enrolled.signed standing
  exact ⟨entering, listing, signing, signature, entered, listed, signed, recovered⟩

/-- The account of the secret key 1 is registered, and is left in a version only. -/
def keptRun : List Command :=
  [.change (.addUser "a"), .change (.whitelistNode "a" Signature.firstAccount),
    .registerNode "a" Signature.firstAccount Signature.firstRegistration, .takeSnapshot "kept",
    .setState {}]

theorem played_keptRun (mint : Mint) : played mint keptRun =
    ((alone { directory := admitted "a" Signature.firstAccount } 0).takeSnapshot "kept").setState
      {} := by
  have snapshot : ∀ service : Service, service.after mint (.takeSnapshot "kept") =
      service.takeSnapshot "kept" := fun _ => rfl
  have put : ∀ service : Service, service.after mint (.setState {}) = service.setState {} :=
    fun _ => rfl
  show (((((alone {} 0).after mint _).after mint _).after mint _).after mint _).after mint _ = _
  rw [after_addUser, after_whitelisting,
    after_registration Signature.verifyRegistration_firstAccount, snapshot, put]

theorem state?_keptRun (mint : Mint) : (played mint keptRun).archive.state? "kept" =
    some { directory := admitted "a" Signature.firstAccount } := by
  have tidy : (Archive.ofState
      ({ directory := admitted "a" Signature.firstAccount } : State)).Tidy none :=
    Archive.tidy_ofState _
  rw [played_keptRun, setState, takeSnapshot, alone,
    Archive.state?_replace (Archive.tidy_take tidy "kept"), Archive.state?_take tidy, if_pos rfl]
  rfl

/-- The node of the version signed, although the live state is empty. -/
theorem registered_signed_keptRun :
    Replays .numbered keptRun ∧
    (played .numbered keptRun).archive.state? "kept" =
      some { directory := admitted "a" Signature.firstAccount } ∧
    (admitted "a" Signature.firstAccount).node? Signature.firstAccount =
      some { address := Signature.firstAccount, owner := "a", registered := true } ∧
    ∃ (entering listing signing : List Command) (signature : Bytes),
      CarriedOut .numbered entering (.change (.addUser "a")) listing ∧
      CarriedOut .numbered listing (.change (.whitelistNode "a" Signature.firstAccount)) signing ∧
      CarriedOut .numbered signing (.registerNode "a" Signature.firstAccount signature) keptRun ∧
      Signature.recoverAddress signature
        (Bytes.ofText (Signature.registrationText "a" Signature.firstAccount)) =
          .ok Signature.firstAccount := by
  have replays : Replays .numbered keptRun := by
    intro before command later same state put
    have member : command ∈ keptRun := by
      rw [same]
      exact List.mem_append_right before List.mem_cons_self
    simp only [keptRun, List.mem_cons, List.not_mem_nil, or_false] at member
    rcases member with rfl | rfl | rfl | rfl | rfl <;> cases put
    exact .inl rfl
  have kept := state?_keptRun .numbered
  have found : (admitted "a" Signature.firstAccount).node? Signature.firstAccount =
      some { address := Signature.firstAccount, owner := "a", registered := true } :=
    node?_admitted "a" Signature.firstAccount
  exact ⟨replays, kept, found,
    registered_signed .numbered keptRun replays _ (.inr ⟨"kept", kept⟩) _ _ found rfl⟩

end Service

end StakingDirectory
