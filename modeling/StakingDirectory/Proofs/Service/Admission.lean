/-
**A node that signs is let in.**

* `admission` is the run by which a node comes in: its user is added, it is whitelisted and
  registered, and it logs in to the first session;
* `played_admission` is the service after it, for all signatures that are accepted;
* `authenticate_admission`: the token of the session then acts for the node.
-/

import StakingDirectory.Proofs.Service.Command

namespace StakingDirectory.Service

open Operation

/-! ### One state -/

/-- The service on one state without any versions. -/
def alone (state : State) (issued : Nat) : Service :=
  { archive := .ofState state, issued }

@[simp] theorem live_alone (state : State) (issued : Nat) : (alone state issued).live = state := rfl

@[simp] theorem directory_alone (state : State) (issued : Nat) :
    (alone state issued).directory = state.directory := rfl

@[simp] theorem withState_alone (state next : State) (issued : Nat) :
    (alone state issued).withState next = alone next issued := rfl

/-! ### Coming in -/

/-- The commands by which a node comes in. -/
def admission (mint : Mint) (email : String) (node : Address) (registration login : Bytes) :
    List Command :=
  [.change (.addUser email), .change (.whitelistNode email node),
    .registerNode email node registration, .createSession,
    .login (mint 0) (Session.nonceOf (mint 0)) node login]

/-- The directory with one user and one node, which waits to be registered. -/
def expecting (email : String) (node : Address) : Directory :=
  (({} : Directory).withUser email).withWhitelisted email node 0

/-- The directory with one user and one registered node. -/
def admitted (email : String) (node : Address) : Directory :=
  (expecting email node).withRegistered node 0

theorem node?_admitted (email : String) (node : Address) :
    (admitted email node).node? node =
      some { address := node, owner := email, registered := true } := by
  simp [Directory.node?, admitted, expecting, Directory.withRegistered, Directory.withWhitelisted]

theorem isRegistered_admitted (email : String) (node : Address) :
    (admitted email node).isRegistered node = true := by
  rw [Directory.isRegistered, node?_admitted]
  rfl

theorem after_addUser (mint : Mint) (email : String) :
    (alone {} 0).after mint (.change (.addUser email)) =
      alone { directory := ({} : Directory).withUser email } 0 := by
  simp only [after, Command.operation, Directory.Change.operation, outcome_map,
    outcome_onDirectory, Directory.outcome_addUser]
  rfl

theorem after_whitelisting (mint : Mint) (email : String) (node : Address) :
    (alone { directory := ({} : Directory).withUser email } 0).after mint
        (.change (.whitelistNode email node)) =
      alone { directory := expecting email node } 0 := by
  have known : (({} : Directory).withUser email).userIndex[email]? = some 0 := by
    simp [Directory.withUser]
  have free : (({} : Directory).withUser email).checkWhitelisting email node = .ok (0, true) :=
    Directory.checkWhitelisting_eq_ok.mpr ⟨known, by simp [Directory.node?, Directory.withUser]⟩
  simp only [after, Command.operation, Directory.Change.operation, outcome_map,
    outcome_onDirectory, Directory.outcome_whitelistNode, directory_alone, free, settled_ok,
    withState_alone]
  rfl

/-- The node that waits may be registered. -/
theorem checkRegistration_expecting (email : String) (node : Address) :
    (expecting email node).checkRegistration email node = .ok 0 := by
  have known : (expecting email node).userIndex[email]? = some 0 := by
    simp [expecting, Directory.withWhitelisted, Directory.withUser]
  exact Directory.checkRegistration_eq_ok.mpr ⟨known, { address := node, owner := email },
    by simp [Directory.node?, expecting, Directory.withWhitelisted], rfl, rfl⟩

theorem after_registration {mint : Mint} {email : String} {node : Address} {registration : Bytes}
    (signed : Signature.verifyRegistration email node registration = .ok ()) :
    (alone { directory := expecting email node } 0).after mint
        (.registerNode email node registration) =
      alone { directory := admitted email node } 0 := by
  have passed : (alone { directory := expecting email node } 0).checkRegistration email node
      registration = .ok 0 := by
    rw [checkRegistration, directory_alone, checkRegistration_expecting, signed]
    rfl
  simp only [after, Command.operation, outcome_map, outcome_registerNode, passed, settled_ok,
    withState_alone]
  rfl

theorem after_login {mint : Mint} {email : String} {node : Address} {token : String}
    {login : Bytes}
    (signed : Signature.verifyLogin (Session.nonceOf token) node login = .ok ()) :
    (alone
        { directory := admitted email node, sessions := ({} : Sessions).withBegun token }
        1).after mint (.login token (Session.nonceOf token) node login) =
      alone
        { directory := admitted email node
          sessions := (({} : Sessions).withBegun token).withLogin 0 (.begin token) node } 1 := by
  have passed : (alone
      { directory := admitted email node, sessions := ({} : Sessions).withBegun token }
      1).checkLogin token (Session.nonceOf token) node login =
        .ok (.begin token, 0, .begin token) := by
    refine checkLogin_eq_ok.mpr ⟨Signature.verify_eq_ok.mp signed, ?_⟩
    refine State.checkLogin_eq_ok.mpr ⟨?_, rfl, ?_⟩
    · simp [Sessions.withToken?, Sessions.withBegun, Session.begin]
    · refine Sessions.checkLogin_eq_ok.mpr ⟨?_, rfl, rfl, isRegistered_admitted email node⟩
      simp [Sessions.withBegun, Session.begin]
  simp only [after, Command.operation, outcome_map, outcome_login, passed, settled_ok,
    withState_alone, live_alone]

/-- The service before the node logs in. -/
theorem played_take_admission {mint : Mint} {email : String} {node : Address}
    {registration login : Bytes}
    (registered : Signature.verifyRegistration email node registration = .ok ()) :
    played mint ((admission mint email node registration login).take 4) =
      alone
        { directory := admitted email node, sessions := ({} : Sessions).withBegun (mint 0) } 1 := by
  have begun : (alone { directory := admitted email node } 0).after mint .createSession =
      alone
        { directory := admitted email node, sessions := ({} : Sessions).withBegun (mint 0) } 1 :=
    rfl
  show ((((alone {} 0).after mint _).after mint _).after mint _).after mint _ = _
  rw [after_addUser, after_whitelisting, after_registration registered, begun]

/-- **The service after a node came in.** -/
theorem played_admission {mint : Mint} {email : String} {node : Address}
    {registration login : Bytes}
    (registered : Signature.verifyRegistration email node registration = .ok ())
    (signed : Signature.verifyLogin (Session.nonceOf (mint 0)) node login = .ok ()) :
    played mint (admission mint email node registration login) =
      alone
        { directory := admitted email node
          sessions := (({} : Sessions).withBegun (mint 0)).withLogin 0 (.begin (mint 0)) node }
        1 := by
  show (played mint ((admission mint email node registration login).take 4)).after mint _ = _
  rw [played_take_admission registered, after_login signed]

/-- **The first session acts for the node that was let in.** -/
theorem authenticate_admission {mint : Mint} {email : String} {node : Address}
    {registration login : Bytes}
    (registered : Signature.verifyRegistration email node registration = .ok ())
    (signed : Signature.verifyLogin (Session.nonceOf (mint 0)) node login = .ok ()) :
    (played mint (admission mint email node registration login)).authenticate (mint 0) =
      .ok node := by
  have found : ((({} : Sessions).withBegun (mint 0)).withLogin 0 (.begin (mint 0)) node).withToken?
      (mint 0) = some ((Session.begin (mint 0)).withNode node) := by
    simp [Sessions.withToken?, Sessions.withLogin, Sessions.withBegun, Session.begin]
  rw [played_admission registered signed]
  simp only [authenticate, live_alone, directory_alone, found, Session.withNode,
    isRegistered_admitted, if_true]

end StakingDirectory.Service
