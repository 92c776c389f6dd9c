/-
**What can be asked of the service.**

* `Command` is every request that may change the service, and `played` carries out commands in turn
  on a new service, whether they succeed or are refused;
* `outcome_registerNode`, `outcome_createSession` and `outcome_login` say what the commands do that
  look at signatures and sessions;
* `refused_unchanged`: a command that is refused leaves the whole service as it was, that is the
  live directory, the live sessions, all versions and their names.
-/

import StakingDirectory.Proofs.Archive.Versions
import StakingDirectory.Proofs.Directory.Step
import StakingDirectory.Proofs.Session
import StakingDirectory.Proofs.Signature
import StakingDirectory.Service

namespace StakingDirectory

open Operation

/-- The session that a token is logged in with, and the one of the nonce with its place. -/
def State.checkLogin (state : State) (token nonce : String) (node : Address) :
    Except Refusal (Session × Nat × Session) :=
  match state.sessions.withToken? token with
  | none => .error .invalidSession
  | some session =>
    if session.nonce ≠ nonce then .error (.noSuchSession nonce)
    else do
      let (place, found) ←
        state.sessions.checkLogin nonce node (state.directory.isRegistered node)
      return (session, place, found)

theorem State.checkLogin_eq_ok {state : State} {token nonce : String} {node : Address}
    {session found : Session} {place : Nat} :
    state.checkLogin token nonce node = .ok (session, place, found) ↔
      state.sessions.withToken? token = some session ∧ session.nonce = nonce ∧
        state.sessions.checkLogin nonce node (state.directory.isRegistered node) =
          .ok (place, found) := by
  unfold State.checkLogin
  cases state.sessions.withToken? token with
  | none => simp
  | some other =>
    by_cases same : other.nonce = nonce
    · simp only [same, ne_eq, not_true_eq_false, if_false, bind_eq_ok, Option.some.injEq]
      constructor
      · rintro ⟨_, passed, equal⟩
        cases equal
        exact ⟨rfl, same, passed⟩
      · rintro ⟨rfl, -, passed⟩
        exact ⟨_, passed, rfl⟩
    · simp only [ne_eq, same, not_false_eq_true, if_true, Option.some.injEq]
      refine iff_of_false (by simp) ?_
      rintro ⟨rfl, equal, -⟩
      exact same equal

namespace Service

variable {α : Type}

/-! ### Commands -/

/-- What can be asked of the service that may change it. -/
inductive Command where
  | change (change : Directory.Change)
  | registerNode (email : String) (node : Address) (signature : Bytes)
  | createSession
  | login (token nonce : String) (node : Address) (signature : Bytes)
  | takeSnapshot (name : String)
  | revertToSnapshot (name : String)
  | setState (state : State)
  | restart (state : State)

/-- What a command gives. -/
inductive Answer where
  | reply (reply : Directory.Reply)
  | session (session : Session)
  | token (token : String)

/-- The operation of a command. -/
def Command.operation (mint : Mint) : Command → Operation Service Answer
  | .change wanted => .reply <$> onDirectory wanted.operation
  | .registerNode email node signature =>
    (fun () => .reply .done) <$> Service.registerNode email node signature
  | .createSession => .session <$> Service.createSession mint
  | .login token nonce node signature => .token <$> Service.login token nonce node signature
  | .takeSnapshot name => (fun () => .reply .done) <$> modify (Service.takeSnapshot name)
  | .revertToSnapshot name => (fun () => .reply .done) <$> Service.revertToSnapshot name
  | .setState state => (fun () => .reply .done) <$> modify (Service.setState state)
  | .restart state => (fun () => .reply .done) <$> modify (Service.restart state)

/-- The service after a command, whether it succeeds or is refused. -/
def after (service : Service) (mint : Mint) (command : Command) : Service :=
  ((command.operation mint).outcome service).2

/-- The service that commands make of a new one. -/
def played (mint : Mint) (commands : List Command) : Service :=
  commands.foldl (fun service command => service.after mint command) {}

/-! ### What commands do -/

/-- The service with another live state in the same slot. -/
def withState (service : Service) (state : State) : Service :=
  { service with archive := service.archive.withLive state }

theorem withState_live (service : Service) : service.withState service.live = service := by
  unfold withState live
  rw [Archive.withLive_liveState]

theorem outcome_onLive (operation : Operation State α) (service : Service) :
    (onLive operation).outcome service =
      ((operation.outcome service.live).1,
        service.withState (operation.outcome service.live).2) :=
  outcome_within _ _ operation service

theorem outcome_onDirectory (operation : Operation Directory α) (service : Service) :
    (onDirectory operation).outcome service =
      ((operation.outcome service.directory).1,
        service.withState
          { service.live with directory := (operation.outcome service.directory).2 }) := by
  unfold onDirectory
  rw [outcome_onLive, outcome_within]
  rfl

/-- A registration without its signature. -/
theorem outcome_onRegistration (email : String) (node : Address) (service : Service) :
    (onDirectory (Directory.registerNode email node)).outcome service =
      settled (service.directory.checkRegistration email node)
        (fun position =>
          ((), service.withState
            { service.live with directory := service.directory.withRegistered node position }))
        service := by
  rw [outcome_onDirectory, Directory.outcome_registerNode]
  cases service.directory.checkRegistration email node with
  | ok position => rfl
  | error refusal =>
    rw [settled_error, settled_error]
    exact congrArg (Prod.mk _) service.withState_live

/-- A fault of a signature as a refusal. -/
def checkSigned (check : Except Signature.Fault Unit) : Except Refusal Unit :=
  check.mapError .invalidSignature

theorem checkSigned_eq_ok {check : Except Signature.Fault Unit} :
    checkSigned check = .ok () ↔ check = .ok () := by
  cases check <;> simp [checkSigned, Except.mapError]

theorem outcome_demandSignature (check : Except Signature.Fault Unit) (service : Service) :
    (demandSignature check).outcome service = (checkSigned check, service) := by
  cases check <;> rfl

/-- The place of a user who may register a node, and has its signature. -/
def checkRegistration (service : Service) (email : String) (node : Address) (signature : Bytes) :
    Except Refusal Nat := do
  let position ← service.directory.checkRegistration email node
  checkSigned (Signature.verifyRegistration email node signature)
  return position

theorem outcome_registerNode (email : String) (node : Address) (signature : Bytes)
    (service : Service) :
    (registerNode email node signature).outcome service =
      settled (service.checkRegistration email node signature)
        (fun position =>
          ((), service.withState
            { service.live with directory := service.directory.withRegistered node position }))
        service := by
  unfold registerNode checkRegistration
  simp only [outcome_bind, outcome_get, outcome_demand, outcome_demandSignature,
    outcome_onRegistration]
  cases found : service.directory.checkRegistration email node with
  | error refusal => rfl
  | ok position =>
    cases checkSigned (Signature.verifyRegistration email node signature) with
    | error refusal => rfl
    | ok value =>
      -- The directory looks again, and finds the same.
      simp only [found, settled_ok]
      rfl

theorem outcome_createSession (mint : Mint) (service : Service) :
    (createSession mint).outcome service =
      (.ok (.begin (mint service.issued)),
        { archive := service.archive.withLive
            { service.live with sessions := service.live.sessions.withBegun (mint service.issued) }
          issued := service.issued + 1 }) := rfl

theorem outcome_loginLive (token nonce : String) (node : Address) (state : State) :
    (loginLive token nonce node).outcome state =
      settled (state.checkLogin token nonce node)
        (fun (session, place, found) =>
          (session.token, { state with sessions := state.sessions.withLogin place found node }))
        state := by
  unfold loginLive State.checkLogin
  simp only [outcome_bind, outcome_get]
  cases state.sessions.withToken? token with
  | none => rfl
  | some session =>
    by_cases same : session.nonce = nonce
    · simp only [same, ne_eq, not_true_eq_false, if_false, outcome_bind, outcome_within,
        Sessions.outcome_login]
      cases state.sessions.checkLogin nonce node (state.directory.isRegistered node) <;> rfl
    · simp only [ne_eq, same, not_false_eq_true, if_true]
      rfl

/-- What is looked at before a login: the signature first. -/
def checkLogin (service : Service) (token nonce : String) (node : Address) (signature : Bytes) :
    Except Refusal (Session × Nat × Session) := do
  checkSigned (Signature.verifyLogin nonce node signature)
  service.live.checkLogin token nonce node

/-- A login needs the signature of the node, the token of a session, and the nonce of that token. -/
theorem checkLogin_eq_ok {service : Service} {token nonce : String} {node : Address}
    {signature : Bytes} {session found : Session} {place : Nat} :
    service.checkLogin token nonce node signature = .ok (session, place, found) ↔
      Signature.recoverAddress signature (Bytes.ofText (Signature.loginText nonce node)) =
          .ok node ∧
        service.live.checkLogin token nonce node = .ok (session, place, found) := by
  unfold checkLogin
  rw [bind_eq_ok, ← Signature.verify_eq_ok]
  constructor
  · rintro ⟨_, signed, passed⟩
    exact ⟨checkSigned_eq_ok.mp signed, passed⟩
  · rintro ⟨signed, passed⟩
    exact ⟨(), checkSigned_eq_ok.mpr signed, passed⟩

theorem outcome_login (token nonce : String) (node : Address) (signature : Bytes)
    (service : Service) :
    (login token nonce node signature).outcome service =
      settled (service.checkLogin token nonce node signature)
        (fun (session, place, found) =>
          (session.token, service.withState
            { service.live with sessions := service.live.sessions.withLogin place found node }))
        service := by
  unfold login checkLogin
  simp only [outcome_bind, outcome_demandSignature, outcome_onLive, outcome_loginLive]
  cases checkSigned (Signature.verifyLogin nonce node signature) with
  | error refusal => rfl
  | ok value =>
    simp only [ok_bind]
    cases service.live.checkLogin token nonce node with
    | error refusal =>
      simp only [settled_error]
      rw [withState_live]
    | ok found => rfl

theorem outcome_revertToSnapshot (name : String) (service : Service) :
    (revertToSnapshot name).outcome service =
      (((Archive.revert name).outcome service.archive).1,
        { service with archive := ((Archive.revert name).outcome service.archive).2 }) :=
  outcome_within _ _ _ service

/-! ### Refusals -/

theorem atomic_onLive {operation : Operation State α} (atomic : operation.Atomic) :
    (onLive operation).Atomic := by
  unfold onLive
  exact atomic.within withState_live

theorem atomic_onDirectory {operation : Operation Directory α} (atomic : operation.Atomic) :
    (onDirectory operation).Atomic := by
  unfold onDirectory
  exact atomic_onLive (atomic.within fun _ => rfl)

/-- **Every command is carried out in full or not at all.** -/
theorem atomic_command (mint : Mint) (command : Command) : (command.operation mint).Atomic := by
  cases command with
  | change wanted => exact (atomic_onDirectory (Directory.atomic_change wanted)).map _
  | registerNode email node signature =>
    exact (atomic_of_settled (outcome_registerNode email node signature)).map _
  | createSession => exact atomic_of_ok fun service => ⟨_, rfl⟩
  | login token nonce node signature =>
    exact (atomic_of_settled (outcome_login token nonce node signature)).map _
  | takeSnapshot name => exact atomic_of_ok fun service => ⟨_, rfl⟩
  | revertToSnapshot name =>
    exact ((atomic_of_settled (Archive.outcome_revert name)).within fun _ => rfl).map _
  | setState state => exact atomic_of_ok fun service => ⟨_, rfl⟩
  | restart state => exact atomic_of_ok fun service => ⟨_, rfl⟩

/-- **A refusal changes nothing.** In every state of the service, a command that is refused leaves
the service as it was, with its live state, its versions and their names. A cycle in particular is
never refused once its deposits were handed to the vault: they can then be published. -/
theorem refused_unchanged (mint : Mint) (service : Service) :
    (∀ (command : Command) (refusal : Refusal),
      ((command.operation mint).outcome service).1 = .error refusal →
        ((command.operation mint).outcome service).2 = service) ∧
    ∀ (address : Address) (network : String) (limit : Nat) (handed : Directory),
      (Directory.handToVault address network
        (service.directory.chooseSet network limit)).outcome service.directory = (.ok (), handed) →
      ∃ index, ((Directory.publishSet address network
        (service.directory.chooseSet network limit)).outcome handed).1 = .ok index := by
  constructor
  · intro command refusal refused
    exact atomic_command mint command _ _ refusal (Prod.ext refused rfl)
  · intro address network limit handed succeeded
    rw [Directory.outcome_handToVault] at succeeded
    cases passed : service.directory.checkHandOver address network
        (service.directory.chooseSet network limit) with
    | error refusal =>
      rw [passed] at succeeded
      cases succeeded
    | ok value =>
      obtain ⟨keys, found⟩ := Directory.checkHandOver_eq_ok.mp passed
      rw [passed] at succeeded
      cases succeeded
      have again := Directory.requireVault_eq_ok.mp (Directory.requireVault_withVault
        (Directory.requireVault_eq_ok.mpr found) (value.2.withUploaded value.1))
      rw [Directory.outcome_publishSet, Directory.checkBatch_eq_ok.mpr ⟨again, keys⟩]
      exact ⟨_, rfl⟩

end Service

end StakingDirectory
