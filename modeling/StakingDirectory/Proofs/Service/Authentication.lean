/-
**Tokens act only for nodes that signed for them.**

* `Vouched` is what the sessions of every retained state owe to the run: each of them was begun in
  it with a token of its own, and the node that it is logged in as signed the nonce of that token;
* `vouched_step`: every forward command keeps this for the live state, and so do whole runs for all
  retained states (`every_played`);
* `authenticate_sound`: hence a token acts for a node only after a login with the nonce of that very
  token, which the node signed.
-/

import StakingDirectory.Proofs.Service.Admission
import StakingDirectory.Proofs.Service.Run
import StakingDirectory.Proofs.Text.Hex

namespace StakingDirectory.Service

open Operation

variable {mint : Mint}

/-! ### Issued tokens -/

/-- The tokens that were issued first have different digests. -/
def DistinctDigests (mint : Mint) (count : Nat) : Prop :=
  ∀ first second, first < count → second < count →
    Sha256.digest (Bytes.ofText (mint first)) = Sha256.digest (Bytes.ofText (mint second)) →
      first = second

theorem DistinctDigests.mono {fewer count : Nat} (distinct : DistinctDigests mint count)
    (bound : fewer ≤ count) : DistinctDigests mint fewer :=
  fun first second inside inside' =>
    distinct first second (Nat.lt_of_lt_of_le inside bound) (Nat.lt_of_lt_of_le inside' bound)

/-- **Issued tokens are never taken back.** -/
theorem issued_after (service : Service) (mint : Mint) (command : Command) :
    service.issued ≤ (service.after mint command).issued := by
  unfold after
  cases command <;> simp only [Command.operation, outcome_map]
  case change change => simp only [outcome_onDirectory, withState, Nat.le_refl]
  case registerNode email node signature =>
    rw [outcome_registerNode]
    exact settled_state (P := fun next : Service => service.issued ≤ next.issued) (Nat.le_refl _)
      fun _ _ => Nat.le_refl _
  case createSession => exact Nat.le_succ _
  case login token nonce node signature =>
    rw [outcome_login]
    exact settled_state (P := fun next : Service => service.issued ≤ next.issued) (Nat.le_refl _)
      fun _ _ => Nat.le_refl _
  case revertToSnapshot name => simp only [outcome_revertToSnapshot, Nat.le_refl]
  all_goals exact Nat.le_refl _

theorem issued_mono {earlier commands : List Command} (first : earlier <+: commands) :
    (played mint earlier).issued ≤ (played mint commands).issued := by
  obtain ⟨rest, rfl⟩ := first
  rw [played_append]
  generalize played mint earlier = service
  induction rest generalizing service with
  | nil => exact Nat.le_refl _
  | cons command rest ih => exact Nat.le_trans (issued_after service mint command) (ih _)

/-! ### The invariant -/

/-- **Every session was begun in the run, and its node signed the nonce of its token.** -/
structure Vouched (mint : Mint) (commands : List Command) (sessions : Sessions) : Prop where
  consistent : sessions.Consistent
  /-- Tokens are among those that were issued. -/
  issued : ∀ session ∈ sessions.list, ∃ number,
    number < (played mint commands).issued ∧ session.token = mint number
  begun : ∀ session ∈ sessions.list, ∃ first,
    Succeeded mint commands .createSession (.session first) ∧ first.token = session.token
  signed : ∀ session ∈ sessions.list, ∀ node, session.node = some node → ∃ signature,
    Succeeded mint commands (.login session.token session.nonce node signature)
      (.token session.token)

variable {commands : List Command} {sessions : Sessions}

theorem vouched_empty : Vouched mint commands {} where
  consistent := Sessions.consistent_empty
  issued _ member := absurd member List.not_mem_nil
  begun _ member := absurd member List.not_mem_nil
  signed _ member := absurd member List.not_mem_nil

/-- What a run vouches for, a longer one vouches for. -/
theorem Vouched.mono {earlier : List Command} (vouched : Vouched mint earlier sessions)
    (first : earlier <+: commands) : Vouched mint commands sessions where
  consistent := vouched.consistent
  issued session member := by
    obtain ⟨number, inside, same⟩ := vouched.issued session member
    exact ⟨number, Nat.lt_of_lt_of_le inside (issued_mono first), same⟩
  begun session member := by
    obtain ⟨one, succeeded, same⟩ := vouched.begun session member
    exact ⟨one, succeeded.mono first, same⟩
  signed session member node here := by
    obtain ⟨signature, succeeded⟩ := vouched.signed session member node here
    exact ⟨signature, succeeded.mono first⟩

/-- **A session begins** with a token that has a digest of its own. -/
theorem Vouched.withBegun (vouched : Vouched mint commands sessions)
    (distinct : DistinctDigests mint ((played mint commands).issued + 1)) :
    Vouched mint (commands ++ [.createSession])
      (sessions.withBegun (mint (played mint commands).issued)) := by
  have count : (played mint (commands ++ [.createSession])).issued =
      (played mint commands).issued + 1 := by
    rw [played_concat]
    rfl
  have fresh : ∀ session ∈ sessions.list,
      session.token ≠ mint (played mint commands).issued ∧
        session.nonce ≠ Session.nonceOf (mint (played mint commands).issued) := by
    intro session member
    obtain ⟨number, inside, same⟩ := vouched.issued session member
    have different : session.nonce ≠ Session.nonceOf (mint (played mint commands).issued) := by
      rw [vouched.consistent.nonce session member, same]
      intro equal
      have last := distinct _ _ (Nat.lt_succ_of_lt inside) (Nat.lt_succ_self _)
        (Hex.marked_injective equal)
      exact Nat.ne_of_lt inside last
    refine ⟨fun equal => different ?_, different⟩
    rw [vouched.consistent.nonce session member, equal]
  have before := vouched.mono (List.prefix_append commands [.createSession])
  refine ⟨vouched.consistent.withBegun fresh, ?_, ?_, ?_⟩
  · refine Sessions.forall_withBegun before.issued ?_
    rw [count]
    exact ⟨_, Nat.lt_succ_self _, rfl⟩
  · exact Sessions.forall_withBegun before.begun ⟨_, succeeded_last rfl, rfl⟩
  · refine Sessions.forall_withBegun before.signed ?_
    intro node here
    cases here

/-- **A node logs in.** The session of the token is the one of the nonce, so that the login is made
in the session whose token was presented. -/
theorem Vouched.withLogin (vouched : Vouched mint commands sessions) {token nonce : String}
    {node : Address} {signature : Bytes} {session found : Session} {place : Nat}
    (presented : sessions.withToken? token = some session) (same : session.nonce = nonce)
    (known : sessions.byNonce[nonce]? = some place) (there : sessions.list[place]? = some found)
    (given : (((Command.login token nonce node signature).operation mint).outcome
      (played mint commands)).1 = .ok (.token session.token)) :
    Vouched mint (commands ++ [.login token nonce node signature])
      (sessions.withLogin place found node) := by
  obtain ⟨member, named⟩ := vouched.consistent.withToken? presented
  have one : found = session :=
    vouched.consistent.same_of_nonce member (by rw [same, known]) there
  have before := vouched.mono
    (List.prefix_append commands [.login token nonce node signature])
  subst one named same
  refine ⟨vouched.consistent.withLogin there node, ?_, ?_, ?_⟩
  · exact Sessions.forall_withLogin before.issued (before.issued found member)
  · exact Sessions.forall_withLogin before.begun (before.begun found member)
  · refine Sessions.forall_withLogin before.signed ?_
    intro owner here
    cases here
    exact ⟨signature, succeeded_last given⟩

/-! ### Steps and runs -/

/-- **Every forward command keeps the live state vouched for.** -/
theorem vouched_step {command : Command} (forward : command.Forward)
    (distinct : DistinctDigests mint (played mint (commands ++ [command])).issued)
    (vouched : Vouched mint commands (played mint commands).live.sessions) :
    Vouched mint (commands ++ [command])
      ((played mint commands).after mint command).live.sessions := by
  have before : Vouched mint (commands ++ [command]) (played mint commands).live.sessions :=
    vouched.mono (List.prefix_append _ _)
  have tidy := tidy_played mint commands
  rw [played_concat] at distinct
  generalize service_eq : played mint commands = service at vouched before distinct tidy ⊢
  unfold after at distinct ⊢
  cases command with
  | change change =>
    simp only [Command.operation, outcome_map, outcome_onDirectory, live_withState tidy]
    exact before
  | registerNode email node signature =>
    simp only [Command.operation, outcome_map, outcome_registerNode]
    refine settled_state (P := fun next : Service => Vouched mint _ next.live.sessions) before
      fun _ _ => ?_
    rw [live_withState tidy]
    exact before
  | createSession =>
    subst service_eq
    show Vouched mint _ ((played mint commands).withState _).live.sessions
    rw [live_withState tidy]
    exact vouched.withBegun distinct
  | login token nonce node signature =>
    simp only [Command.operation, outcome_map, outcome_login]
    refine settled_state (P := fun next : Service => Vouched mint _ next.live.sessions) before ?_
    rintro ⟨session, place, found⟩ passed
    obtain ⟨_, presented⟩ := checkLogin_eq_ok.mp passed
    obtain ⟨presented, same, login⟩ := State.checkLogin_eq_ok.mp presented
    obtain ⟨known, there, -⟩ := Sessions.checkLogin_eq_ok.mp login
    rw [live_withState tidy]
    refine vouched.withLogin presented same known there ?_
    rw [service_eq, Command.operation, outcome_map, outcome_login, passed]
    rfl
  | takeSnapshot name =>
    show Vouched mint _ (service.takeSnapshot name).live.sessions
    rw [live_takeSnapshot tidy]
    exact before
  | revertToSnapshot | setState | restart => cases forward

/-- **Whole runs keep all retained states vouched for.** -/
theorem every_played (replays : Replays mint commands)
    (distinct : DistinctDigests mint (played mint commands).issued) :
    (played mint commands).archive.Every fun state => Vouched mint commands state.sessions :=
  every_run (P := fun earlier state => Vouched mint earlier state.sessions) replays vouched_empty
    (fun first vouched => vouched.mono first) fun _ _ first forward vouched =>
      vouched_step forward (distinct.mono (issued_mono first)) vouched

/-! ### Authentication -/

/-- A login was made with a signature of the node. -/
theorem recovered_of_login {service : Service} {token nonce given : String} {node : Address}
    {signature : Bytes}
    (succeeded : (((Command.login token nonce node signature).operation mint).outcome service).1 =
      .ok (.token given)) :
    Signature.recoverAddress signature (Bytes.ofText (Signature.loginText nonce node)) =
      .ok node := by
  rw [Command.operation, outcome_map, outcome_login] at succeeded
  cases passed : service.checkLogin token nonce node signature with
  | error refusal =>
    rw [passed] at succeeded
    cases succeeded
  | ok value => exact (checkLogin_eq_ok.mp passed).1

/-- **A token acts for a node only if the node signed its nonce.** Let no state be put in but empty
ones and copies of earlier live states, and let the tokens that are issued have different digests.
If a token then acts for a node, the node is registered, the token was given to a session that was
begun, and there was a login with it and with its own nonce, which the node signed. -/
theorem authenticate_sound (mint : Mint) (commands : List Command)
    (replays : Replays mint commands)
    (distinct : DistinctDigests mint (played mint commands).issued) (token : String)
    (node : Address) (authenticated : (played mint commands).authenticate token = .ok node) :
    (played mint commands).directory.isRegistered node = true ∧
    (∃ session : Session,
      Succeeded mint commands .createSession (.session session) ∧ session.token = token) ∧
    ∃ (nonce : String) (signature : Bytes),
      nonce = "0x" ++ Hex.encode (Sha256.digest (Bytes.ofText token)) ∧
      Succeeded mint commands (.login token nonce node signature) (.token token) ∧
      Signature.recoverAddress signature (Bytes.ofText (Signature.loginText nonce node)) =
        .ok node := by
  have vouched := (every_played replays distinct).live
  unfold authenticate at authenticated
  cases found : (played mint commands).live.sessions.withToken? token with
  | none =>
    rw [found] at authenticated
    cases authenticated
  | some session =>
    obtain ⟨member, rfl⟩ := vouched.consistent.withToken? found
    rw [found] at authenticated
    cases loggedIn : session.loggedIn with
    | false =>
      simp only [loggedIn] at authenticated
      cases authenticated
    | true =>
      cases owner : session.node with
      | none =>
        simp only [loggedIn, owner] at authenticated
        cases authenticated
      | some other =>
        simp only [loggedIn, owner] at authenticated
        by_cases registered : (played mint commands).directory.isRegistered other = true
        · rw [if_pos registered] at authenticated
          cases authenticated
          obtain ⟨signature, succeeded⟩ := vouched.signed session member node owner
          refine ⟨registered, vouched.begun session member, session.nonce, signature,
            vouched.consistent.nonce session member, succeeded, ?_⟩
          obtain ⟨before, later, -, given⟩ := succeeded
          exact recovered_of_login given
        · rw [if_neg registered] at authenticated
          cases authenticated

/-- The run by which the account of the secret key 1 comes in. -/
def firstRun : List Command :=
  admission Mint.numbered "a" Signature.firstAccount Signature.firstRegistration
    Signature.firstLogin

/-- The first token acts for the account that came in, and so its signature is found. -/
theorem authenticate_sound_firstRun :
    Replays Mint.numbered firstRun ∧
    DistinctDigests Mint.numbered (played Mint.numbered firstRun).issued ∧
    (played Mint.numbered firstRun).authenticate (Mint.numbered 0) =
      .ok Signature.firstAccount ∧
    ∃ (nonce : String) (signature : Bytes),
      nonce = "0x" ++ Hex.encode (Sha256.digest (Bytes.ofText (Mint.numbered 0))) ∧
      Succeeded Mint.numbered firstRun
        (.login (Mint.numbered 0) nonce Signature.firstAccount signature)
        (.token (Mint.numbered 0)) ∧
      Signature.recoverAddress signature
        (Bytes.ofText (Signature.loginText nonce Signature.firstAccount)) =
          .ok Signature.firstAccount := by
  have nonce : Session.nonceOf (Mint.numbered 0) = Signature.firstNonce := by decide +kernel
  have signed : Signature.verifyLogin (Session.nonceOf (Mint.numbered 0)) Signature.firstAccount
      Signature.firstLogin = .ok () := by
    rw [nonce]
    exact Signature.verifyLogin_firstAccount
  have replays : Replays Mint.numbered firstRun := by
    intro before command later same state put
    have member : command ∈ firstRun := by
      rw [same]
      exact List.mem_append_right before List.mem_cons_self
    simp only [firstRun, admission, List.mem_cons, List.not_mem_nil, or_false] at member
    rcases member with rfl | rfl | rfl | rfl | rfl <;> cases put
  have issued : (played Mint.numbered firstRun).issued = 1 := by
    rw [firstRun, played_admission Signature.verifyRegistration_firstAccount signed]
    rfl
  have distinct : DistinctDigests Mint.numbered (played Mint.numbered firstRun).issued := by
    rw [issued]
    intro first second inside inside' _
    omega
  have authenticated := authenticate_admission Signature.verifyRegistration_firstAccount signed
  exact ⟨replays, distinct, authenticated,
    (authenticate_sound Mint.numbered firstRun replays distinct _ _ authenticated).2.2⟩

end StakingDirectory.Service
