/-
**A session is logged in to once.**

* `login_eq_ok`: a login needs a signature and the session that has both the token and the nonce, to
  which nobody is logged in;
* `Awaits` says that the tokens still to come are new to the sessions of a state. Forward steps keep
  it (`LeadsTo.awaits`), and over whole runs all retained states have it (`every_awaits`) where the
  states that are put in do (`Supplies`);
* `login_lasts`: what follows a login leaves its token with the node, and lets nobody log in to the
  session again;
* `login_once` puts this together, for every service that can come about.
-/

import StakingDirectory.Proofs.Service.Authentication
import StakingDirectory.Proofs.Service.Freshness

namespace StakingDirectory

open Operation

namespace Sessions

variable {sessions : Sessions}

/-! ### Finding sessions -/

theorem Consistent.eq_of_token (consistent : Consistent sessions) {session other : Session}
    (member : session ∈ sessions.list) (also : other ∈ sessions.list)
    (same : session.token = other.token) : session = other :=
  List.inj_on_of_nodup_map consistent.byToken.nodup member also same

theorem Consistent.eq_of_nonce (consistent : Consistent sessions) {session other : Session}
    (member : session ∈ sessions.list) (also : other ∈ sessions.list)
    (same : session.nonce = other.nonce) : session = other :=
  List.inj_on_of_nodup_map consistent.byNonce.nodup member also same

/-- **A session is found by its token.** -/
theorem Consistent.withToken?_token (consistent : Consistent sessions) {session : Session}
    (member : session ∈ sessions.list) : sessions.withToken? session.token = some session := by
  obtain ⟨place, there⟩ := List.getElem?_of_mem member
  have known : sessions.byToken[session.token]? = some place :=
    (consistent.byToken _ _).mpr (by rw [there, Option.map_some])
  rw [Sessions.withToken?, known]
  exact there

end Sessions

/-- **What a login is let through for**: the session that has both the token and the nonce, and that
nobody is logged in to. -/
theorem State.checkLogin_iff {state : State} (consistent : state.sessions.Consistent)
    {token nonce : String} {node : Address} {session found : Session} {place : Nat} :
    state.checkLogin token nonce node = .ok (session, place, found) ↔
      found = session ∧ state.sessions.list[place]? = some session ∧ session.token = token ∧
        session.nonce = nonce ∧ session.loggedIn = false ∧
        state.directory.isRegistered node = true := by
  rw [State.checkLogin_eq_ok, Sessions.checkLogin_eq_ok]
  constructor
  · rintro ⟨presented, rfl, known, there, waiting, registered⟩
    obtain ⟨member, named⟩ := consistent.withToken? presented
    obtain rfl := consistent.same_of_nonce member known there
    exact ⟨rfl, there, named, rfl, waiting, registered⟩
  · rintro ⟨rfl, there, rfl, rfl, waiting, registered⟩
    have member := List.mem_of_getElem? there
    exact ⟨consistent.withToken?_token member, rfl,
      (consistent.byNonce _ _).mpr (by rw [there, Option.map_some]), there, waiting, registered⟩

namespace Service

variable {mint : Mint} {bound : Nat} {service next : Service}

/-- **A login needs a signature and a session that has the token and the nonce**, to which nobody is
logged in, and then changes this session only. -/
theorem login_eq_ok (consistent : service.live.sessions.Consistent) {token nonce given : String}
    {node : Address} {signature : Bytes} :
    (login token nonce node signature).outcome service = (.ok given, next) ↔
      Signature.verifyLogin nonce node signature = .ok () ∧
        service.directory.isRegistered node = true ∧
        ∃ place session, service.live.sessions.list[place]? = some session ∧
          session.token = token ∧ session.nonce = nonce ∧ session.loggedIn = false ∧
          given = token ∧ next = service.withState
            { service.live with
              sessions := service.live.sessions.withLogin place session node } := by
  rw [outcome_login, settled_eq_ok]
  simp only [checkLogin, bind_eq_ok, Prod.exists, Prod.mk.injEq]
  constructor
  · rintro ⟨session, place, _, ⟨_, signed, passed⟩, rfl, rfl⟩
    obtain ⟨rfl, there, named, nonced, waiting, registered⟩ :=
      (State.checkLogin_iff consistent).mp passed
    exact ⟨checkSigned_eq_ok.mp signed, registered, place, _, there, named, nonced, waiting, named,
      rfl⟩
  · rintro ⟨signed, registered, place, session, there, rfl, rfl, waiting, rfl, rfl⟩
    have passed := (State.checkLogin_iff consistent).mpr
      ⟨rfl, there, rfl, rfl, waiting, registered⟩
    exact ⟨session, place, session, ⟨(), checkSigned_eq_ok.mpr signed, passed⟩, rfl, rfl⟩

/-! ### Tokens to come -/

/-- **The tokens to come are new to the sessions**, from those that were issued up to a bound, and
the sessions are in order. -/
structure Awaits (mint : Mint) (bound issued : Nat) (sessions : Sessions) : Prop where
  consistent : sessions.Consistent
  new : ∀ session ∈ sessions.list, ∀ number, issued ≤ number → number < bound →
    Sha256.digest (Bytes.ofText session.token) ≠ Sha256.digest (Bytes.ofText (mint number))

theorem awaits_empty (mint : Mint) (bound issued : Nat) : Awaits mint bound issued {} where
  consistent := Sessions.consistent_empty
  new _ member := absurd member List.not_mem_nil

theorem Awaits.mono {sessions : Sessions} {issued later : Nat}
    (awaits : Awaits mint bound issued sessions) (more : issued ≤ later) :
    Awaits mint bound later sessions where
  consistent := awaits.consistent
  new session member number first := awaits.new session member number (Nat.le_trans more first)

/-- A token that is still to come is that of no session, and neither is its nonce. -/
theorem Awaits.ne_of_next {sessions : Sessions} {issued : Nat}
    (awaits : Awaits mint bound issued sessions) (within : issued < bound) :
    ∀ session ∈ sessions.list, session.token ≠ mint issued ∧
      session.nonce ≠ Session.nonceOf (mint issued) := by
  intro session member
  have other := awaits.new session member issued (Nat.le_refl _) within
  refine ⟨fun same => other (by rw [same]), fun same => other (Hex.marked_injective ?_)⟩
  rw [awaits.consistent.nonce session member] at same
  exact same

/-- **A session begins** with the next token, and the others are still to come. -/
theorem Awaits.withBegun {sessions : Sessions} {issued : Nat}
    (awaits : Awaits mint bound issued sessions) (distinct : DistinctDigests mint bound)
    (within : issued < bound) :
    Awaits mint bound (issued + 1) (sessions.withBegun (mint issued)) where
  consistent := awaits.consistent.withBegun (awaits.ne_of_next within)
  new := by
    refine Sessions.forall_withBegun (fun session member number first =>
      awaits.new session member number (Nat.le_of_succ_le first)) fun number first inside same => ?_
    exact Nat.ne_of_lt first (distinct issued number within inside same)

theorem Awaits.withLogin {sessions : Sessions} {issued place : Nat} {session : Session}
    (awaits : Awaits mint bound issued sessions) (there : sessions.list[place]? = some session)
    (node : Address) : Awaits mint bound issued (sessions.withLogin place session node) where
  consistent := awaits.consistent.withLogin there node
  new := Sessions.forall_withLogin awaits.new
    (awaits.new session (List.mem_of_getElem? there))

/-- Every step within the bound keeps this for the live state. -/
theorem Proceeds.awaits (proceeds : Proceeds mint service next)
    (tidy : service.archive.Tidy none) (distinct : DistinctDigests mint bound)
    (within : next.issued ≤ bound)
    (awaits : Awaits mint bound service.issued service.live.sessions) :
    Awaits mint bound next.issued next.live.sessions := by
  cases proceeds with
  | directory steps =>
    rw [live_withState tidy]
    exact awaits
  | begin =>
    show Awaits mint bound _ (service.archive.withLive _).liveState.sessions
    rw [Archive.liveState_withLive tidy]
    exact awaits.withBegun distinct within
  | login node there waiting =>
    rw [live_withState tidy]
    exact awaits.withLogin there node
  | snapshot name =>
    rw [live_takeSnapshot tidy]
    exact awaits

theorem LeadsTo.awaits (leads : LeadsTo mint service next)
    (tidy : service.archive.Tidy none) (distinct : DistinctDigests mint bound)
    (within : next.issued ≤ bound)
    (awaits : Awaits mint bound service.issued service.live.sessions) :
    Awaits mint bound next.issued next.live.sessions := by
  induction leads with
  | refl => exact awaits
  | tail earlier last ih =>
    exact last.awaits (LeadsTo.grows earlier tidy).1 distinct within
      (ih (Nat.le_trans last.issued_le within))

/-- The tokens to come are unknown and different. -/
theorem Awaits.fresh (awaits : Awaits mint bound service.issued service.live.sessions)
    (distinct : DistinctDigests mint bound) : Fresh mint bound service where
  unknown number first inside := by
    refine Option.eq_none_iff_forall_ne_some.mpr fun place known => ?_
    have named := (awaits.consistent.byToken _ _).mp known
    obtain ⟨session, there, same⟩ := Option.map_eq_some_iff.mp named
    exact awaits.new session (List.mem_of_getElem? there) number first inside (by rw [same])
  distinct first second _ before inside same :=
    Nat.ne_of_lt before (distinct first second (Nat.lt_trans before inside) inside (by rw [same]))

/-- **The tokens to come are new to all states that are put in.** -/
def Supplies (mint : Mint) (bound : Nat) (commands : List Command) : Prop :=
  ∀ before command later, commands = before ++ command :: later →
    ∀ state, command.provided = some state →
      Awaits mint bound (played mint before).issued state.sessions

section Runs

variable {commands : List Command} (distinct : DistinctDigests mint bound)

include distinct

/-- Every forward command within the bound keeps this for the live state. -/
theorem awaits_step {before : List Command} {command : Command} (forward : command.Forward)
    (within : (played mint (before ++ [command])).issued ≤ bound)
    (awaits : Awaits mint bound (played mint before).issued (played mint before).live.sessions) :
    Awaits mint bound (played mint (before ++ [command])).issued
      ((played mint before).after mint command).live.sessions := by
  rw [played_concat] at within ⊢
  exact (leadsTo_after mint _ forward).awaits (tidy_played mint before) distinct within awaits

/-- **Over whole runs the tokens to come are new to all retained states.** -/
theorem every_awaits (supplies : Supplies mint bound commands)
    (within : (played mint commands).issued ≤ bound) :
    (played mint commands).archive.Every fun state =>
      Awaits mint bound (played mint commands).issued state.sessions := by
  refine every_supplied
    (P := fun earlier state => Awaits mint bound (played mint earlier).issued state.sessions)
    (awaits_empty mint bound _) (fun first awaits => awaits.mono (issued_mono first))
    (fun before command state first provided _ => ?_)
    (fun before command first forward awaits =>
      awaits_step distinct forward (Nat.le_trans (issued_mono first) within) awaits)
    commands List.prefix_rfl
  obtain ⟨rest, same⟩ := first
  have split : commands = before ++ command :: rest := by rw [← same, List.append_assoc]; rfl
  exact (supplies before command rest split state provided).mono
    (issued_mono (List.prefix_append _ _))

/-- Empty states and copies of earlier live states know no token that is still to come. -/
theorem Replays.supplies (replays : Replays mint commands)
    (within : (played mint commands).issued ≤ bound) : Supplies mint bound commands := by
  have known : ∀ earlier, earlier <+: commands →
      Awaits mint bound (played mint earlier).issued (played mint earlier).live.sessions := by
    intro earlier first
    refine (every_run
      (P := fun run state => Awaits mint bound (played mint run).issued state.sessions)
      (replays.mono first) (awaits_empty mint bound _)
      (fun first awaits => awaits.mono (issued_mono first))
      fun before command inside forward awaits => ?_).live
    exact awaits_step distinct forward
      (Nat.le_trans (issued_mono (inside.trans first)) within) awaits
  intro before command later split state provided
  rcases replays before command later split state provided with rfl | ⟨earlier, inside, rfl⟩
  · exact awaits_empty mint bound _
  · have first : earlier <+: commands := inside.trans ⟨command :: later, split.symm⟩
    exact (known earlier first).mono (issued_mono inside)

end Runs

/-! ### Once logged in -/

/-- **Nobody logs in to a session twice**, by its token or by its nonce. -/
theorem login_refused (consistent : service.live.sessions.Consistent) {session : Session}
    (member : session ∈ service.live.sessions.list) (loggedIn : session.loggedIn = true)
    {token nonce : String} (same : token = session.token ∨ nonce = session.nonce)
    (node : Address) (signature : Bytes) :
    ∃ refusal, (login token nonce node signature).outcome service = (.error refusal, service) := by
  rcases given : (login token nonce node signature).outcome service with ⟨result, next⟩
  cases result with
  | error refusal =>
    rw [atomic_of_settled (outcome_login token nonce node signature) service next refusal given]
    exact ⟨refusal, rfl⟩
  | ok answer =>
    obtain ⟨-, -, place, other, there, rfl, rfl, waiting, -, -⟩ :=
      (login_eq_ok consistent).mp given
    have one : other = session := by
      rcases same with token | nonce
      · exact consistent.eq_of_token (List.mem_of_getElem? there) member token
      · exact consistent.eq_of_nonce (List.mem_of_getElem? there) member nonce
    rw [one, loggedIn] at waiting
    cases waiting

/-- The session of a login is logged in as the node, and its token acts for the node. -/
theorem authenticate_login (tidy : service.archive.Tidy none)
    (consistent : service.live.sessions.Consistent) {token nonce given : String} {node : Address}
    {signature : Bytes}
    (passed : (login token nonce node signature).outcome service = (.ok given, next)) :
    next.authenticate token = .ok node ∧ ∃ session ∈ next.live.sessions.list,
      session.token = token ∧ session.nonce = nonce ∧ session.loggedIn = true := by
  obtain ⟨-, registered, place, session, there, rfl, rfl, -, -, rfl⟩ :=
    (login_eq_ok consistent).mp passed
  have member : session.withNode node ∈
      (service.live.sessions.withLogin place session node).list := by
    obtain ⟨inside, -⟩ := List.getElem?_eq_some_iff.mp there
    exact List.mem_set inside _
  have found := (consistent.withLogin there node).withToken?_token member
  rw [authenticate_eq_ok, live_withState tidy, directory_withState tidy]
  exact ⟨⟨_, found, rfl, rfl, registered⟩, _, member, rfl, rfl, rfl⟩

/-- **What follows a login does not undo it**, as long as no other state becomes live. -/
theorem login_lasts (tidy : service.archive.Tidy none) (distinct : DistinctDigests mint bound)
    (awaits : Awaits mint bound service.issued service.live.sessions) {token nonce given : String}
    {node : Address} {signature : Bytes}
    (passed : (login token nonce node signature).outcome service = (.ok given, next))
    {last : Service} (leads : LeadsTo mint next last) (within : last.issued ≤ bound) :
    last.authenticate token = .ok node ∧
      ∀ token' nonce' node' signature', token' = token ∨ nonce' = nonce →
        ∃ refusal, (login token' nonce' node' signature').outcome last =
          (.error refusal, last) := by
  have proceeds : Proceeds mint service next := by
    obtain ⟨-, -, place, session, there, -, -, waiting, -, rfl⟩ :=
      (login_eq_ok awaits.consistent).mp passed
    exact .login node there waiting
  have tidy' := proceeds.tidy tidy
  have awaits' := proceeds.awaits tidy distinct (Nat.le_trans leads.issued_le within) awaits
  obtain ⟨acts, session, member, rfl, rfl, loggedIn⟩ :=
    authenticate_login tidy awaits.consistent passed
  refine ⟨leads.authenticate tidy' (awaits'.fresh distinct) within acts,
    fun token' nonce' node' signature' same => ?_⟩
  -- The session is where it was, as it was.
  obtain ⟨place, there⟩ := List.getElem?_of_mem member
  obtain ⟨later, stays, grown⟩ := (leads.grows tidy').2.sessions place session there
  obtain rfl := grown.settled loggedIn
  exact login_refused (leads.awaits tidy' distinct within awaits').consistent
    (List.mem_of_getElem? stays) loggedIn same node' signature'

/-- **A session is logged in to once, and then stays valid.** Let the tokens up to a bound have
different digests, let those still to come be new to the states that are put in, and let the service
be within the bound. A login that succeeds gives the token that was presented. It changes the one
session that has this token and this nonce, to which nobody was logged in before, and nothing else
but the live slot. Whatever forward commands follow within the bound, the token acts for the node,
and every login with this token or with this nonce is refused and changes nothing. A login that
fails changes nothing; hence whoever signs the nonce of a session that is not logged in, for a
registered node, is logged in with its token. -/
theorem login_once (mint : Mint) (bound : Nat) (commands : List Command)
    (supplies : Supplies mint bound commands) (distinct : DistinctDigests mint bound)
    (within : (played mint commands).issued ≤ bound) :
    (∀ token nonce node signature given next,
      (login token nonce node signature).outcome (played mint commands) = (.ok given, next) →
      given = token ∧
      (∃ place session, (played mint commands).live.sessions.list[place]? = some session ∧
        session.token = token ∧ session.nonce = nonce ∧
        session.loggedIn = false ∧ session.node = none ∧
        next = (played mint commands).withState
          { directory := (played mint commands).directory
            sessions :=
              { (played mint commands).live.sessions with
                list := (played mint commands).live.sessions.list.set place
                  { session with node := some node, loggedIn := true } } }) ∧
      (∀ name, ¬ (played mint commands).archive.Aliased name →
        next.archive.state? name = (played mint commands).archive.state? name) ∧
      ∀ later, (∀ command ∈ later, command.Forward) →
        (next.continued mint later).issued ≤ bound →
        (next.continued mint later).authenticate token = .ok node ∧
        ∀ token' nonce' node' signature', token' = token ∨ nonce' = nonce →
          ∃ refusal, (login token' nonce' node' signature').outcome (next.continued mint later) =
            (.error refusal, next.continued mint later)) ∧
    (∀ token nonce node signature refusal next,
      (login token nonce node signature).outcome (played mint commands) = (.error refusal, next) →
        next = played mint commands) ∧
    ∀ session ∈ (played mint commands).live.sessions.list, session.loggedIn = false →
      ∀ node signature, (played mint commands).directory.isRegistered node = true →
        Signature.verifyLogin session.nonce node signature = .ok () →
          ∃ next, (login session.token session.nonce node signature).outcome
            (played mint commands) = (.ok session.token, next) := by
  have tidy := tidy_played mint commands
  have awaits := (every_awaits distinct supplies within).live
  generalize played mint commands = service at within tidy awaits ⊢
  have consistent : service.live.sessions.Consistent := awaits.consistent
  refine ⟨?_, fun token nonce node signature refusal next failed =>
    atomic_of_settled (outcome_login token nonce node signature) service next refusal failed, ?_⟩
  · intro token nonce node signature given next passed
    have lasts := fun (later : List Command) (forward : ∀ command ∈ later, command.Forward) =>
      login_lasts tidy distinct awaits passed (leadsTo_continued mint next forward)
    obtain ⟨-, -, place, session, there, named, nonced, waiting, rfl, rfl⟩ :=
      (login_eq_ok consistent).mp passed
    have nobody : session.node = none := by
      have seems := consistent.node session (List.mem_of_getElem? there)
      rw [waiting] at seems
      simpa using seems.symm
    refine ⟨rfl, ⟨place, session, there, named, nonced, waiting, nobody, rfl⟩,
      fun name apart => ?_, lasts⟩
    have : Decidable (service.archive.Aliased name) := .isFalse apart
    exact (Archive.state?_withLive tidy _ name).trans (if_neg apart)
  · intro session member waiting node signature registered signed
    obtain ⟨place, there⟩ := List.getElem?_of_mem member
    exact ⟨_, (login_eq_ok consistent).mpr ⟨signed, registered, place, session, there, rfl, rfl,
      waiting, rfl, rfl⟩⟩

/-- The account of the secret key 1 logs in to the first session, and nobody does so again. -/
theorem login_once_firstRun :
    Supplies Mint.numbered 1 (firstRun.take 4) ∧ DistinctDigests Mint.numbered 1 ∧
    (played Mint.numbered (firstRun.take 4)).issued ≤ 1 ∧
    ∃ next,
      (login (Mint.numbered 0) (Session.nonceOf (Mint.numbered 0)) Signature.firstAccount
        Signature.firstLogin).outcome (played Mint.numbered (firstRun.take 4)) =
          (.ok (Mint.numbered 0), next) ∧
      (next.continued Mint.numbered [.takeSnapshot "kept"]).authenticate (Mint.numbered 0) =
        .ok Signature.firstAccount ∧
      ∃ refusal,
        (login (Mint.numbered 0) (Session.nonceOf (Mint.numbered 0)) Signature.firstAccount
            Signature.firstLogin).outcome
            (next.continued Mint.numbered [.takeSnapshot "kept"]) =
          (.error refusal, next.continued Mint.numbered [.takeSnapshot "kept"]) := by
  have nonce : Session.nonceOf (Mint.numbered 0) = Signature.firstNonce := by decide +kernel
  have signed : Signature.verifyLogin (Session.nonceOf (Mint.numbered 0)) Signature.firstAccount
      Signature.firstLogin = .ok () := by
    rw [nonce]
    exact Signature.verifyLogin_firstAccount
  have supplies : Supplies Mint.numbered 1 (firstRun.take 4) := by
    intro before command later same state put
    have member : command ∈ firstRun.take 4 := by
      rw [same]
      exact List.mem_append_right before List.mem_cons_self
    simp only [firstRun, admission, List.take_succ_cons, List.take_zero, List.mem_cons,
      List.not_mem_nil, or_false] at member
    rcases member with rfl | rfl | rfl | rfl <;> cases put
  have distinct : DistinctDigests Mint.numbered 1 := by
    intro first second inside inside' _
    omega
  have start : played Mint.numbered (firstRun.take 4) = _ :=
    played_take_admission Signature.verifyRegistration_firstAccount
  have within : (played Mint.numbered (firstRun.take 4)).issued ≤ 1 := by
    rw [start]
    exact Nat.le_refl 1
  obtain ⟨once, -, free⟩ := login_once Mint.numbered 1 (firstRun.take 4) supplies distinct within
  have member : Session.begin (Mint.numbered 0) ∈
      (played Mint.numbered (firstRun.take 4)).live.sessions.list := by
    rw [start]
    exact List.mem_singleton.mpr rfl
  have registered : (played Mint.numbered (firstRun.take 4)).directory.isRegistered
      Signature.firstAccount = true := by
    rw [start]
    exact isRegistered_admitted "a" Signature.firstAccount
  obtain ⟨next, passed⟩ := free _ member rfl _ _ registered signed
  refine ⟨supplies, distinct, within, next, passed, ?_⟩
  obtain ⟨-, ⟨_, _, -, -, -, -, -, same⟩, -, lasts⟩ := once _ _ _ _ _ _ passed
  have kept : ∀ service : Service,
      (service.continued Mint.numbered [.takeSnapshot "kept"]).issued = service.issued :=
    fun _ => rfl
  have counted : ∀ (service : Service) state, (service.withState state).issued = service.issued :=
    fun _ _ => rfl
  have room : (next.continued Mint.numbered [.takeSnapshot "kept"]).issued ≤ 1 := by
    rw [kept, same, counted]
    exact within
  obtain ⟨acts, refused⟩ := lasts [.takeSnapshot "kept"] (by simp [Command.Forward]) room
  exact ⟨acts, refused _ _ _ _ (.inl rfl)⟩

end Service

end StakingDirectory
