/-
**Sessions are in order wherever they are kept.**

States are also held outside of the service: they are copied off it, made and worked on there, and
put in. Sessions begin in them with tokens from the same mint.

* `Arises` is everything that a service and the states held outside may come to;
* `Arises.awaits`: whatever was done, the sessions of all retained states and of all held ones are
  in order, and the tokens still to come are new to them. A step either leaves the sessions alone,
  or is one of those for which this is known (`Awaits.withBegun`, `Awaits.withLogin`);
* `sessions_indexed` says what this means for the indices, and for the session that begins next.
-/

import StakingDirectory.Proofs.Service.Login

namespace StakingDirectory.Service

open Operation

variable {mint : Mint} {bound : Nat} {service : Service} {held : List State} {state : State}

/-! ### Processes -/

/-- **A service, and the states that are held outside of it**, after anything that may be done.
Other services of a process are among what is done outside: their sessions are those of some held
states. -/
inductive Arises (mint : Mint) : Service → List State → Prop
  | start : Arises mint {} []
  /-- A command may put in a state that is held, and no other. -/
  | command {service : Service} {held : List State} (command : Command)
    (given : ∀ state, command.provided = some state → state ∈ held) :
    Arises mint service held → Arises mint (service.after mint command) held
  | copy {service : Service} {held : List State} :
    Arises mint service held → Arises mint service (service.live :: held)
  /-- The live state is changed in its place. -/
  | place {service : Service} {held : List State} {state : State} (member : state ∈ held) :
    Arises mint service held → Arises mint (service.withState state) held
  | empty {service : Service} {held : List State} :
    Arises mint service held → Arises mint service ({} :: held)
  | direct {service : Service} {held : List State} {state : State} (member : state ∈ held)
    (directory : Directory) :
    Arises mint service held → Arises mint service ({ state with directory } :: held)
  | begin {service : Service} {held : List State} {state : State} (member : state ∈ held) :
    Arises mint service held →
    Arises mint { service with issued := service.issued + 1 }
      ({ state with
          sessions := ((Sessions.begin (mint service.issued)).outcome state.sessions).2 } :: held)
  | login {service : Service} {held : List State} {state : State} (member : state ∈ held)
    (nonce : String) (node : Address) (registered : Bool) :
    Arises mint service held →
    Arises mint service
      ({ state with
          sessions := ((Sessions.login nonce node registered).outcome state.sessions).2 } :: held)

/-- A state is retained: it is live, or has a name. -/
def Retains (service : Service) (state : State) : Prop :=
  state = service.live ∨ ∃ name, service.archive.state? name = some state

/-! ### What is kept -/

/-- A login leaves the tokens to come new to the sessions. -/
theorem Awaits.login {sessions : Sessions} {issued : Nat}
    (awaits : Awaits mint bound issued sessions) (nonce : String) (node : Address)
    (registered : Bool) :
    Awaits mint bound issued ((Sessions.login nonce node registered).outcome sessions).2 := by
  rw [Sessions.outcome_login]
  refine settled_state (P := Awaits mint bound issued) awaits ?_
  rintro ⟨place, session⟩ passed
  exact awaits.withLogin (Sessions.checkLogin_eq_ok.mp passed).2.1 node

/-- The tokens to come are new to all states of a process. -/
structure AwaitsAll (mint : Mint) (bound : Nat) (service : Service) (held : List State) : Prop where
  retained : service.archive.Every fun state => Awaits mint bound service.issued state.sessions
  held : ∀ state ∈ held, Awaits mint bound service.issued state.sessions

/-- **A command leaves the tokens to come new to the live state**, if it puts in a state to which
they are. -/
theorem AwaitsAll.live_after (awaits : AwaitsAll mint bound service held)
    (distinct : DistinctDigests mint bound) (command : Command)
    (given : ∀ state, command.provided = some state → state ∈ held)
    (within : (service.after mint command).issued ≤ bound) :
    Awaits mint bound (service.after mint command).issued
      (service.after mint command).live.sessions := by
  have forward (forward : command.Forward) := (leadsTo_after mint service forward).awaits
    awaits.retained.tidy distinct within awaits.retained.live
  cases command with
  | change | registerNode | createSession | login | takeSnapshot => exact forward trivial
  | revertToSnapshot name =>
    unfold after
    simp only [Command.operation, outcome_map, outcome_revertToSnapshot]
    exact (awaits.retained.revert name).live
  | setState state =>
    show Awaits mint bound service.issued (service.archive.replace state).liveState.sessions
    rw [Archive.liveState_replace awaits.retained.tidy]
    exact awaits.held state (given state rfl)
  | restart state => exact awaits.held state (given state rfl)

theorem AwaitsAll.after (awaits : AwaitsAll mint bound service held)
    (distinct : DistinctDigests mint bound) (command : Command)
    (given : ∀ state, command.provided = some state → state ∈ held)
    (within : (service.after mint command).issued ≤ bound) :
    AwaitsAll mint bound (service.after mint command) held where
  retained := by
    have later := issued_after service mint command
    exact every_after (awaits.retained.mono fun _ one => one.mono later) command
      (awaits.live_after distinct command given within)
  held state member := (awaits.held state member).mono (issued_after service mint command)

/-- One state more is held. -/
theorem AwaitsAll.hold (awaits : AwaitsAll mint bound service held)
    (new : Awaits mint bound service.issued state.sessions) :
    AwaitsAll mint bound service (state :: held) :=
  ⟨awaits.retained, List.forall_mem_cons.mpr ⟨new, awaits.held⟩⟩

/-- A token is given out, by whomever. -/
theorem AwaitsAll.issue (awaits : AwaitsAll mint bound service held) :
    AwaitsAll mint bound { service with issued := service.issued + 1 } held where
  retained := awaits.retained.mono fun _ one => one.mono (Nat.le_succ _)
  held state member := (awaits.held state member).mono (Nat.le_succ _)

/-- **Whatever is done in a process, the tokens to come are new to all its states.** -/
theorem Arises.awaits (arises : Arises mint service held) (distinct : DistinctDigests mint bound)
    (within : service.issued ≤ bound) : AwaitsAll mint bound service held := by
  induction arises with
  | start =>
    exact ⟨Archive.every_ofState (awaits_empty mint bound _),
      fun _ member => absurd member List.not_mem_nil⟩
  | command command given _ ih =>
    have before := ih (Nat.le_trans (issued_after _ mint command) within)
    exact before.after distinct command given within
  | copy _ ih => exact (ih within).hold (ih within).retained.live
  | place member _ ih =>
    have before := ih within
    exact ⟨before.retained.withLive (before.held _ member), before.held⟩
  | empty _ ih => exact (ih within).hold (awaits_empty mint bound _)
  | direct member directory _ ih =>
    -- Another directory does not show in the sessions.
    have before := (ih within).held _ member
    exact (ih within).hold before
  | begin member _ ih =>
    have before := ih (Nat.le_of_succ_le within)
    rw [Sessions.outcome_begin]
    exact before.issue.hold ((before.held _ member).withBegun distinct within)
  | login member nonce node registered _ ih =>
    exact (ih within).hold (((ih within).held _ member).login nonce node registered)

/-! ### The indices -/

/-- The live sessions once another one began. -/
theorem sessions_createSession (tidy : service.archive.Tidy none) :
    ((createSession mint).outcome service).2.live.sessions =
      service.live.sessions.withBegun (mint service.issued) :=
  congrArg State.sessions (Archive.liveState_withLive tidy _)

/-- **Sessions are found by their tokens and nonces in every retained state.** Let a process have
done anything, and let the tokens issued in it have different digests. In every state that the
service retains, each index leads from a name to a place exactly if the session there has it, and to
no place outside of the list; the nonce of a session is the digest of its token, no two sessions
have one token, and a session is logged in exactly if it has a node. If the digest of the next token
differs as well, no session of any retained state has the token of the session that begins next, nor
its nonce, so that it comes last and both indices lead to it, and to all others as before. -/
theorem sessions_indexed (mint : Mint) (service : Service) (held : List State)
    (arises : Arises mint service held) (distinct : DistinctDigests mint service.issued) :
    (∀ state, service.Retains state →
      (∀ (token : String) (place : Nat), state.sessions.byToken[token]? = some place ↔
        ∃ session, state.sessions.list[place]? = some session ∧ session.token = token) ∧
      (∀ (nonce : String) (place : Nat), state.sessions.byNonce[nonce]? = some place ↔
        ∃ session, state.sessions.list[place]? = some session ∧ session.nonce = nonce) ∧
      (∀ (name : String) (place : Nat),
        state.sessions.byToken[name]? = some place ∨ state.sessions.byNonce[name]? = some place →
          place < state.sessions.list.length) ∧
      (∀ session ∈ state.sessions.list,
        session.nonce = "0x" ++ Hex.encode (Sha256.digest (Bytes.ofText session.token)) ∧
        (session.loggedIn = true ↔ ∃ node, session.node = some node)) ∧
      (state.sessions.list.map Session.token).Nodup) ∧
    (DistinctDigests mint (service.issued + 1) →
      ∃ session next, (createSession mint).outcome service = (.ok session, next) ∧
        (∀ state, service.Retains state →
          (∀ other ∈ state.sessions.list,
            other.token ≠ session.token ∧ other.nonce ≠ session.nonce) ∧
          state.sessions.byToken[session.token]? = none ∧
          state.sessions.byNonce[session.nonce]? = none) ∧
        next.live.sessions.list = service.live.sessions.list ++ [session] ∧
        (∀ token : String, next.live.sessions.byToken[token]? =
          if session.token = token then some service.live.sessions.list.length
          else service.live.sessions.byToken[token]?) ∧
        ∀ nonce : String, next.live.sessions.byNonce[nonce]? =
          if session.nonce = nonce then some service.live.sessions.list.length
          else service.live.sessions.byNonce[nonce]?) := by
  constructor
  · intro state retains
    have awaits := arises.awaits distinct (Nat.le_refl _)
    have consistent := (awaits.retained.of_retained retains).consistent
    refine ⟨consistent.byToken.getElem?_eq_some, consistent.byNonce.getElem?_eq_some, ?_,
      fun session member => ⟨consistent.nonce session member, ?_⟩, consistent.byToken.nodup⟩
    · rintro name place (known | known)
      · exact consistent.byToken.lt_length known
      · exact consistent.byNonce.lt_length known
    · rw [consistent.node session member, Option.isSome_iff_exists]
  · intro distinct
    have awaits := arises.awaits distinct (Nat.le_succ _)
    refine ⟨_, ((createSession mint).outcome service).2, rfl, fun state retains => ?_, ?_⟩
    · have one := awaits.retained.of_retained retains
      have other := one.ne_of_next (Nat.lt_succ_self _)
      exact ⟨other, one.consistent.byToken.eq_none fun session member => (other session member).1,
        one.consistent.byNonce.eq_none fun session member => (other session member).2⟩
    · rw [sessions_createSession awaits.retained.tidy]
      exact ⟨rfl, fun token => by simp [Sessions.withBegun, Std.ExtTreeMap.getElem?_insert],
        fun nonce => by simp [Sessions.withBegun, Std.ExtTreeMap.getElem?_insert]⟩

/-- A session that began in a state of its own is put in, after another one was kept by a name. -/
theorem sessions_indexed_putIn :
    ∃ service held kept, Arises Mint.numbered service held ∧
      DistinctDigests Mint.numbered service.issued ∧
      DistinctDigests Mint.numbered (service.issued + 1) ∧ service.issued = 2 ∧
      service.live.sessions.list = [.begin (Mint.numbered 0)] ∧
      service.archive.state? "kept" = some kept ∧
      kept.sessions.list = [.begin (Mint.numbered 1)] ∧
      kept.sessions.byNonce[Session.nonceOf (Mint.numbered 1)]? = some 0 ∧
      ∃ session next, (createSession Mint.numbered).outcome service = (.ok session, next) ∧
        next.live.sessions.list = [.begin (Mint.numbered 0), session] ∧
        next.live.sessions.byToken[session.token]? = some 1 ∧
        kept.sessions.byToken[session.token]? = none := by
  have empty : Arises Mint.numbered {} [{}] := .empty .start
  have apart := Arises.begin List.mem_cons_self empty
  have begun := Arises.command .createSession (fun _ put => by cases put) apart
  have named := Arises.command (.takeSnapshot "kept") (fun _ put => by cases put) begun
  have putIn := Arises.command (.setState _)
    (fun _ put => Option.some.inj put ▸ List.mem_cons_self) named
  have distinct : DistinctDigests Mint.numbered 3 := by
    have digests : ((List.range 3).map fun number =>
        Sha256.digest (Bytes.ofText (Mint.numbered number))).Nodup := by decide +kernel
    intro first second inside inside'
    exact List.inj_on_of_nodup_map digests (List.mem_range.mpr inside)
      (List.mem_range.mpr inside')
  obtain ⟨every, next⟩ := sessions_indexed _ _ _ putIn (distinct.mono (by decide))
  obtain ⟨session, after, began, new, last, byToken, -⟩ := next distinct
  obtain ⟨-, byNonce, -⟩ := every _ (.inr ⟨"kept", rfl⟩)
  refine ⟨_, _, _, putIn, distinct.mono (by decide), distinct, rfl, rfl, rfl, rfl,
    (byNonce _ 0).mpr ⟨_, rfl, rfl⟩, session, after, began, last, ?_,
    (new _ (.inr ⟨"kept", rfl⟩)).2.1⟩
  rw [byToken, if_pos rfl]
  rfl

end StakingDirectory.Service
