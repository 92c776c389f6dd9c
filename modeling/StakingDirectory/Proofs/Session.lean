/-
**Sessions and their two indices.**

* `outcome_begin` and `outcome_login` say what the operations on sessions do;
* `Consistent` says that sessions are found by their tokens and by their nonces, that a nonce
  belongs to its token, and that a session is logged in exactly when it has a node;
* a session that begins with a token and a nonce of its own keeps this, and so does a login;
* a token that is presented with its nonce leads to one session through both indices
  (`Consistent.same_of_nonce`).
-/

import StakingDirectory.Proofs.Index
import StakingDirectory.Proofs.Outcome
import StakingDirectory.Session

namespace StakingDirectory

/-- The session after a node logged in to it. -/
def Session.withNode (session : Session) (node : Address) : Session :=
  { session with node := some node, loggedIn := true }

namespace Sessions

open Operation

variable {sessions : Sessions}

/-! ### What the operations do -/

/-- The sessions, and one that begins with a token. -/
def withBegun (sessions : Sessions) (token : String) : Sessions :=
  { list := sessions.list ++ [Session.begin token]
    byNonce := sessions.byNonce.insert (Session.begin token).nonce sessions.list.length
    byToken := sessions.byToken.insert (Session.begin token).token sessions.list.length }

/-- What holds of the sessions and of the one that begins. -/
theorem forall_withBegun {P : Session → Prop} {token : String}
    (before : ∀ session ∈ sessions.list, P session) (begun : P (.begin token)) :
    ∀ session ∈ (sessions.withBegun token).list, P session := by
  intro session member
  rcases List.mem_append.mp member with known | last
  · exact before session known
  · rw [List.mem_singleton.mp last]
    exact begun

theorem outcome_begin (token : String) (sessions : Sessions) :
    (begin token).outcome sessions = (.ok (.begin token), sessions.withBegun token) := rfl

/-- The session that a node may log in to, and its place. -/
def checkLogin (sessions : Sessions) (nonce : String) (node : Address) (registered : Bool) :
    Except Refusal (Nat × Session) :=
  match sessions.byNonce[nonce]? with
  | none => .error (.noSuchSession nonce)
  | some place =>
    match sessions.list[place]? with
    | none => .error (.noSuchSession nonce)
    | some session =>
      if session.loggedIn then .error .alreadyLoggedIn
      else if !registered then .error (.unregisteredNode node)
      else .ok (place, session)

/-- The sessions after a node logged in to the one at a place. -/
def withLogin (sessions : Sessions) (place : Nat) (session : Session) (node : Address) :
    Sessions :=
  { sessions with list := sessions.list.set place (session.withNode node) }

/-- What holds of the sessions and of the one that the node logged in to. -/
theorem forall_withLogin {P : Session → Prop} {place : Nat} {session : Session} {node : Address}
    (before : ∀ other ∈ sessions.list, P other) (changed : P (session.withNode node)) :
    ∀ other ∈ (sessions.withLogin place session node).list, P other := by
  intro other member
  rcases List.mem_or_eq_of_mem_set member with known | same
  · exact before other known
  · rw [same]
    exact changed

theorem outcome_login (nonce : String) (node : Address) (registered : Bool)
    (sessions : Sessions) :
    (login nonce node registered).outcome sessions =
      settled (sessions.checkLogin nonce node registered)
        (fun (place, session) => ((), sessions.withLogin place session node)) sessions := by
  unfold login checkLogin
  simp only [outcome_bind, outcome_get]
  cases sessions.byNonce[nonce]? with
  | none => rfl
  | some place =>
    simp only
    cases sessions.list[place]? with
    | none => rfl
    | some session =>
      by_cases loggedIn : session.loggedIn = true
      · simp only [loggedIn, if_true]
        rfl
      · simp only [loggedIn]
        cases registered <;> rfl

/-- A node may log in to a session once, if it is registered. -/
theorem checkLogin_eq_ok {nonce : String} {node : Address} {registered : Bool} {place : Nat}
    {session : Session} :
    sessions.checkLogin nonce node registered = .ok (place, session) ↔
      sessions.byNonce[nonce]? = some place ∧ sessions.list[place]? = some session ∧
        session.loggedIn = false ∧ registered = true := by
  unfold checkLogin
  cases sessions.byNonce[nonce]? with
  | none => simp
  | some other =>
    simp only [Option.some.injEq]
    cases there : sessions.list[other]? with
    | none =>
      refine iff_of_false (by simp) ?_
      rintro ⟨rfl, found, -⟩
      rw [there] at found
      cases found
    | some found =>
      constructor
      · intro passed
        by_cases loggedIn : found.loggedIn = true
        · simp [loggedIn] at passed
        · cases registered with
          | false => simp [loggedIn] at passed
          | true =>
            simp only [loggedIn, Bool.not_true] at passed
            cases passed
            exact ⟨rfl, there, by simpa using loggedIn, rfl⟩
      · rintro ⟨rfl, same, waiting, rfl⟩
        rw [there] at same
        cases same
        simp [waiting]

/-! ### The invariant -/

/-- **Sessions are found by token and by nonce, and are what they seem.** -/
structure Consistent (sessions : Sessions) : Prop where
  byToken : Indexes sessions.byToken sessions.list Session.token
  byNonce : Indexes sessions.byNonce sessions.list Session.nonce
  /-- A nonce is the digest of the token. -/
  nonce : ∀ session ∈ sessions.list, session.nonce = Session.nonceOf session.token
  /-- A session is logged in exactly when it has a node. -/
  node : ∀ session ∈ sessions.list, session.loggedIn = session.node.isSome

theorem consistent_empty : Consistent {} where
  byToken token position := by simp
  byNonce nonce position := by simp
  nonce _ member := absurd member List.not_mem_nil
  node _ member := absurd member List.not_mem_nil

/-- A session begins with a token and a nonce that no other session has. -/
theorem Consistent.withBegun (consistent : Consistent sessions) {token : String}
    (fresh : ∀ session ∈ sessions.list,
      session.token ≠ token ∧ session.nonce ≠ Session.nonceOf token) :
    Consistent (sessions.withBegun token) where
  byToken := consistent.byToken.append _ fun session member => (fresh session member).1
  byNonce := consistent.byNonce.append _ fun session member => (fresh session member).2
  nonce := forall_withBegun consistent.nonce rfl
  node := forall_withBegun consistent.node rfl

/-- A login changes neither the token nor the nonce of a session. -/
theorem Consistent.withLogin (consistent : Consistent sessions) {place : Nat} {session : Session}
    (there : sessions.list[place]? = some session) (node : Address) :
    Consistent (sessions.withLogin place session node) where
  byToken := consistent.byToken.set there rfl
  byNonce := consistent.byNonce.set there rfl
  nonce :=
    have member := List.mem_of_getElem? there
    forall_withLogin consistent.nonce (consistent.nonce session member)
  node := forall_withLogin consistent.node rfl

/-- A token leads to a session that has it. -/
theorem Consistent.withToken? (consistent : Consistent sessions) {token : String}
    {session : Session} (found : sessions.withToken? token = some session) :
    session ∈ sessions.list ∧ session.token = token := by
  obtain ⟨position, known, there⟩ := Option.bind_eq_some_iff.mp found
  have named := (consistent.byToken _ _).mp known
  rw [there, Option.map_some, Option.some.injEq] at named
  exact ⟨List.mem_of_getElem? there, named⟩

/-- **A nonce leads to the session that has it.** -/
theorem Consistent.same_of_nonce (consistent : Consistent sessions) {session other : Session}
    {place : Nat} (member : session ∈ sessions.list)
    (known : sessions.byNonce[session.nonce]? = some place)
    (there : sessions.list[place]? = some other) : other = session := by
  obtain ⟨position, found⟩ := List.getElem?_of_mem member
  have again : sessions.byNonce[session.nonce]? = some position :=
    (consistent.byNonce _ _).mpr (by rw [found, Option.map_some])
  rw [known, Option.some.injEq] at again
  rw [again, found, Option.some.injEq] at there
  exact there.symm

end Sessions

end StakingDirectory
