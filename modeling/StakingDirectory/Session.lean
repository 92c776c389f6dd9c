/-
**Login sessions.**

A session begins with a token and a nonce, which is the digest of the token. A node signs the nonce,
logs the session in, and from then on acts with the token.

* `Session.begin` is the session of a token;
* sessions stand in the order they began, and are found by nonce and by token through two indices;
* `Sessions.login` logs a session in once, for a registered node.
-/

import StakingDirectory.Operation

namespace StakingDirectory

/-- A session, and the node it is logged in as. -/
structure Session where
  nonce : String
  token : String
  node : Option Address := none
  loggedIn : Bool := false
deriving DecidableEq

namespace Session

/-- The nonce of a token: its digest. -/
def nonceOf (token : String) : String :=
  Hex.marked (Sha256.digest (Bytes.ofText token))

/-- The session that begins with a token. -/
def begin (token : String) : Session :=
  { nonce := nonceOf token, token }

end Session

/-- The sessions in the order they began. -/
structure Sessions where
  list : List Session := []
  byNonce : Std.ExtTreeMap String Nat := ∅
  byToken : Std.ExtTreeMap String Nat := ∅
deriving DecidableEq

namespace Sessions

/-- The session with this nonce. -/
def withNonce? (sessions : Sessions) (nonce : String) : Option Session := do
  sessions.list[← sessions.byNonce[nonce]?]?

/-- The session with this token. -/
def withToken? (sessions : Sessions) (token : String) : Option Session := do
  sessions.list[← sessions.byToken[token]?]?

/-- Begins a session with a token. -/
def begin (token : String) : Operation Sessions Session := do
  let sessions ← get
  let session := Session.begin token
  let place := sessions.list.length
  set ({ list := sessions.list ++ [session]
         byNonce := sessions.byNonce.insert session.nonce place
         byToken := sessions.byToken.insert session.token place } : Sessions)
  return session

/-- Logs a session in as a node, given whether the node is registered. -/
def login (nonce : String) (node : Address) (registered : Bool) : Operation Sessions Unit := do
  let sessions ← get
  match sessions.byNonce[nonce]? with
  | none => throw (.noSuchSession nonce)
  | some place =>
    match sessions.list[place]? with
    | none => throw (.noSuchSession nonce)
    | some session =>
      if session.loggedIn then throw .alreadyLoggedIn
      if !registered then throw (.unregisteredNode node)
      set { sessions with
        list := sessions.list.set place { session with node := some node, loggedIn := true } }

end Sessions

end StakingDirectory
