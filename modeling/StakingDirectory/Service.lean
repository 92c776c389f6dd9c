/-
**The directory as a service.**

The service keeps a directory and its sessions under one state, with named versions of it, and
counts the tokens it has issued. The count is not part of the state: no version brings it back.

* `onDirectory`, `onSessions` run an operation on the live state;
* `registerNode` and `login` look at signatures, in a fixed order with the other checks;
* `authenticate` finds the registered node that a token acts for.
-/

import StakingDirectory.Archive
import StakingDirectory.Session
import StakingDirectory.Directory.Allotment
import StakingDirectory.Directory.Membership
import StakingDirectory.Directory.Standing

namespace StakingDirectory

/-- A directory and its sessions. -/
structure State where
  directory : Directory := {}
  sessions : Sessions := {}
deriving DecidableEq

instance : Inhabited State := ⟨{}⟩

/-- Named versions of a state, and how many tokens were issued. -/
structure Service where
  archive : Archive State := .ofState default
  issued : Nat := 0

/-- Gives the token for each number. -/
abbrev Mint : Type := Nat → String

/-- Tokens in the text form of a random identifier, numbered in its last part. -/
def Mint.numbered : Mint := fun number =>
  let digits := Nat.toDigits 16 number
  "00000000-0000-4000-8000-" ++ String.ofList (List.replicate (12 - digits.length) '0' ++ digits)

namespace Service

variable {α : Type}

/-- The live state. -/
def live (service : Service) : State := service.archive.liveState

/-- The live directory. -/
def directory (service : Service) : Directory := service.live.directory

/-! ### Parts of the service -/

/-- Runs an operation on the live state. -/
def onLive (operation : Operation State α) : Operation Service α :=
  operation.within live fun state service =>
    { service with archive := service.archive.withLive state }

/-- Runs an operation on the live directory. -/
def onDirectory (operation : Operation Directory α) : Operation Service α :=
  onLive (operation.within State.directory fun directory state => { state with directory })

/-- Runs an operation on the live sessions. -/
def onSessions (operation : Operation Sessions α) : Operation Service α :=
  onLive (operation.within State.sessions fun sessions state => { state with sessions })

/-! ### Versions -/

/-- Names a copy of the live state. -/
def takeSnapshot (name : String) (service : Service) : Service :=
  { service with archive := service.archive.take name }

/-- Makes the state of a name live. -/
def revertToSnapshot (name : String) : Operation Service Unit :=
  (Archive.revert name).within archive fun archive service => { service with archive }

/-- Makes another state live. -/
def setState (state : State) (service : Service) : Service :=
  { service with archive := service.archive.replace state }

/-- The service on another state, without any versions. -/
def restart (state : State) (service : Service) : Service :=
  { service with archive := .ofState state }

/-! ### Registration and sessions -/

/-- Accepts a check of a signature. -/
def demandSignature (check : Except Signature.Fault Unit) : Operation Service Unit :=
  match check with
  | .ok () => pure ()
  | .error fault => throw (.invalidSignature fault)

/-- Registers a node that signed for it. Whether the node may be registered is looked at before the
signature. -/
def registerNode (email : String) (node : Address) (signature : Bytes) :
    Operation Service Unit := do
  let _ ← Operation.demand ((← get).directory.checkRegistration email node)
  demandSignature (Signature.verifyRegistration email node signature)
  onDirectory (Directory.registerNode email node)

/-- Begins a session with a new token. -/
def createSession (mint : Mint) : Operation Service Session := do
  let token := mint (← get).issued
  modify fun service => { service with issued := service.issued + 1 }
  onSessions (Sessions.begin token)

/-- Logs in the session of the token that the nonce was issued with, once the signature is found
good. -/
def loginLive (token nonce : String) (node : Address) : Operation State String := do
  let state ← get
  match state.sessions.withToken? token with
  | none => throw .invalidSession
  | some session =>
    if session.nonce ≠ nonce then throw (.noSuchSession nonce)
    (Sessions.login nonce node (state.directory.isRegistered node)).within State.sessions
      fun sessions state => { state with sessions }
    return session.token

/-- Logs a session in as a node that signed its nonce; gives the token to go on with. -/
def login (token nonce : String) (node : Address) (signature : Bytes) :
    Operation Service String := do
  demandSignature (Signature.verifyLogin nonce node signature)
  onLive (loginLive token nonce node)

/-- The registered node that a token acts for. -/
def authenticate (service : Service) (token : String) : Except Refusal Address :=
  match service.live.sessions.withToken? token with
  | none => .error .invalidSession
  | some session =>
    match session.loggedIn, session.node with
    | true, some node =>
      if service.directory.isRegistered node then .ok node else .error (.unregisteredNode node)
    | _, _ => .error .notLoggedIn

/-! ### Published sets -/

/-- The version of the latest set of a vault. -/
def setVersion (service : Service) (vault : Address) (network : String) :
    Except Refusal UInt64 := do
  return (← service.directory.requireVault vault network).latestIndex

/-- The latest set of a vault with its version. -/
def publishedSet (service : Service) (vault : Address) (network : String) :
    Except Refusal (UInt64 × List Deposit) := do
  let vault ← service.directory.requireVault vault network
  return (vault.latestIndex, vault.latestSet)

end Service

end StakingDirectory
