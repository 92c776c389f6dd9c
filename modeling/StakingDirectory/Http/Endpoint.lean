/-
**The endpoints.**

Nodes use the endpoints under `/api` and, all the same, under `/api/dev`; those under `/admin` set
things up. `HEAD` is answered like `GET`, without a body.

* `Endpoint.find` finds the endpoint of a method and a path;
* `Endpoint.sections` says how each endpoint serves a request, and in which order it looks at what
  the request carries;
* `Request.sections` is how any request is served.
-/

import StakingDirectory.Http.Section
import StakingDirectory.Record.Message
import StakingDirectory.Text.Numeral

namespace StakingDirectory

/-- What can be asked for. -/
inductive Endpoint where
  | beginSession
  | login
  | registerNode
  | publishedSet
  | uploadDeposits
  | setVersion
  | statuses
  | uploadExits
  | addUser
  | whitelistNode
  | addVault
  | takeSnapshot
  | revertToSnapshot
  | cycleSet
deriving DecidableEq, Repr

namespace Endpoint

/-! ### Paths -/

/-- The endpoints that nodes use, by path and method. -/
def nodeRoutes : List (String × List (String × Endpoint)) :=
  [("/nonce", [("GET", .beginSession)]),
   ("/login", [("POST", .login)]),
   ("/node-address", [("POST", .registerNode)]),
   ("/deposit-data", [("GET", .publishedSet), ("POST", .uploadDeposits)]),
   ("/deposit-data/meta", [("GET", .setVersion)]),
   ("/validators", [("GET", .statuses), ("PATCH", .uploadExits)])]

/-- The endpoints that set things up, by path and method. -/
def adminRoutes : List (String × List (String × Endpoint)) :=
  [("/add-user", [("GET", .addUser)]),
   ("/whitelist-node", [("GET", .whitelistNode)]),
   ("/add-vault", [("GET", .addVault)]),
   ("/snapshot", [("GET", .takeSnapshot)]),
   ("/revert", [("GET", .revertToSnapshot)]),
   ("/cycle-set", [("GET", .cycleSet)])]

/-- All endpoints by full path and method. -/
def routes : List (String × List (String × Endpoint)) :=
  let under (root : String) := List.map fun route => (root ++ route.1, route.2)
  under "/api" nodeRoutes ++ under "/api/dev" nodeRoutes ++ under "/admin" adminRoutes

/-- What stands at a method and a path. -/
inductive Found where
  | endpoint (endpoint : Endpoint)
  | noPath
  | noMethod
deriving DecidableEq, Repr

/-- The endpoint of a method and a path. -/
def find (method path : String) : Found :=
  match routes.lookup path with
  | none => .noPath
  | some methods =>
    match methods.lookup (if method = "HEAD" then "GET" else method) with
    | none => .noMethod
    | some endpoint => .endpoint endpoint

/-! ### What requests carry -/

/-- The body of a request. -/
def readBody {α : Type} (codec : Json.Codec α) (request : Request) : Except Refusal α :=
  match codec.decode (Utf8.scan request.body) with
  | .ok value => .ok value
  | .error fault => .error (.invalidInput (.body fault))

/-- The address that a field of a body spells. -/
def readAddress (field text : String) : Except Refusal Address :=
  match FixedBytes.ofHex text with
  | .ok address => .ok address
  | .error fault => .error (.invalidInput (.address field text fault))

/-- The bytes of a signature. -/
def readSignature (text : String) : Except Refusal Bytes :=
  match Signature.ofHex text with
  | .ok bytes => .ok bytes
  | .error _ => .error (.invalidInput .signature)

/-- The limit that a query sets. -/
def readLimit (query : Query) : Except Refusal Nat := do
  let text ← query.require "user-limit"
  match Text.readNumeral UInt64.size text with
  | some limit => return limit
  | none => throw (.invalidInput (.userLimit text))

/-- The vault and network that a query names, the network looked at first. -/
def readVault (query : Query) : Except Refusal (Address × String) := do
  let network ← query.require "network"
  let vault ← query.requireAddress "vault"
  return (vault, network)

/-! ### Serving -/

/-- Accepts a good signature. -/
def acceptSignature (check : Except Signature.Fault Unit) : Except Refusal Unit :=
  match check with
  | .ok () => .ok ()
  | .error fault => .error (.invalidSignature fault)

/-- The node whose session the request acts in. -/
def authenticate (request : Request) (service : Service) : Except Refusal Address := do
  service.authenticate (← Bearer.token request.headers)

/-- Logs a session in. -/
def serveLogin (request : Request) : Except Refusal Sections := do
  let login ← readBody LoginRequest.codec request
  let token ← Bearer.token request.headers
  let node ← readAddress "address" login.address
  let signature ← readSignature login.signature
  acceptSignature (Signature.verifyLogin login.nonce node signature)
  return .one <|
    .changing (Service.onLive (Service.loginLive token login.nonce node)) fun result =>
      .data TokenGrant.codec (result.map TokenGrant.mk)

/-- Registers a node. Between the check and the registration the signature is looked at. -/
def serveRegistration (request : Request) : Except Refusal Sections := do
  let registration ← readBody RegistrationRequest.codec request
  let node ← readAddress "node address" registration.node
  let signature ← readSignature registration.signature
  let email := registration.email
  return .checked (fun service => service.directory.checkRegistration email node) fun _ => do
    acceptSignature (Signature.verifyRegistration email node signature)
    return .changing (Service.onDirectory (Directory.registerNode email node))
      (.served "node registered")

/-- Serves a request at an endpoint. -/
def sections (mint : Mint) (request : Request) (endpoint : Endpoint) : Sections :=
  let query := Query.parse request.query
  let change {α : Type} (operation : Operation Directory α) (message : String) : Act :=
    .changing (Service.onDirectory operation) (.served message)
  match endpoint with
  | .beginSession =>
    .one <| .changing (Service.createSession mint) fun result =>
      .data NonceGrant.codec (result.map fun session => ⟨session.nonce, session.token⟩)
  | .login => .orRefuse (serveLogin request)
  | .registerNode => .orRefuse (serveRegistration request)
  | .uploadDeposits =>
    .checked (authenticate request) fun node => do
      let batch ← readBody Deposit.codec.list request
      return change (Directory.uploadDeposits node batch) "deposit data uploaded"
  | .publishedSet =>
    .checked (authenticate request) fun _ => do
      let (vault, network) ← readVault query
      return .reading fun service =>
        .data PublishedSet.codec
          ((service.publishedSet vault network).map fun found => ⟨found.1, found.2⟩)
  | .setVersion =>
    .checked (authenticate request) fun _ => do
      let (vault, network) ← readVault query
      return .reading fun service =>
        .data SetVersion.codec ((service.setVersion vault network).map SetVersion.mk)
  | .statuses =>
    .checked (authenticate request) fun node => do
      let network ← query.require "network"
      return .reading fun service =>
        .data StatusList.codec ((service.directory.statuses node network).map StatusList.mk)
  | .uploadExits =>
    .checked (authenticate request) fun node => do
      let network ← query.require "network"
      let batch ← readBody ExitEntry.codec.list request
      return change (Directory.uploadExits node network batch) "signed exits uploaded"
  | .addUser => .orRefuse do
    let email ← query.require "email"
    return .one (change (Directory.addUser email) "user added")
  | .whitelistNode => .orRefuse do
    let email ← query.require "email"
    let address ← query.requireAddress "address"
    return .one (change (Directory.whitelistNode email address) "node whitelisted")
  | .addVault => .orRefuse do
    let address ← query.requireAddress "address"
    let network ← query.require "network"
    return .one (change (Directory.addVault address network) "vault added")
  | .takeSnapshot => .orRefuse do
    let name ← query.require "name"
    return .one <| .changing (modify (Service.takeSnapshot name)) (.served "snapshot taken")
  | .revertToSnapshot => .orRefuse do
    let name ← query.require "name"
    return .one <| .changing (Service.revertToSnapshot name) (.served "reverted to snapshot")
  | .cycleSet => .orRefuse do
    let vault ← query.requireAddress "vault"
    let network ← query.require "network"
    let limit ← readLimit query
    return .one <| .changing (Service.onDirectory (Directory.cycleSet vault network limit))
      fun result => .data SetVersion.codec (result.map SetVersion.mk)

end Endpoint

/-- How a request is served. -/
def Request.sections (mint : Mint) (request : Request) : Sections :=
  match Endpoint.find request.method request.path with
  | .noPath => .none { status := 404 }
  | .noMethod => .none { status := 405 }
  | .endpoint endpoint =>
    let sections := endpoint.sections mint request
    if request.method = "HEAD" then sections.mapAnswer Answer.bodiless else sections

end StakingDirectory
