/-
**What a request may change.**

* `Request.serve` serves a request at one go;
* `Endpoint.find_look` and `Endpoint.find_dev` say what the table of paths holds: looks at published
  sets and statuses, and the same endpoints under both roots;
* `request_effects`: a request that is not answered with status 200 leaves the whole service as it
  was, a look does so anyway, answers are honest, and both roots serve alike.
-/

import StakingDirectory.Proofs.Http.Act
import StakingDirectory.Proofs.Text.Hex

namespace StakingDirectory

open Operation

/-- Serves a request at one go. -/
def Request.serve (mint : Mint) (request : Request) : Act :=
  (request.sections mint).run

/-! ### Paths -/

namespace Endpoint

/-- Published sets, versions and statuses are looked at under both roots. -/
def lookPaths : List String :=
  ["/api/deposit-data", "/api/deposit-data/meta", "/api/validators",
    "/api/dev/deposit-data", "/api/dev/deposit-data/meta", "/api/dev/validators"]

theorem find_look : ∀ method ∈ ["GET", "HEAD"], ∀ path ∈ lookPaths,
    find method path ∈
      [.endpoint .publishedSet, .endpoint .setVersion, .endpoint .statuses] := by
  decide

theorem lookup_dev : ∀ route ∈ nodeRoutes.map Prod.fst,
    routes.lookup ("/api/dev" ++ route) = routes.lookup ("/api" ++ route) := by
  decide

/-- **Nodes find the same endpoints under both roots.** -/
theorem find_dev (method : String) {route : String} (member : route ∈ nodeRoutes.map Prod.fst) :
    find method ("/api/dev" ++ route) = find method ("/api" ++ route) := by
  unfold find
  rw [lookup_dev route member]

/-- An endpoint serves a request alike at all paths. -/
theorem sections_path (mint : Mint) (request : Request) (path : String) (endpoint : Endpoint) :
    endpoint.sections mint { request with path } = endpoint.sections mint request := by
  cases endpoint <;> rfl

end Endpoint

/-! ### Requests -/

/-- The request brings no version back. -/
def Request.Forward (request : Request) : Prop :=
  Endpoint.find request.method request.path ≠ .endpoint .revertToSnapshot

/-- A request of an endpoint is served as the endpoint does it, but for the body of its answer. -/
theorem Request.run_of_find (mint : Mint) {request : Request} {endpoint : Endpoint}
    (found : Endpoint.find request.method request.path = .endpoint endpoint) (service : Service) :
    ((request.sections mint).run service).1.status =
        ((endpoint.sections mint request).run service).1.status ∧
      ((request.sections mint).run service).2 =
        ((endpoint.sections mint request).run service).2 := by
  unfold Request.sections
  rw [found]
  dsimp only
  split
  · rw [Sections.run_mapAnswer]
    exact ⟨rfl, rfl⟩
  · exact ⟨rfl, rfl⟩

section Signed

variable {mint : Mint} {request : Request} {node : Address} {signature : Bytes}

theorem Endpoint.readAddress_marked (field : String) (node : Address) :
    readAddress field (Hex.marked node.bytes) = .ok node := by
  rw [readAddress, FixedBytes.ofHex, Hex.decode_marked]
  simp [FixedBytes.ofBytes, node.length_bytes]

theorem Endpoint.readSignature_marked (signature : Bytes) :
    readSignature (Hex.marked signature) = .ok signature := by
  rw [readSignature, Signature.ofHex, Hex.decode_marked]

/-- A registration with a good signature has to pass the check of the directory. -/
theorem Request.sections_registration {email : String}
    (found : Endpoint.find request.method request.path = .endpoint .registerNode)
    (bodied : request.method ≠ "HEAD")
    (body : Endpoint.readBody RegistrationRequest.codec request =
      .ok ⟨email, Hex.marked node.bytes, Hex.marked signature⟩)
    (signed : Signature.verifyRegistration email node signature = .ok ()) :
    request.sections mint =
      .checked (fun service => service.directory.checkRegistration email node) fun _ =>
        .ok (.changing (Service.onDirectory (Directory.registerNode email node))
          (.served "node registered")) := by
  have served : Endpoint.sections mint request .registerNode =
      .orRefuse (Endpoint.serveRegistration request) := rfl
  rw [Request.sections, found]
  dsimp only
  rw [if_neg bodied, served, Endpoint.serveRegistration, body, ok_bind,
    Endpoint.readAddress_marked, ok_bind, Endpoint.readSignature_marked, ok_bind]
  dsimp only
  rw [Endpoint.acceptSignature_eq_ok.mpr signed]
  rfl

/-- A login with a good signature has to find its session. -/
theorem Request.sections_login {nonce token : String}
    (found : Endpoint.find request.method request.path = .endpoint .login)
    (bodied : request.method ≠ "HEAD")
    (body : Endpoint.readBody LoginRequest.codec request =
      .ok ⟨nonce, Hex.marked node.bytes, Hex.marked signature⟩)
    (carried : Bearer.token request.headers = .ok token)
    (signed : Signature.verifyLogin nonce node signature = .ok ()) :
    request.sections mint =
      .one (.changing (Service.onLive (Service.loginLive token nonce node)) fun result =>
        .data TokenGrant.codec (result.map TokenGrant.mk)) := by
  have served : Endpoint.sections mint request .login =
      .orRefuse (Endpoint.serveLogin request) := rfl
  rw [Request.sections, found]
  dsimp only
  rw [if_neg bodied, served, Endpoint.serveLogin, body, ok_bind, carried, ok_bind,
    Endpoint.readAddress_marked, ok_bind, Endpoint.readSignature_marked, ok_bind,
    Endpoint.acceptSignature_eq_ok.mpr signed]
  rfl

end Signed

/-- **A request that is not answered with status 200 changes nothing.** -/
theorem Request.unchanged_of_refused {mint : Mint} {service : Service} {request : Request}
    (refused : (request.serve mint service).1.status ≠ 200) :
    (request.serve mint service).2 = service := by
  rcases ((request.perform mint).run service).2 with same | ⟨command, -, after, status⟩
  · exact same
  · refine after.trans ?_
    cases given : ((command.operation mint).outcome service).1 with
    | error refusal =>
      exact Service.atomic_command mint command _ _ refusal (Prod.ext given rfl)
    | ok answer =>
      rw [given] at status
      exact absurd (status.mpr rfl) refused

/-- **What a request may change.** In every state of the service, a request that is not answered
with status 200 leaves the service as it was, with its live state, its versions and their names. A
look at a published set, its version or the statuses changes nothing, whatever its status. An answer
with a body tells of success exactly when its status is 200. At every path for nodes, a request is
served alike under both roots. -/
theorem request_effects (mint : Mint) (service : Service) (request : Request) :
    ((request.serve mint service).1.status ≠ 200 → (request.serve mint service).2 = service) ∧
    (request.method ∈ ["GET", "HEAD"] → request.path ∈ Endpoint.lookPaths →
      (request.serve mint service).2 = service) ∧
    (∀ json, (request.serve mint service).1.body = some json → ∃ members,
      json = .object members ∧
        members.lookup "ok" = some (.bool (decide ((request.serve mint service).1.status = 200)))) ∧
    ∀ route ∈ Endpoint.nodeRoutes.map Prod.fst,
      Request.serve mint { request with path := "/api/dev" ++ route } service =
        Request.serve mint { request with path := "/api" ++ route } service := by
  obtain ⟨honest, done⟩ := (request.perform mint).run service
  refine ⟨Request.unchanged_of_refused, fun method path => ?_, honest, fun route member => ?_⟩
  · rcases done with same | ⟨command, ⟨endpoint, found, asked⟩, -⟩
    · exact same
    · -- These endpoints ask for no command.
      have known := Endpoint.find_look _ method _ path
      rw [found] at known
      simp only [List.mem_cons, Endpoint.Found.endpoint.injEq, List.not_mem_nil, or_false] at known
      rcases known with rfl | rfl | rfl <;> cases asked
  · unfold Request.serve Request.sections
    rw [Endpoint.find_dev request.method member]
    simp only [Endpoint.sections_path]

end StakingDirectory
