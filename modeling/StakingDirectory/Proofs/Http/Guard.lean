/-
**Who is not let in learns nothing.**

The endpoints at which nodes hand in and look up what concerns validators ask first for whom the
request acts, before they look at its query or its body.

* `Endpoint.guarded` lists the methods and paths of these endpoints;
* `Endpoint.run_guarded`: where the caller is refused, the refusal is all that there is to an
  answer;
* `stranger_learns_nothing`: hence the answer to a caller who is not let in hangs neither on what
  the request carries besides its headers nor on what the directory holds, and nothing is changed.
-/

import StakingDirectory.Proofs.Http.Bearer
import StakingDirectory.Proofs.Http.Effects

namespace StakingDirectory

open Operation

variable {mint : Mint} {service : Service} {request : Request}

/-! ### Refusals -/

/-- A token acts for nobody: the caller is unknown. -/
theorem Service.status_of_authenticate {token : String} {refusal : Refusal}
    (refused : service.authenticate token = .error refusal) : refusal.status = 401 := by
  unfold Service.authenticate at refused
  split at refused
  · cases refused
    rfl
  · split at refused
    · split at refused <;> cases refused
      rfl
    · cases refused
      rfl

/-- The headers carry no token: the caller is unknown. -/
theorem Bearer.status_of_token {headers : List Bearer.Header} {refusal : Refusal}
    (refused : Bearer.token headers = .error refusal) : refusal.status = 401 := by
  rcases Bearer.token_eq_error refused with rfl | rfl <;> rfl

namespace Endpoint

theorem status_of_authenticate {refusal : Refusal}
    (refused : authenticate request service = .error refusal) : refusal.status = 401 := by
  unfold authenticate at refused
  cases carried : Bearer.token request.headers with
  | error fault =>
    rw [carried] at refused
    cases refused
    exact Bearer.status_of_token carried
  | ok token =>
    rw [carried] at refused
    exact Service.status_of_authenticate refused

/-! ### Guarded endpoints -/

/-- The methods and paths at which a request is served only for a registered node. -/
def guarded : List (String × String) :=
  ["/api", "/api/dev"].flatMap fun root =>
    [("GET", root ++ "/deposit-data"), ("HEAD", root ++ "/deposit-data"),
      ("POST", root ++ "/deposit-data"),
      ("GET", root ++ "/deposit-data/meta"), ("HEAD", root ++ "/deposit-data/meta"),
      ("GET", root ++ "/validators"), ("HEAD", root ++ "/validators"),
      ("PATCH", root ++ "/validators")]

theorem find_guarded : ∀ call ∈ guarded,
    find call.1 call.2 ∈
      [.endpoint .publishedSet, .endpoint .uploadDeposits, .endpoint .setVersion,
        .endpoint .statuses, .endpoint .uploadExits] := by
  decide

/-- **A guarded endpoint asks first for whom the request acts.** -/
theorem run_guarded {endpoint : Endpoint} {refusal : Refusal}
    (known : endpoint ∈ [publishedSet, uploadDeposits, setVersion, statuses, uploadExits])
    (refused : authenticate request service = .error refusal) :
    (endpoint.sections mint request).run service = (.refuse refusal, service) := by
  have stopped : ∀ act : Address → Except Refusal Act,
      (Sections.checked (authenticate request) act).run service = (.refuse refusal, service) := by
    intro act
    rw [Sections.run_checked, refused, error_bind]
  simp only [List.mem_cons, List.not_mem_nil, or_false] at known
  rcases known with rfl | rfl | rfl | rfl | rfl <;> exact stopped _

end Endpoint

/-! ### Requests -/

/-- **Who is not let in learns nothing.** In every state of the service, let the headers of a
request at a guarded method and path act for no node. Then there is one answer, with status 401,
which is given whatever the query and the body are, and which is given by every other service that
refuses these headers for the same cause, whatever vaults, networks and validators it holds. Nothing
is changed by that. -/
theorem stranger_learns_nothing (mint : Mint) (service : Service) (request : Request)
    (guarded : (request.method, request.path) ∈ Endpoint.guarded)
    (stranger : ∀ node, Endpoint.authenticate request service ≠ .ok node) :
    ∃ answer : Answer, answer.status = 401 ∧
      ∀ other : Service,
        Endpoint.authenticate request other = Endpoint.authenticate request service →
        ∀ (query : String) (body : Bytes),
          Request.serve mint { request with query, body } other = (answer, other) := by
  cases refused : Endpoint.authenticate request service with
  | ok node => exact absurd refused (stranger node)
  | error refusal =>
    have status := Endpoint.status_of_authenticate refused
    -- What is found at the path may still drop the body of the answer.
    refine ⟨if request.method = "HEAD" then (Answer.refuse refusal).bodiless else .refuse refusal,
      ?_, fun other alike query body => ?_⟩
    · split <;> exact status
    · obtain ⟨endpoint, known, found⟩ : ∃ endpoint : Endpoint,
          endpoint ∈ [.publishedSet, .uploadDeposits, .setVersion, .statuses, .uploadExits] ∧
            Endpoint.find request.method request.path = .endpoint endpoint := by
        have found := Endpoint.find_guarded _ guarded
        simp only [List.mem_cons, List.not_mem_nil, or_false] at found
        rcases found with found | found | found | found | found <;>
          exact ⟨_, by decide, found⟩
      have stopped : (endpoint.sections mint { request with query, body }).run other =
          (.refuse refusal, other) := Endpoint.run_guarded known alike
      unfold Request.serve Request.sections
      simp only [found]
      split
      · rw [Sections.run_mapAnswer, stopped]
      · exact stopped

/-- A vault is set up, and a session begins in which nobody has logged in. -/
def begunSession : Service :=
  .played .numbered [.change (.addVault Signature.firstAccount "holesky"), .createSession]

/-- Deposits are handed in with the token of that session. -/
def strangerPost : Request where
  method := "POST"
  path := "/api/dev/deposit-data"
  query := ""
  headers := [("Authorization", Bytes.ofText (Bearer.value (Mint.numbered 0)))]

/-- Whether the body is a list of deposits is not told before the login. -/
theorem stranger_learns_nothing_begunSession :
    (strangerPost.method, strangerPost.path) ∈ Endpoint.guarded ∧
    (∀ node, Endpoint.authenticate strangerPost begunSession ≠ .ok node) ∧
    ∃ answer : Answer, answer.status = 401 ∧ ∀ body : Bytes,
      Request.serve .numbered { strangerPost with body } begunSession = (answer, begunSession) := by
  have guarded : (strangerPost.method, strangerPost.path) ∈ Endpoint.guarded := by decide
  have refused : Endpoint.authenticate strangerPost begunSession = .error .notLoggedIn := by
    decide +kernel
  have stranger : ∀ node, Endpoint.authenticate strangerPost begunSession ≠ .ok node := by
    intro node known
    cases refused.symm.trans known
  obtain ⟨answer, status, served⟩ :=
    stranger_learns_nothing .numbered begunSession strangerPost guarded stranger
  exact ⟨guarded, stranger, answer, status, served begunSession rfl ""⟩

end StakingDirectory
