/-
**Requests and answers.**

* `Request.ofTarget` takes the target of a request apart into path and query;
* an answer is a status and a body; `Answer.refuse`, `Answer.data` and `Answer.served` put the
  envelope around what is told.
-/

import StakingDirectory.Http.Bearer
import StakingDirectory.Http.Query
import StakingDirectory.Record.Envelope

namespace StakingDirectory

/-- A request. -/
structure Request where
  method : String
  path : String
  query : String
  headers : List Bearer.Header := []
  body : Bytes := []

/-- The request for a target, which is a path and, behind a question mark, a query. -/
def Request.ofTarget (method target : String) (headers : List Bearer.Header) (body : Bytes) :
    Request :=
  let target := target.toList.takeWhile (· ≠ '#')
  { method
    path := String.ofList (target.takeWhile (· ≠ '?'))
    query := String.ofList ((target.dropWhile (· ≠ '?')).drop 1)
    headers
    body }

/-- An answer: its status and its body, if it has one. -/
structure Answer where
  status : Nat
  body : Option Json := none

namespace Answer

/-- The answer that tells of a refusal. -/
def refuse (refusal : Refusal) : Answer :=
  let envelope : Envelope String := .failure refusal.key refusal.message
  { status := refusal.status, body := some ((Envelope.codec Json.Codec.text).write envelope) }

/-- The answer with data, or the refusal. -/
def data {α : Type} (codec : Json.Codec α) : Except Refusal α → Answer
  | .ok value => { status := 200, body := some ((Envelope.codec codec).write (.success value)) }
  | .error refusal => refuse refusal

/-- The answer with a message, or the refusal. -/
def served {α : Type} (message : String) : Except Refusal α → Answer
  | .ok _ =>
    let envelope : Envelope String := .served message
    { status := 200, body := some ((Envelope.codec Json.Codec.text).write envelope) }
  | .error refusal => refuse refusal

/-- The answer without its body. -/
def bodiless (answer : Answer) : Answer := { answer with body := none }

end Answer

end StakingDirectory
