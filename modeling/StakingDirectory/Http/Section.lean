/-
**How requests touch the service.**

A request touches the service in at most two sections, each of which runs undivided; between the
two, other requests may come in.

* `Sections.run` runs all sections of a request at one go;
* `Sections.reading` and `Sections.changing` are requests of one section;
* `Sections.checked` is a request that first looks and then acts.
-/

import StakingDirectory.Http.Message
import StakingDirectory.Service

namespace StakingDirectory

/-- What a request does to the service in one section, and its answer. -/
abbrev Act := Service → Answer × Service

/-- The sections of a request. -/
inductive Sections where
  /-- The answer does not hang on the service. -/
  | none (answer : Answer)
  /-- One section. -/
  | one (act : Act)
  /-- A look that changes nothing and gives an answer, or the act of a second section. -/
  | two (look : Service → Except Answer Act)

namespace Act

variable {α : Type}

/-- Answers from the service as it is. -/
def reading (answer : Service → Answer) : Act := fun service => (answer service, service)

/-- Runs an operation and answers with its outcome. -/
def changing (operation : Operation Service α) (answer : Except Refusal α → Answer) : Act :=
  fun service =>
    let (result, service) := operation.outcome service
    (answer result, service)

/-- Changes the answer. -/
def mapAnswer (change : Answer → Answer) (act : Act) : Act := fun service =>
  let (answer, service) := act service
  (change answer, service)

end Act

namespace Sections

/-- Runs all sections of a request at one go. -/
def run : Sections → Act
  | .none answer, service => (answer, service)
  | .one act, service => act service
  | .two look, service =>
    match look service with
    | .error answer => (answer, service)
    | .ok act => act service

/-- Changes the answer. -/
def mapAnswer (change : Answer → Answer) : Sections → Sections
  | .none answer => .none (change answer)
  | .one act => .one (act.mapAnswer change)
  | .two look => .two fun service =>
    match look service with
    | .error answer => .error (change answer)
    | .ok act => .ok (act.mapAnswer change)

/-- The sections that were found, or none and a refusal. -/
def orRefuse : Except Refusal Sections → Sections
  | .ok sections => sections
  | .error refusal => .none (.refuse refusal)

/-- Looks first and then acts, unless one of both is refused before it began. -/
def checked {α : Type} (look : Service → Except Refusal α) (act : α → Except Refusal Act) :
    Sections :=
  .two fun service =>
    match look service >>= act with
    | .ok act => .ok act
    | .error refusal => .error (.refuse refusal)

end Sections

end StakingDirectory
