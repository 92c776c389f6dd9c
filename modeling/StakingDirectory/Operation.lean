/-
**Operations on a state.**

An operation on a state gives a value or is refused, and leaves a state in both cases: what was
changed before a refusal stays changed.

* `Operation.within` runs an operation on a part of a larger state;
* `Operation.demand` is refused where a check is.
-/

import StakingDirectory.Refusal

namespace StakingDirectory

/-- Gives a value or is refused, and leaves a state in both cases. -/
abbrev Operation (σ α : Type) : Type := EStateM Refusal σ α

namespace Operation

variable {σ τ α : Type}

/-- The value of a check, or its refusal. -/
def demand (check : Except Refusal α) : Operation σ α :=
  match check with
  | .ok value => pure value
  | .error refusal => throw refusal

/-- An operation on the part of a state that is viewed and put back. -/
def within (view : σ → τ) (put : τ → σ → σ) (operation : Operation τ α) : Operation σ α :=
  fun state =>
    match operation (view state) with
    | .ok value part => .ok value (put part state)
    | .error refusal part => .error refusal (put part state)

/-- What an operation gives, and the state it leaves. -/
def outcome (operation : Operation σ α) (state : σ) : Except Refusal α × σ :=
  match operation state with
  | .ok value state => (.ok value, state)
  | .error refusal state => (.error refusal, state)

end Operation

end StakingDirectory
