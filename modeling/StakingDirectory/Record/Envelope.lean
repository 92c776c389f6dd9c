/-
**The envelope of an answer.**

Every answer has the same shape: whether the request was served, a message, data, and the key of an
error. An empty message, absent data and an empty key are not written.
-/

import StakingDirectory.Json.Codec

namespace StakingDirectory

/-- An answer around data of one type. -/
structure Envelope (α : Type) where
  ok : Bool
  message : String
  data : Option α
  error : String
deriving DecidableEq

namespace Envelope

variable {α : Type}

/-- The request was served with data. -/
def success (data : α) : Envelope α := ⟨true, "", some data, ""⟩

/-- The request was served, with a message. -/
def served (message : String) : Envelope α := ⟨true, message, none, ""⟩

/-- The request was refused. -/
def failure (key message : String) : Envelope α := ⟨false, message, none, key⟩

open Json in
/-- The JSON form of an envelope around data in a JSON form. -/
def codec (data : Codec α) : Codec (Envelope α) :=
  (Fields.field "ok" Codec.flag .required <|
    Fields.field "message" Codec.text (.defaultTo "") <|
    Fields.field "data" data.optional .optional <|
    Fields.field "error" Codec.text (.defaultTo "") Fields.done).record.map
    (fun (ok, message, data, error, ()) => ⟨ok, message, data, error⟩)
    (fun envelope => (envelope.ok, envelope.message, envelope.data, envelope.error, ()))

end Envelope

end StakingDirectory
