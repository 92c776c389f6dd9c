/-
**How far a validator has come.**

A status is known outside by a name in capitals; a status row is what a node is told about one of
its validators.
-/

import StakingDirectory.Record.Identifier

namespace StakingDirectory

/-- How far a validator has come. -/
inductive Status where
  /-- The directory does not know it on the network. -/
  | unknown
  /-- Its deposit record was handed in. -/
  | pending
  /-- Its deposit record was handed to a vault. -/
  | uploaded
  /-- It was handed to a vault and is active. -/
  | registered
  /-- It left. The directory never reports this. -/
  | removed
deriving DecidableEq, Repr

namespace Status

/-- The name of a status. -/
def name : Status → String
  | .unknown => "UNKNOWN"
  | .pending => "PENDING"
  | .uploaded => "UPLOADED"
  | .registered => "REGISTERED"
  | .removed => "REMOVED"

/-- All statuses. -/
def all : List Status := [.unknown, .pending, .uploaded, .registered, .removed]

/-- The status with this name. -/
def ofName? (name : String) : Option Status :=
  all.find? fun status => status.name = name

theorem ofName?_name (status : Status) : ofName? status.name = some status := by
  cases status <;> decide

/-- The JSON form of a status. -/
def codec : Json.Codec Status :=
  Json.Codec.name ofName? name

end Status

/-- What a node is told about one of its validators. -/
structure StatusRow where
  pubkey : Pubkey
  status : Status
  exitUploaded : Bool
deriving DecidableEq

open Json in
/-- The JSON form of a row. -/
def StatusRow.codec : Codec StatusRow :=
  (Fields.field "pubkey" Pubkey.codec .required <|
    Fields.field "status" Status.codec .required <|
    Fields.field "exitMessage" Codec.flag .required Fields.done).record.map
    (fun (pubkey, status, exitUploaded, ()) => ⟨pubkey, status, exitUploaded⟩)
    (fun row => (row.pubkey, row.status, row.exitUploaded, ()))

end StakingDirectory
