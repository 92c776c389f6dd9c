/-
**Named versions of a state.**

An archive holds states in slots. One slot is live, and names stand for slots:

* `take` copies the live state into a slot of its own and names that slot;
* `revert` makes the slot of a name the live one, without a copy, so that what is then changed is
  changed for the name as well;
* `replace` puts a state into a slot of its own and makes that live;
* a slot that is neither live nor named is emptied and given out again.
-/

import StakingDirectory.Operation

namespace StakingDirectory

/-- States in slots, the free slots among them, the live slot and the named ones. -/
structure Archive (α : Type) where
  slots : Array α
  /-- The free slots; the one that was freed last is given out first. -/
  free : List Nat := []
  live : Nat := 0
  names : Std.ExtTreeMap String Nat := ∅

namespace Archive

variable {α : Type} [Inhabited α]

/-- The archive of one state, which is live. -/
def ofState (state : α) : Archive α := { slots := #[state] }

/-- The live state. -/
def liveState (archive : Archive α) : α :=
  archive.slots.getD archive.live default

/-- The archive with another live state in the same slot. -/
def withLive (state : α) (archive : Archive α) : Archive α :=
  { archive with slots := archive.slots.setIfInBounds archive.live state }

/-- The names in their order. -/
def nameList (archive : Archive α) : List String :=
  archive.names.keys

/-- How many slots are not free. -/
def retained (archive : Archive α) : Nat :=
  archive.slots.size - archive.free.length

/-! ### Slots -/

/-- Puts a state into a free slot, or into a new one; gives the slot. -/
def allocate (state : α) (archive : Archive α) : Nat × Archive α :=
  match archive.free with
  | slot :: free => (slot, { archive with slots := archive.slots.setIfInBounds slot state, free })
  | [] => (archive.slots.size, { archive with slots := archive.slots.push state })

/-- Frees a slot, unless it is live or named. -/
def release (slot : Nat) (archive : Archive α) : Archive α :=
  if slot = archive.live ∨ slot ∈ archive.names.values then archive
  else
    { archive with
      slots := archive.slots.setIfInBounds slot default
      free := slot :: archive.free }

/-! ### Versions -/

/-- Names a copy of the live state. -/
def take (name : String) (archive : Archive α) : Archive α :=
  let (slot, archive) := archive.allocate archive.liveState
  let previous := archive.names[name]?
  let archive := { archive with names := archive.names.insert name slot }
  match previous with
  | some previous => archive.release previous
  | none => archive

/-- Makes a slot the live one and frees the one before. -/
def goLive (slot : Nat) (archive : Archive α) : Archive α :=
  let previous := archive.live
  { archive with live := slot }.release previous

/-- Makes the state of a name live. -/
def revert (name : String) : Operation (Archive α) Unit := do
  let archive ← get
  match archive.names[name]? with
  | none => throw (.noSuchSnapshot name)
  | some slot => set (archive.goLive slot)

/-- Makes another state live. -/
def replace (state : α) (archive : Archive α) : Archive α :=
  let (slot, archive) := archive.allocate state
  archive.goLive slot

end Archive

end StakingDirectory
