/-
**Splitting at a separator.**

`splitAll` cuts a list at every separator. There is always one part more than separators, and no
part contains one; the parts, joined again, are the list (`joinAll_splitAll`).
-/

namespace StakingDirectory.Text

variable {α : Type} [DecidableEq α]

/-- The parts of a list between separators. -/
def splitAll (separator : α) : List α → List (List α)
  | [] => [[]]
  | item :: rest =>
    if item = separator then [] :: splitAll separator rest
    else
      match splitAll separator rest with
      | [] => [[item]]
      | part :: parts => (item :: part) :: parts

/-- Parts joined with the separator between them. -/
def joinAll (separator : α) : List (List α) → List α
  | [] => []
  | [part] => part
  | part :: parts => part ++ separator :: joinAll separator parts

theorem splitAll_ne_nil (separator : α) (items : List α) : splitAll separator items ≠ [] := by
  cases items with
  | nil => simp [splitAll]
  | cons item rest =>
    unfold splitAll
    split
    · simp
    · split <;> simp

theorem joinAll_splitAll (separator : α) (items : List α) :
    joinAll separator (splitAll separator items) = items := by
  induction items with
  | nil => rfl
  | cons item rest ih =>
    have filled := splitAll_ne_nil separator rest
    unfold splitAll
    split
    · rename_i same
      subst same
      cases parts : splitAll item rest with
      | nil => exact absurd parts filled
      | cons part others =>
        rw [parts] at ih
        simp [joinAll, ih]
    · cases parts : splitAll separator rest with
      | nil => exact absurd parts filled
      | cons part others =>
        rw [parts] at ih
        cases others with
        | nil => simpa [joinAll] using ih
        | cons next others => simpa [joinAll] using ih

end StakingDirectory.Text
