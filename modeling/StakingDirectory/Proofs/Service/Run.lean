/-
**Runs of the service.**

* `Succeeded` says that a command was carried out in a run, and `Replays` that no states are put in
  but the empty one and copies of earlier live states;
* `every_after`: a command gives all retained states what it leaves the live state with, if they had
  it before. States that are parked under names or swapped back were looked at when they were live;
* `every_supplied`: hence, over a whole run, only what forward commands do to the live state and the
  states that are put in have to be looked at, and the latter not where they are replayed
  (`every_run`).
-/

import Mathlib.Data.List.Induction
import StakingDirectory.Proofs.Archive.Retained
import StakingDirectory.Proofs.Service.Command

namespace StakingDirectory.Service

open Operation

variable {mint : Mint} {commands : List Command}

/-! ### What happened in a run -/

/-- A command was carried out in a run, and gave an answer. -/
def Succeeded (mint : Mint) (commands : List Command) (command : Command) (answer : Answer) :
    Prop :=
  ∃ before later, commands = before ++ command :: later ∧
    ((command.operation mint).outcome (played mint before)).1 = .ok answer

/-- The state that a command puts in. -/
def Command.provided : Command → Option State
  | .setState state => some state
  | .restart state => some state
  | _ => none

/-- The states that are put in are empty, or copies of earlier live states. -/
def Replays (mint : Mint) (commands : List Command) : Prop :=
  ∀ before command later, commands = before ++ command :: later →
    ∀ state, command.provided = some state →
      state = {} ∨ ∃ earlier, earlier <+: before ∧ state = (played mint earlier).live

/-- Brings no other state back or in. -/
def Command.Forward : Command → Prop
  | .revertToSnapshot _ | .setState _ | .restart _ => False
  | _ => True

theorem played_append (mint : Mint) (earlier later : List Command) :
    played mint (earlier ++ later) =
      later.foldl (fun service command => service.after mint command) (played mint earlier) :=
  List.foldl_append

theorem played_concat (mint : Mint) (commands : List Command) (command : Command) :
    played mint (commands ++ [command]) = (played mint commands).after mint command :=
  played_append mint commands [command]

theorem Succeeded.mono {earlier : List Command} {command : Command} {answer : Answer}
    (succeeded : Succeeded mint earlier command answer) (first : earlier <+: commands) :
    Succeeded mint commands command answer := by
  obtain ⟨before, later, rfl, given⟩ := succeeded
  obtain ⟨rest, rfl⟩ := first
  exact ⟨before, later ++ rest, by simp, given⟩

theorem succeeded_last {command : Command} {answer : Answer}
    (given : ((command.operation mint).outcome (played mint commands)).1 = .ok answer) :
    Succeeded mint (commands ++ [command]) command answer :=
  ⟨commands, [], rfl, given⟩

theorem Replays.mono {earlier : List Command} (replays : Replays mint commands)
    (first : earlier <+: commands) : Replays mint earlier := by
  obtain ⟨rest, rfl⟩ := first
  rintro before command later rfl
  exact replays before command (later ++ rest) (by simp)

/-! ### The live state -/

section

variable {service : Service}

theorem live_withState (tidy : service.archive.Tidy none) (state : State) :
    (service.withState state).live = state :=
  Archive.liveState_withLive tidy state

theorem directory_withState (tidy : service.archive.Tidy none) (state : State) :
    (service.withState state).directory = state.directory := by
  rw [directory, live_withState tidy]

theorem live_takeSnapshot (tidy : service.archive.Tidy none) (name : String) :
    (service.takeSnapshot name).live = service.live :=
  Archive.liveState_take tidy name

theorem directory_change (tidy : service.archive.Tidy none) (change : Directory.Change) :
    (service.after mint (.change change)).directory =
      (change.operation.outcome service.directory).2 := by
  rw [after, Command.operation, outcome_map, outcome_onDirectory, directory_withState tidy]

/-! ### All retained states -/

/-- **A command gives all retained states what it leaves the live state with.** -/
theorem every_after {P : State → Prop} (every : service.archive.Every P) (command : Command)
    (live : P (service.after mint command).live) :
    (service.after mint command).archive.Every P := by
  have changed : ∀ state, P (service.withState state).live →
      (service.withState state).archive.Every P :=
    fun state holds => every.withLive (live_withState every.tidy state ▸ holds)
  unfold after at live ⊢
  cases command with
  | change change =>
    simp only [Command.operation, outcome_map, outcome_onDirectory] at live ⊢
    exact changed _ live
  | registerNode email node signature =>
    simp only [Command.operation, outcome_map, outcome_registerNode] at live ⊢
    exact settled_state (P := fun next : Service => P next.live → next.archive.Every P)
      (fun _ => every) (fun _ _ => changed _) live
  | createSession => exact changed _ live
  | login token nonce node signature =>
    simp only [Command.operation, outcome_map, outcome_login] at live ⊢
    exact settled_state (P := fun next : Service => P next.live → next.archive.Every P)
      (fun _ => every) (fun _ _ => changed _) live
  | takeSnapshot name => exact every.take name
  | revertToSnapshot name =>
    simp only [Command.operation, outcome_map, outcome_revertToSnapshot]
    exact every.revert name
  | setState state => exact every.replace (Archive.liveState_replace every.tidy state ▸ live)
  | restart state => exact Archive.every_ofState live

/-- **Every command keeps the archive tidy.** -/
theorem tidy_after (mint : Mint) (tidy : service.archive.Tidy none) (command : Command) :
    (service.after mint command).archive.Tidy none :=
  (every_after (P := fun _ => True) ⟨tidy, trivial, fun _ => trivial⟩ command trivial).tidy

end

theorem tidy_played (mint : Mint) (commands : List Command) :
    (played mint commands).archive.Tidy none := by
  unfold played
  exact List.foldlRecOn (motive := fun service : Service => service.archive.Tidy none) commands _
    (Archive.tidy_ofState _) fun _ tidy command _ => tidy_after mint tidy command

/-- **What forward commands keep of the live state, and every state that is put in has, a whole run
keeps of all retained states.** -/
theorem every_supplied {P : List Command → State → Prop} (empty : P [] {})
    (mono : ∀ {earlier later : List Command} {state : State}, earlier <+: later →
      P earlier state → P later state)
    (put : ∀ before command state, before ++ [command] <+: commands →
      command.provided = some state →
      (∀ earlier, earlier <+: before → (played mint earlier).archive.Every (P earlier)) →
      P (before ++ [command]) state)
    (step : ∀ before command, before ++ [command] <+: commands → command.Forward →
      P before (played mint before).live →
      P (before ++ [command]) ((played mint before).after mint command).live) :
    ∀ earlier, earlier <+: commands → (played mint earlier).archive.Every (P earlier) := by
  induction commands using List.reverseRec with
  | nil =>
    intro earlier first
    rw [List.prefix_nil.mp first]
    exact Archive.every_ofState empty
  | append_singleton commands command ih =>
    have known := ih
      (fun before next state first => put before next state (first.trans (List.prefix_append _ _)))
      fun before next first => step before next (first.trans (List.prefix_append _ _))
    intro earlier first
    rcases List.prefix_concat_iff.mp first with rfl | shorter
    · have before : (played mint commands).archive.Every (P (commands ++ [command])) :=
        (known commands List.prefix_rfl).mono fun state => mono (List.prefix_append _ _)
      have given := fun state provided => put commands command state List.prefix_rfl provided known
      rw [played_concat]
      refine every_after before command ?_
      cases command with
      | change | registerNode | createSession | login | takeSnapshot =>
        exact step commands _ List.prefix_rfl trivial (known commands List.prefix_rfl).live
      | revertToSnapshot name =>
        simp only [after, Command.operation, outcome_map, outcome_revertToSnapshot]
        exact (before.revert name).live
      | setState state => exact (before.replace (given state rfl)).live
      | restart state => exact given state rfl
    · exact known earlier shorter

/-- **What forward commands keep of the live state, a whole run keeps of all retained states.** Let
no states be put in but the empty one and copies of earlier live states. -/
theorem every_run {P : List Command → State → Prop} (replays : Replays mint commands)
    (empty : P [] {})
    (mono : ∀ {earlier later : List Command} {state : State}, earlier <+: later →
      P earlier state → P later state)
    (step : ∀ before command, before ++ [command] <+: commands → command.Forward →
      P before (played mint before).live →
      P (before ++ [command]) ((played mint before).after mint command).live) :
    (played mint commands).archive.Every (P commands) := by
  -- The states that are put in come from any earlier moment of the run.
  refine every_supplied empty mono (fun before command state first provided known => ?_) step
    commands List.prefix_rfl
  obtain ⟨rest, same⟩ := first
  have split : commands = before ++ command :: rest := by rw [← same, List.append_assoc]; rfl
  rcases replays before command rest split state provided with rfl | ⟨past, inside, rfl⟩
  · exact mono List.nil_prefix empty
  · exact mono (inside.trans (List.prefix_append _ _)) (known past inside).live

end StakingDirectory.Service
