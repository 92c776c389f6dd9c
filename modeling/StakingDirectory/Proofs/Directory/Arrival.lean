/-
**In which order things came in.**

Allotment goes through users, nodes and validators as they stand in the directory. Where they stand
is settled by the actions that succeeded (`accomplished`), in their order:

* `Enrolled`: users stand in the order in which they were added, and the nodes of a user in the
  order in which they were registered;
* `Queued`: the validators of a node on a network stand in the order in which the node handed in the
  first record for each of them.

Both are kept by every action that succeeds, and so hold of all directories that can come about
(`accomplished_invariant`).
-/

import Mathlib.Data.List.Induction
import StakingDirectory.Proofs.Directory.Intake
import StakingDirectory.Proofs.Directory.Progress

namespace StakingDirectory

/-! ### Keys of new validators -/

/-- The keys of the validators that are new are the new keys, each once. -/
theorem Validator.map_pubkey_fresh (held arrivals : List Validator) :
    (fresh held arrivals).map pubkey =
      ((arrivals.map pubkey).removeAll (held.map pubkey)).eraseDups := by
  induction arrivals generalizing held with
  | nil => rfl
  | cons validator rest ih =>
    rw [List.map_cons, List.removeAll]
    by_cases known : validator.pubkey ∈ held.map pubkey
    · rw [fresh_cons_of_mem known, ih, List.filter_cons_of_neg (by simpa using known),
        List.removeAll]
    · rw [fresh_cons_of_not_mem known, List.map_cons, ih,
        List.filter_cons_of_pos (by simpa using known), List.eraseDups_cons, List.filter_filter,
        List.removeAll, List.map_append]
      congr 2
      refine List.filter_congr fun other _ => ?_
      rw [Bool.eq_iff_iff]
      simp [and_comm]

namespace Directory

open Operation

/-! ### What succeeded -/

/-- The actions that succeed when actions are carried out in turn. -/
def accomplished (directory : Directory) : List Action → List Action
  | [] => []
  | action :: rest =>
    if (action.operation.outcome directory).1.isOk then
      action :: (directory.after action).accomplished rest
    else (directory.after action).accomplished rest

theorem accomplished_concat (directory : Directory) (actions : List Action) (action : Action) :
    directory.accomplished (actions ++ [action]) = directory.accomplished actions ++
      if (action.operation.outcome (actions.foldl after directory)).1.isOk then [action]
      else [] := by
  induction actions generalizing directory with
  | nil => rfl
  | cons first rest ih =>
    rw [List.cons_append, accomplished, accomplished, ih, List.foldl_cons]
    split <;> rfl

/-- **What holds at first, and is kept by every action that succeeds**, with the actions that
succeeded so far, holds of all directories that can come about. -/
theorem accomplished_invariant {P : List Action → Directory → Prop} (empty : P [] {})
    (step : ∀ {history : List Action} {directory : Directory} {action : Action},
      Sound directory → P history directory →
      (action.operation.outcome directory).1.isOk = true →
        P (history ++ [action]) (directory.after action))
    (actions : List Action) : P (accomplished {} actions) (built actions) := by
  induction actions using List.reverseRecOn with
  | nil => exact empty
  | append_singleton actions action ih =>
    rw [accomplished_concat, built_concat, ← built]
    cases passed : (action.operation.outcome (built actions)).1.isOk with
    | true => exact step (sound_built actions) ih passed
    | false =>
      rw [after_of_refused passed, if_neg Bool.false_ne_true, List.append_nil]
      exact ih

/-! ### Users and their nodes -/

/-- The email of a user that comes in. -/
def Action.newUser : Action → Option String
  | .change (.addUser email) => some email
  | _ => none

/-- The node that is registered for a user. -/
def Action.newNode (email : String) : Action → Option Address
  | .registerNode owner address => if owner = email then some address else none
  | _ => none

/-- The users in their order, with their registered nodes. -/
def roster (directory : Directory) : List (String × List Address) :=
  directory.users.map fun user => (user.email, user.registered)

variable {directory : Directory}

theorem roster_withWhitelisted (directory : Directory) (email : String) (address : Address)
    (position : Nat) :
    (directory.withWhitelisted email address position).roster = directory.roster := by
  refine List.ext_getElem? fun place => ?_
  simp only [roster, withWhitelisted, List.getElem?_map, List.getElem?_modify]
  cases directory.users[place]? with
  | none => rfl
  | some user =>
    simp only [Option.map_some]
    split <;> rfl

/-- A registration adds a node to those of one user. -/
theorem roster_withRegistered (owned : Owned directory) {email : String} {position : Nat}
    (known : directory.userIndex[email]? = some position) (address : Address) :
    (directory.withRegistered address position).roster = directory.roster.map fun entry =>
      if entry.1 = email then (entry.1, entry.2 ++ [address]) else entry := by
  refine List.ext_getElem? fun place => ?_
  simp only [roster, withRegistered, List.getElem?_map, List.getElem?_modify, Option.map_map]
  cases there : directory.users[place]? with
  | none => rfl
  | some user =>
    have own : position = place ↔ user.email = email := by
      rw [← Option.some.injEq position, ← known, owned.indexed, there, Option.map_some,
        Option.some.injEq]
    simp only [Option.map_some, Function.comp_apply, own]
    split <;> rfl

/-- Apart from users that come in, no change touches the roster. -/
theorem roster_change {change : Change} (other : ∀ email, change ≠ .addUser email)
    (directory : Directory) : (change.operation.outcome directory).2.roster = directory.roster := by
  have users : ∀ {next : Directory}, next.users = directory.users →
      next.roster = directory.roster := fun same => congrArg (List.map _) same
  refine after_cases (P := fun next : Directory => next.roster = directory.roster) directory
    (.change change) rfl fun makes => ?_
  cases makes with
  | addUser email => exact absurd rfl (other email)
  | whitelistNode email address position =>
    exact roster_withWhitelisted directory email address position
  | publishSet | cycleSet => exact users (onlyNodes_withUsed _ _ _).users
  | markActive => exact users (onlyNodes_withActive _ _ _).users
  | whitelistAgain | addVault | uploadDeposits | uploadExits | handToVault => rfl

/-- **Users and their nodes stand in the order in which they came in.** -/
structure Enrolled (history : List Action) (directory : Directory) : Prop where
  roster : directory.roster = (history.filterMap Action.newUser).map fun email =>
    (email, history.filterMap (Action.newNode email))
  /-- Nodes are registered for users who are there. -/
  known : ∀ email, email ∉ history.filterMap Action.newUser →
    history.filterMap (Action.newNode email) = []

theorem enrolled_empty : Enrolled [] {} := ⟨rfl, fun _ _ => rfl⟩

theorem Enrolled.emails {history : List Action} (enrolled : Enrolled history directory) :
    directory.users.map User.email = history.filterMap Action.newUser := by
  have names := congrArg (List.map Prod.fst) enrolled.roster
  rw [Directory.roster, List.map_map, List.map_map] at names
  exact names.trans (List.map_id _)

theorem Enrolled.withUser {history : List Action} (sound : Sound directory)
    (enrolled : Enrolled history directory) {email : String}
    (fresh : directory.userIndex[email]? = none) :
    Enrolled (history ++ [.change (.addUser email)]) (directory.withUser email) := by
  have unknown : email ∉ history.filterMap Action.newUser := by
    rw [← enrolled.emails]
    intro member
    obtain ⟨user, there, same⟩ := List.mem_map.mp member
    exact sound.owned.indexed.key_ne fresh there same
  have node : ∀ other, (history ++ [Action.change (.addUser email)]).filterMap
      (Action.newNode other) = history.filterMap (Action.newNode other) := by
    intro other
    rw [List.filterMap_append]
    exact List.append_nil _
  have users : (history ++ [Action.change (.addUser email)]).filterMap Action.newUser =
      history.filterMap Action.newUser ++ [email] := List.filterMap_append
  refine ⟨?_, fun other absent => ?_⟩
  · simp only [node, users, List.map_append, List.map_cons, List.map_nil, enrolled.known _ unknown]
    rw [← enrolled.roster, Directory.roster, Directory.withUser, List.map_append]
    rfl
  · rw [users] at absent
    rw [node]
    exact enrolled.known other fun before => absent (List.mem_append_left _ before)

theorem Enrolled.withRegistered {history : List Action} (sound : Sound directory)
    (enrolled : Enrolled history directory) {email : String} {position : Nat}
    (known : directory.userIndex[email]? = some position) (address : Address) :
    Enrolled (history ++ [.registerNode email address])
      (directory.withRegistered address position) := by
  have member : email ∈ history.filterMap Action.newUser := by
    obtain ⟨user, there, same⟩ := Option.map_eq_some_iff.mp ((sound.owned.indexed _ _).mp known)
    rw [← enrolled.emails, ← same]
    exact List.mem_map_of_mem (List.mem_of_getElem? there)
  have users : (history ++ [Action.registerNode email address]).filterMap Action.newUser =
      history.filterMap Action.newUser := by
    rw [List.filterMap_append]
    exact List.append_nil _
  have node : ∀ other, (history ++ [Action.registerNode email address]).filterMap
      (Action.newNode other) = history.filterMap (Action.newNode other) ++
        if other = email then [address] else [] := by
    intro other
    rw [List.filterMap_append]
    by_cases own : email = other
    · simp [Action.newNode, own]
    · simp [Action.newNode, own, Ne.symm own]
  refine ⟨?_, fun other absent => ?_⟩
  · rw [roster_withRegistered sound.owned known, enrolled.roster, users, List.map_map]
    refine List.map_congr_left fun other _ => ?_
    simp only [Function.comp_apply, node]
    split
    · rfl
    · rw [List.append_nil]
  · rw [users] at absent
    have different : other ≠ email := by
      rintro rfl
      exact absent member
    rw [node, enrolled.known other absent, if_neg different]
    rfl

/-- **Every action that succeeds keeps the order.** -/
theorem Enrolled.step {history : List Action} {action : Action} (sound : Sound directory)
    (enrolled : Enrolled history directory)
    (passed : (action.operation.outcome directory).1.isOk = true) :
    Enrolled (history ++ [action]) (directory.after action) := by
  -- What is neither a new user nor a registration has no part in it.
  have quiet : action.newUser = none → (∀ email, action.newNode email = none) →
      (directory.after action).roster = directory.roster →
      Enrolled (history ++ [action]) (directory.after action) := by
    intro user node same
    refine ⟨?_, ?_⟩
    · simp only [same, enrolled.roster, List.filterMap_append, List.filterMap_cons_none user,
        List.filterMap_cons_none (node _), List.filterMap_nil, List.append_nil]
    · simp only [List.filterMap_append, List.filterMap_cons_none user,
        List.filterMap_cons_none (node _), List.filterMap_nil, List.append_nil]
      exact enrolled.known
  have makes := makes_after passed
  cases action with
  | change change =>
    by_cases new : ∃ email, change = .addUser email
    · obtain ⟨email, rfl⟩ := new
      generalize directory.after (.change (.addUser email)) = next at makes ⊢
      cases makes with
      | addUser _ fresh => exact enrolled.withUser sound fresh
    · have other : ∀ email, change ≠ .addUser email := fun email same => new ⟨email, same⟩
      refine quiet ?_ (fun _ => rfl) (roster_change other directory)
      cases change with
      | addUser email => exact absurd rfl (other email)
      | _ => rfl
  | registerNode email address =>
    generalize directory.after (.registerNode email address) = next at makes ⊢
    cases makes with
    | registerNode _ _ position _ known => exact enrolled.withRegistered sound known address

theorem enrolled_built (actions : List Action) :
    Enrolled (accomplished {} actions) (built actions) :=
  accomplished_invariant enrolled_empty (fun sound enrolled => enrolled.step sound) actions

/-- **The nodes of a user stand in the order in which they were registered.** -/
theorem Enrolled.registered {history : List Action} (enrolled : Enrolled history directory)
    {user : User} (member : user ∈ directory.users) :
    user.registered = history.filterMap (Action.newNode user.email) := by
  have entry : (user.email, user.registered) ∈ directory.roster := List.mem_map_of_mem member
  rw [enrolled.roster] at entry
  obtain ⟨email, -, same⟩ := List.mem_map.mp entry
  obtain ⟨rfl, nodes⟩ := Prod.mk.inj same
  exact nodes.symm

/-! ### Validators -/

/-- The keys of the validators that an action hands in for a node on a network. -/
def Action.newKeys (address : Address) (network : String) : Action → List Pubkey
  | .change (.uploadDeposits node batch) =>
    if node = address then (Validator.handedIn network batch).map Validator.pubkey else []
  | _ => []

/-- **Validators stand in the order in which they were handed in first.** -/
def Queued (history : List Action) (directory : Directory) : Prop :=
  ∀ address network, (directory.validatorsAt address network).map Validator.pubkey =
    (history.flatMap (Action.newKeys address network)).eraseDups

theorem queued_empty : Queued [] {} := fun _ _ => rfl

theorem eraseDups_append_eraseDups {α : Type} [BEq α] [LawfulBEq α] (earlier later : List α) :
    (earlier ++ later).eraseDups =
      earlier.eraseDups ++ (later.removeAll earlier.eraseDups).eraseDups := by
  rw [List.eraseDups_append, List.removeAll, List.removeAll]
  congr 2
  refine List.filter_congr fun item _ => ?_
  rw [List.elem_eq_contains, List.elem_eq_contains, Bool.eq_iff_iff]
  simp

theorem Queued.step {history : List Action} {action : Action} (queued : Queued history directory)
    (passed : (action.operation.outcome directory).1.isOk = true) :
    Queued (history ++ [action]) (directory.after action) := by
  intro address network
  rw [List.flatMap_append, List.flatMap_singleton]
  by_cases upload : ∃ node batch, action = .change (.uploadDeposits node batch)
  · obtain ⟨node, batch, rfl⟩ := upload
    obtain ⟨count, given⟩ := exists_ok_of_isOk_map passed
    rw [after, Action.operation, Change.operation]
    by_cases here : node = address
    · subst here
      rw [validatorsAt_uploaded given, List.map_append, Validator.map_pubkey_fresh, queued,
        ← eraseDups_append_eraseDups, Action.newKeys, if_pos rfl]
    · have same := (onlyNode_uploaded given).others address (Ne.symm here)
      rw [validatorsAt, same, ← validatorsAt, queued, Action.newKeys, if_neg here,
        List.append_nil]
  · have other : ∀ node batch, action ≠ .change (.uploadDeposits node batch) :=
      fun node batch same => upload ⟨node, batch, same⟩
    have nothing : action.newKeys address network = [] := by
      unfold Action.newKeys
      split
      · exact absurd rfl (other _ _)
      · rfl
    rw [(allAdvance_after other directory address network).map_pubkey, queued, nothing,
      List.append_nil]

theorem queued_built (actions : List Action) : Queued (accomplished {} actions) (built actions) :=
  accomplished_invariant queued_empty (fun _ queued => queued.step) actions

end Directory

end StakingDirectory
