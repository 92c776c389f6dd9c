/-
**Uploads of different nodes do not get in each other's way.**

An upload reads the vaults and its own node, and changes nothing but its own node.

* `alike_upload`: two directories that look alike to a node give its upload the same result, and look
  alike to it afterwards; `onlyNode_upload`: to all other nodes nothing happens;
* `alike_uploads`: hence, whatever other nodes hand in between, the calls of a node have the results
  that they have alone, and leave the node as they leave it alone;
* `uploads_interleaved`: all interleavings of what the nodes hand in come to one directory. The set
  that is then chosen takes from each node what it holds after its own calls, in the order of users
  and registrations.
-/

import StakingDirectory.Proofs.Allotment.Choice

namespace StakingDirectory.Directory

open Operation

/-! ### One upload -/

/-- What a node hands in. -/
inductive Upload where
  | deposits (batch : List Deposit)
  | exits (network : String) (batch : List ExitEntry)
deriving DecidableEq

/-- The change that a node asks for. -/
def Upload.change (address : Address) : Upload → Change
  | .deposits batch => .uploadDeposits address batch
  | .exits network batch => .uploadExits address network batch

/-- The operation of an upload. -/
def Upload.operation (address : Address) (upload : Upload) : Operation Directory Reply :=
  (upload.change address).operation

/-- Two directories look alike to a node. -/
structure Alike (address : Address) (one other : Directory) : Prop where
  node : one.node? address = other.node? address
  vaults : one.vaults = other.vaults

variable {directory one other : Directory} {address : Address}

/-- **An upload changes nothing but its node.** -/
theorem onlyNode_upload (address : Address) (upload : Upload) (directory : Directory) :
    OnlyNode address directory ((upload.operation address).outcome directory).2 := by
  have refused : OnlyNode address directory directory := ⟨.refl directory, fun _ _ => rfl⟩
  cases upload with
  | deposits batch =>
    rw [Upload.operation, Upload.change, Change.operation, outcome_map, outcome_uploadDeposits]
    exact settled_state refused fun _ _ => onlyNode_withNode directory address _
  | exits network batch =>
    rw [Upload.operation, Upload.change, Change.operation, outcome_map, outcome_uploadExits]
    exact settled_state refused fun _ _ => onlyNode_withNode directory address _

theorem Alike.checkDeposits (alike : Alike address one other) (batch : List Deposit) :
    one.checkDeposits address batch = other.checkDeposits address batch := by
  unfold Directory.checkDeposits registeredNode
  have same : one.checkDeposit = other.checkDeposit := by
    funext deposit
    unfold checkDeposit
    rw [requireVault_congr alike.vaults]
  rw [alike.node, same]

theorem Alike.checkExits (alike : Alike address one other) (network : String)
    (batch : List ExitEntry) :
    one.checkExits address network batch = other.checkExits address network batch := by
  unfold Directory.checkExits registeredNode
  rw [alike.node]

theorem Alike.withNode (alike : Alike address one other) (node : Node) :
    Alike address (one.withNode address node) (other.withNode address node) where
  node := by rw [node?_withNode, node?_withNode, if_pos rfl, if_pos rfl]
  vaults := alike.vaults

/-- Checks that agree, and changes of the node to the same one. -/
theorem Alike.settled {α β γ : Type} (alike : Alike address one other) {check : Except Refusal α}
    (give : α → β) (answer : β → γ) (node : α → Node) :
    ((Operation.settled check (fun value => (give value, one.withNode address (node value)))
        one).1.map answer =
      (Operation.settled check (fun value => (give value, other.withNode address (node value)))
        other).1.map answer) ∧
    Alike address
      (Operation.settled check (fun value => (give value, one.withNode address (node value))) one).2
      (Operation.settled check (fun value => (give value, other.withNode address (node value)))
        other).2 := by
  cases check with
  | error refusal => exact ⟨rfl, alike⟩
  | ok value => exact ⟨rfl, alike.withNode (node value)⟩

/-- **An upload does the same in directories that look alike to its node**, and leaves them so. -/
theorem alike_upload (alike : Alike address one other) (upload : Upload) :
    ((upload.operation address).outcome one).1 = ((upload.operation address).outcome other).1 ∧
      Alike address ((upload.operation address).outcome one).2
        ((upload.operation address).outcome other).2 := by
  cases upload with
  | deposits batch =>
    simp only [Upload.operation, Upload.change, Change.operation, outcome_map,
      outcome_uploadDeposits, alike.checkDeposits]
    exact alike.settled _ _ _
  | exits network batch =>
    simp only [Upload.operation, Upload.change, Change.operation, outcome_map,
      outcome_uploadExits, alike.checkExits]
    exact alike.settled _ _ _

/-! ### Calls of all nodes -/

/-- The results of calls in turn, whether they succeed or are refused, and the directory they leave.
A call is a node and what it hands in. -/
def handIn (calls : List (Address × Upload)) (directory : Directory) :
    List (Except Refusal Reply) × Directory :=
  each (calls.map fun call => call.2.operation call.1) directory

/-- What one node hands in with its calls. -/
def uploadsOf (address : Address) (calls : List (Address × Upload)) : List Upload :=
  (calls.filter fun call => call.1 = address).map Prod.snd

/-- The results of the calls of one node. -/
def answersTo (address : Address) (calls : List (Address × Upload)) (directory : Directory) :
    List (Except Refusal Reply) :=
  ((calls.zip (handIn calls directory).1).filter fun answered => answered.1.1 = address).map
    Prod.snd

/-- What a node hands in without the others. -/
def handInAlone (address : Address) (uploads : List Upload) (directory : Directory) :
    List (Except Refusal Reply) × Directory :=
  handIn (uploads.map (Prod.mk address)) directory

/-- Calls in which each node hands in its own uploads in their order. -/
def Interleaves (uploads : Address → List Upload) (calls : List (Address × Upload)) : Prop :=
  ∀ address, uploadsOf address calls = uploads address

theorem onlyNodes_handIn (calls : List (Address × Upload)) (directory : Directory) :
    OnlyNodes directory (handIn calls directory).2 := by
  induction calls generalizing directory with
  | nil => exact .refl directory
  | cons call rest ih => exact (onlyNode_upload call.1 call.2 directory).toOnlyNodes.trans (ih _)

theorem answersTo_own (upload : Upload) (rest : List (Address × Upload)) (directory : Directory) :
    answersTo address ((address, upload) :: rest) directory =
      ((upload.operation address).outcome directory).1 ::
        answersTo address rest ((upload.operation address).outcome directory).2 := by
  unfold answersTo handIn
  rw [List.map_cons, each, List.zip_cons_cons, List.filter_cons_of_pos (by simp)]
  rfl

theorem answersTo_other {node : Address} (different : node ≠ address) (upload : Upload)
    (rest : List (Address × Upload)) (directory : Directory) :
    answersTo address ((node, upload) :: rest) directory =
      answersTo address rest ((upload.operation node).outcome directory).2 := by
  unfold answersTo handIn
  rw [List.map_cons, each, List.zip_cons_cons, List.filter_cons_of_neg (by simpa using different)]

theorem uploadsOf_own (upload : Upload) (rest : List (Address × Upload)) :
    uploadsOf address ((address, upload) :: rest) = upload :: uploadsOf address rest := by
  rw [uploadsOf, List.filter_cons_of_pos (by simp)]
  rfl

theorem uploadsOf_other {node : Address} (different : node ≠ address) (upload : Upload)
    (rest : List (Address × Upload)) :
    uploadsOf address ((node, upload) :: rest) = uploadsOf address rest := by
  rw [uploadsOf, List.filter_cons_of_neg (by simpa using different), ← uploadsOf]

/-- **Among the calls of all nodes, those of one node do what they do alone.** -/
theorem alike_handIn (alike : Alike address one other) (calls : List (Address × Upload)) :
    answersTo address calls one = (handInAlone address (uploadsOf address calls) other).1 ∧
      Alike address (handIn calls one).2
        (handInAlone address (uploadsOf address calls) other).2 := by
  induction calls generalizing one other with
  | nil => exact ⟨rfl, alike⟩
  | cons call rest ih =>
    obtain ⟨node, upload⟩ := call
    by_cases own : node = address
    · subst own
      obtain ⟨same, next⟩ := alike_upload alike upload
      obtain ⟨results, last⟩ := ih next
      rw [answersTo_own, uploadsOf_own, same, results]
      exact ⟨rfl, last⟩
    · have quiet := onlyNode_upload node upload one
      have next : Alike address ((upload.operation node).outcome one).2 other :=
        ⟨(quiet.others address (Ne.symm own)).trans alike.node, quiet.vaults.trans alike.vaults⟩
      rw [answersTo_other own, uploadsOf_other own]
      exact ih next

/-! ### Interleavings -/

theorem alike_interleaved {uploads : Address → List Upload} {calls : List (Address × Upload)}
    (interleaves : Interleaves uploads calls) (directory : Directory) (address : Address) :
    answersTo address calls directory = (handInAlone address (uploads address) directory).1 ∧
      Alike address (handIn calls directory).2
        (handInAlone address (uploads address) directory).2 := by
  rw [← interleaves address]
  exact alike_handIn ⟨rfl, rfl⟩ calls

/-- What waits at a node is seen from the node. -/
theorem waiting_alike {addresses : List Address} {alone : Address → Directory}
    (alike : ∀ address ∈ addresses, Alike address directory (alone address)) (network : String) :
    directory.waiting network addresses =
      addresses.flatMap fun address => (alone address).waiting network [address] := by
  unfold waiting
  refine List.flatMap_congr fun address member => ?_
  rw [List.flatMap_singleton, validatorsAt, validatorsAt, (alike address member).node]

/-- **The order in which uploads of different nodes arrive does not matter.** In any directory, let
each node hand in a list of uploads, deposits or exits, good ones and refused ones. All interleavings
of these lists give each call the same result and come to the same directory, so that the chosen set,
the validators that are found and what nodes are told about them are the same. Each call has the
result that it has without the other nodes. The chosen set takes from each node what waits there
after its own uploads alone, by users as they came in and by nodes as they were registered. -/
theorem uploads_interleaved (directory : Directory) {uploads : Address → List Upload}
    {first second : List (Address × Upload)} (one : Interleaves uploads first)
    (other : Interleaves uploads second) :
    (handIn first directory).2 = (handIn second directory).2 ∧
    (∀ address, answersTo address first directory = answersTo address second directory ∧
      answersTo address first directory = (handInAlone address (uploads address) directory).1) ∧
    (∀ network limit,
      (handIn first directory).2.chooseSet network limit =
          (handIn second directory).2.chooseSet network limit ∧
        (handIn first directory).2.chooseSet network limit =
          (directory.users.flatMap fun user =>
            (user.registered.flatMap fun address =>
              (handInAlone address (uploads address) directory).2.waiting network
                [address]).take limit).map fun entry => entry.2.deposit) ∧
    (∀ network pubkey, (handIn first directory).2.findValidator network pubkey =
      (handIn second directory).2.findValidator network pubkey) ∧
    ∀ address network, (handIn first directory).2.statuses address network =
      (handIn second directory).2.statuses address network := by
  have alike := alike_interleaved one directory
  have alike' := alike_interleaved other directory
  have same : (handIn first directory).2 = (handIn second directory).2 :=
    eq_of_onlyNodes (onlyNodes_handIn first directory) (onlyNodes_handIn second directory)
      fun address => (alike address).2.node.trans (alike' address).2.node.symm
  refine ⟨same, fun address => ⟨(alike address).1.trans (alike' address).1.symm,
    (alike address).1⟩, fun network limit => ⟨by rw [same], ?_⟩, fun _ _ => by rw [same],
    fun _ _ => by rw [same]⟩
  rw [chooseSet_eq, chosen, (onlyNodes_handIn first directory).users]
  congr 1
  refine List.flatMap_congr fun user _ => ?_
  rw [waiting_alike fun address _ => (alike address).2]

/-- Two nodes of one user. -/
def neighbours : Directory :=
  built (opening "a" [repeated 1, repeated 2] "n" [repeated 9])

/-- Both nodes hand in a record for one key, the first one an exit for it, and the second one a
record for a vault that is not there. -/
def nodeByNode : List (Address × Upload) :=
  [(repeated 1, .deposits [plainDeposit 3 (repeated 9) "n"]),
    (repeated 1, .exits "n" [⟨Pubkey.text (repeated 3), ⟨⟨"1", "0"⟩, "s"⟩⟩]),
    (repeated 2, .deposits [plainDeposit 4 (repeated 9) "n", plainDeposit 3 (repeated 9) "n"]),
    (repeated 2, .deposits [plainDeposit 5 (repeated 8) "n"])]

/-- The same uploads, those of the second node first and in between. -/
def crossed : List (Address × Upload) :=
  [(repeated 2, .deposits [plainDeposit 4 (repeated 9) "n", plainDeposit 3 (repeated 9) "n"]),
    (repeated 1, .deposits [plainDeposit 3 (repeated 9) "n"]),
    (repeated 2, .deposits [plainDeposit 5 (repeated 8) "n"]),
    (repeated 1, .exits "n" [⟨Pubkey.text (repeated 3), ⟨⟨"1", "0"⟩, "s"⟩⟩])]

set_option maxRecDepth 2000 in
/-- What the first node handed in is chosen first, although the second one was there before it. -/
theorem uploads_interleaved_crossed :
    Interleaves (fun address => uploadsOf address nodeByNode) nodeByNode ∧
    Interleaves (fun address => uploadsOf address nodeByNode) crossed ∧
    (handIn nodeByNode neighbours).2 = (handIn crossed neighbours).2 ∧
    answersTo (repeated 2) crossed neighbours =
      [.ok (.added 2), .error (.unknownVault (repeated 8) "n")] ∧
    (handIn crossed neighbours).2.chooseSet "n" 2 =
      [plainDeposit 3 (repeated 9) "n", plainDeposit 4 (repeated 9) "n"] := by
  have own : Interleaves (fun address => uploadsOf address nodeByNode) nodeByNode :=
    fun _ => rfl
  have other : Interleaves (fun address => uploadsOf address nodeByNode) crossed := by
    intro address
    by_cases one : repeated 1 = address
    · subst one
      decide
    · by_cases two : repeated 2 = address
      · subst two
        decide
      · simp [uploadsOf, nodeByNode, crossed, one, two]
  obtain ⟨same, answers, sets, -⟩ := uploads_interleaved neighbours own other
  refine ⟨own, other, same, ?_, ?_⟩
  · rw [← (answers (repeated 2)).1]
    decide
  · rw [← (sets "n" 2).1]
    decide

end StakingDirectory.Directory
