/-
**What an upload of exits attaches.**

* `ExitEntry.objection` is why an exit may not be handed in: its text is no way to write a key, or
  the node does not hold the key on the network; `uploadExits_eq_ok` and `uploadExits_eq_error` are
  the outcomes of an upload in these terms;
* `Validator.withExits` is a validator after a batch, and `Node.withExits` a node: of the exits for a
  key the last one stays. The exits are attached one by one to the first validator with their key,
  which comes to the same, as a node holds a key once (`Node.attachExits_keyed`);
* `uploadExits_exact` puts this together: what is accepted, what is refused for what, what an
  accepted batch changes, what happens to a batch in two parts, and that the ways to write a key are
  as good as each other.
-/

import StakingDirectory.Proofs.Directory.Intake
import StakingDirectory.Proofs.Text.Hex

namespace StakingDirectory

/-! ### Entries -/

namespace ExitEntry

/-- An entry is for a key if its text is a way to write it. -/
theorem validatorKey_eq_ok {entry : ExitEntry} {pubkey : Pubkey} :
    entry.validatorKey = .ok pubkey ↔ Hex.Writes entry.pubkey pubkey.bytes :=
  FixedBytes.ofHex_eq_ok

/-- The entries of a batch that have keys, beside their keys. -/
def keyed (batch : List ExitEntry) : List (Pubkey × ExitEntry) :=
  batch.filterMap fun entry => entry.validatorKey.toOption.map fun pubkey => (pubkey, entry)

theorem keyed_eq_zip {batch : List ExitEntry} {pubkeys : List Pubkey}
    (keys : List.Forall₂ (fun entry pubkey => entry.validatorKey = .ok pubkey) batch pubkeys) :
    keyed batch = pubkeys.zip batch :=
  filterMap_toOption_eq_zip keys

theorem keyed_append (batch more : List ExitEntry) :
    keyed (batch ++ more) = keyed batch ++ keyed more :=
  List.filterMap_append

/-- The entries beside a key are those for it. -/
theorem filter_keyed (batch : List ExitEntry) (pubkey : Pubkey) :
    ((keyed batch).filter fun entry => entry.1 = pubkey).map Prod.snd =
      batch.filter fun entry => entry.validatorKey = .ok pubkey := by
  unfold keyed
  induction batch with
  | nil => rfl
  | cons entry rest ih =>
    rw [List.filterMap_cons]
    cases key : entry.validatorKey with
    | error fault =>
      rw [List.filter_cons_of_neg (by simp [key]), ← ih]
      rfl
    | ok own =>
      show (((own, entry) :: _).filter _).map Prod.snd = _
      by_cases same : own = pubkey
      · rw [List.filter_cons_of_pos (by simpa using same), List.map_cons, ih,
          List.filter_cons_of_pos (by simp [key, same])]
      · rw [List.filter_cons_of_neg (by simpa using same), ih,
          List.filter_cons_of_neg (by simp [key, same])]

/-- Why an exit may not be handed in where some validators are held: its key is read before it is
looked for. -/
def objection (held : List Validator) (entry : ExitEntry) : Option Refusal :=
  match entry.validatorKey with
  | .error fault => some (.invalidInput (.exitKey entry.pubkey fault))
  | .ok pubkey =>
    if ∃ validator ∈ held, validator.pubkey = pubkey then none
    else some (.unknownValidator pubkey)

theorem objection_eq_none {held : List Validator} {entry : ExitEntry} :
    entry.objection held = none ↔
      ∃ validator ∈ held, Hex.Writes entry.pubkey validator.pubkey.bytes := by
  simp only [← validatorKey_eq_ok]
  unfold objection
  cases entry.validatorKey with
  | error fault => simp
  | ok pubkey => simp [eq_comm]

/-- Objections have to do with the keys that are held only. -/
theorem objection_congr {held others : List Validator}
    (same : others.map Validator.pubkey = held.map Validator.pubkey) :
    objection others = objection held := by
  have keys : ∀ pubkey, (∃ validator ∈ others, validator.pubkey = pubkey) ↔
      ∃ validator ∈ held, validator.pubkey = pubkey := fun pubkey => by
    rw [← List.mem_map, same, List.mem_map]
  funext entry
  unfold objection
  simp only [keys]

/-- Two entries have the same exit, for the same key. -/
def Alike (entry other : ExitEntry) : Prop :=
  other.exit = entry.exit ∧ ∃ pubkey : Pubkey,
    Hex.Writes entry.pubkey pubkey.bytes ∧ Hex.Writes other.pubkey pubkey.bytes

theorem Alike.objection {entry other : ExitEntry} (alike : entry.Alike other)
    (held : List Validator) : other.objection held = entry.objection held := by
  obtain ⟨-, pubkey, written, written'⟩ := alike
  rw [ExitEntry.objection, validatorKey_eq_ok.mpr written', ExitEntry.objection,
    validatorKey_eq_ok.mpr written]

theorem keyed_congr {batch others : List ExitEntry} (alike : List.Forall₂ Alike batch others) :
    (keyed others).map (fun entry => (entry.1, entry.2.exit)) =
      (keyed batch).map fun entry => (entry.1, entry.2.exit) := by
  unfold keyed
  induction alike with
  | nil => rfl
  | cons same _ ih =>
    obtain ⟨exit, pubkey, written, written'⟩ := same
    rw [List.filterMap_cons, validatorKey_eq_ok.mpr written', List.filterMap_cons,
      validatorKey_eq_ok.mpr written]
    exact congrArg₂ List.cons (congrArg (Prod.mk pubkey) exit) ih

end ExitEntry

theorem Node.checkExit_eq_error {node : Node} {network : String} (entry : ExitEntry)
    (refusal : Refusal) :
    node.checkExit network entry = .error refusal ↔
      entry.objection (node.held network) = some refusal := by
  unfold checkExit ExitEntry.objection
  cases entry.validatorKey with
  | error fault => simp
  | ok pubkey =>
    simp only [← List.mem_map, ← hasValidator_iff]
    cases node.hasValidator network pubkey <;> simp

/-! ### Attaching -/

namespace Validator

/-- A validator after a batch of exits: of those for its key, the last one stays. -/
def withExits (batch : List ExitEntry) (validator : Validator) : Validator :=
  match (batch.filter fun entry => entry.validatorKey = .ok validator.pubkey).getLast? with
  | some entry => { validator with exit := some entry.exit, exitUploaded := true }
  | none => validator

/-- Exits for other keys leave a validator alone. -/
theorem withExits_of_forall_ne {batch : List ExitEntry} {validator : Validator}
    (others : ∀ entry ∈ batch, entry.validatorKey ≠ .ok validator.pubkey) :
    validator.withExits batch = validator := by
  have none : batch.filter (fun entry => entry.validatorKey = .ok validator.pubkey) = [] :=
    List.filter_eq_nil_iff.mpr fun entry member same =>
      others entry member (of_decide_eq_true same)
  rw [withExits, none, List.getLast?_nil]

/-- An exit for its key that comes last stays. -/
theorem withExits_concat {entry : ExitEntry} {validator : Validator}
    (key : entry.validatorKey = .ok validator.pubkey) (batch : List ExitEntry) :
    validator.withExits (batch ++ [entry]) =
      { validator with exit := some entry.exit, exitUploaded := true } := by
  rw [withExits, List.filter_append, List.filter_singleton, decide_eq_true key, cond_true,
    List.getLast?_concat]

/-- Exits are attached by changes for their keys. -/
theorem changed_keyed (batch : List ExitEntry) (validator : Validator) :
    validator.changed ((ExitEntry.keyed batch).map fun entry =>
      (entry.1, attachExit entry.2.exit)) = validator.withExits batch := by
  refine (changed_eq_last (fun entry : ExitEntry => attachExit entry.exit) (fun _ _ => rfl)
    (fun _ _ _ => rfl) (ExitEntry.keyed batch) validator).trans ?_
  rw [ExitEntry.filter_keyed, withExits]
  cases (batch.filter fun entry => entry.validatorKey = .ok validator.pubkey).getLast? <;> rfl

/-- Where keys differ, the first validator with a key is the only one. -/
theorem modifyFirst_eq_map {change : Validator → Validator} {held : List Validator}
    (distinct : (held.map pubkey).Nodup) (pubkey : Pubkey) :
    modifyFirst (fun validator => validator.pubkey = pubkey) change held =
      held.map (changeFor pubkey change) := by
  induction held with
  | nil => rfl
  | cons validator rest ih =>
    rw [List.map_cons, List.nodup_cons] at distinct
    rw [modifyFirst, List.map_cons, changeFor]
    by_cases same : validator.pubkey = pubkey
    · rw [if_pos (by simpa using same), if_pos same]
      congr 1
      have others : ∀ other ∈ rest, changeFor pubkey change other = other := by
        intro other member
        refine if_neg fun again => distinct.1 ?_
        rw [same, ← again]
        exact List.mem_map_of_mem member
      rw [List.map_congr_left others, List.map_id']
    · rw [if_neg (by simpa using same), if_neg same, ih distinct.2]

/-- **Exits that are attached one after the other** are attached to all validators at once. -/
theorem attached_eq_map {held : List Validator} (distinct : (held.map pubkey).Nodup)
    (batch : List ExitEntry) :
    (ExitEntry.keyed batch).foldl
        (fun validators entry =>
          modifyFirst (fun validator => validator.pubkey = entry.1) (·.attachExit entry.2.exit)
            validators)
        held = held.map (withExits batch) := by
  have each : withExits batch =
      changed ((ExitEntry.keyed batch).map fun entry => (entry.1, attachExit entry.2.exit)) :=
    funext fun validator => (changed_keyed batch validator).symm
  rw [each]
  generalize ExitEntry.keyed batch = entries
  induction entries generalizing held with
  | nil => exact (List.map_id' held).symm
  | cons entry rest ih =>
    rw [List.foldl_cons, modifyFirst_eq_map distinct, ih, List.map_map]
    · rfl
    · rw [List.map_map]
      have kept : pubkey ∘ changeFor entry.1 (·.attachExit entry.2.exit) = pubkey := by
        funext validator
        simp only [Function.comp_apply, changeFor]
        split <;> rfl
      rwa [kept]

end Validator

namespace Node

/-- A node whose validators on a network have the exits of a batch. -/
def withExits (node : Node) (network : String) (batch : List ExitEntry) : Node :=
  { node with validators := node.validators.modify network (List.map (Validator.withExits batch)) }

/-- Where a node holds keys once, **a batch gives each validator its last exit**. -/
theorem attachExits_keyed {node : Node} {network : String}
    (distinct : ((node.held network).map Validator.pubkey).Nodup) (batch : List ExitEntry) :
    node.attachExits network (ExitEntry.keyed batch) = node.withExits network batch := by
  unfold attachExits withExits
  congr 1
  ext place : 1
  simp only [Std.ExtTreeMap.getElem?_modify, Std.LawfulEqCmp.compare_eq_iff_eq]
  split
  · rename_i same
    subst same
    cases found : node.validators[network]? with
    | none => rfl
    | some validators =>
      have held : node.held network = validators := by rw [held, found, Option.getD_some]
      rw [held] at distinct
      exact congrArg some (Validator.attached_eq_map distinct batch)
  · rfl

theorem held_withExits (node : Node) (network : String) (batch : List ExitEntry) :
    (node.withExits network batch).held network =
      (node.held network).map (Validator.withExits batch) := by
  simp only [held, withExits, Std.ExtTreeMap.getElem?_modify_self]
  cases node.validators[network]? <;> rfl

theorem attachExits_append (node : Node) (network : String)
    (earlier later : List (Pubkey × ExitEntry)) :
    node.attachExits network (earlier ++ later) =
      (node.attachExits network earlier).attachExits network later := by
  unfold attachExits
  congr 1
  ext place : 1
  simp only [Std.ExtTreeMap.getElem?_modify, Std.LawfulEqCmp.compare_eq_iff_eq,
    List.foldl_append]
  split
  · rename_i same
    subst same
    simp only [if_true, Option.map_map]
    rfl
  · rfl

/-- Of an entry, only its key and its exit matter. -/
theorem attachExits_congr {node : Node} {network : String}
    {entries others : List (Pubkey × ExitEntry)}
    (same : others.map (fun entry => (entry.1, entry.2.exit)) =
      entries.map fun entry => (entry.1, entry.2.exit)) :
    node.attachExits network others = node.attachExits network entries := by
  have pairs : ∀ (entries : List (Pubkey × ExitEntry)) (held : List Validator),
      entries.foldl
          (fun validators entry =>
            modifyFirst (fun validator => validator.pubkey = entry.1) (·.attachExit entry.2.exit)
              validators)
          held =
        (entries.map fun entry => (entry.1, entry.2.exit)).foldl
          (fun validators pair =>
            modifyFirst (fun validator => validator.pubkey = pair.1) (·.attachExit pair.2)
              validators)
          held := fun entries held => by rw [List.foldl_map]
  unfold attachExits
  congr 2
  funext held
  exact (pairs others held).trans
    ((congrArg (List.foldl _ held) same).trans (pairs entries held).symm)

theorem map_pubkey_attachExits (node : Node) (network : String)
    (entries : List (Pubkey × ExitEntry)) (place : String) :
    ((node.attachExits network entries).held place).map Validator.pubkey =
      (node.held place).map Validator.pubkey :=
  (Validator.allAdvance_attachExits node network entries place).map_pubkey

end Node

namespace Directory

open Operation

variable {directory : Directory} {address : Address} {network : String} {batch : List ExitEntry}

/-! ### Accepted and refused batches -/

/-- **Exits are refused for their node, or for the first objection to one**, or the node attaches
them. -/
theorem outcome_uploadExits_eq (directory : Directory) (address : Address) (network : String)
    (batch : List ExitEntry) :
    (uploadExits address network batch).outcome directory =
      match directory.registeredNode address,
        batch.findSome? (ExitEntry.objection (directory.validatorsAt address network)) with
      | .error refusal, _ => (.error refusal, directory)
      | .ok _, some refusal => (.error refusal, directory)
      | .ok node, none =>
        (.ok (), directory.withNode address
          (node.attachExits network (ExitEntry.keyed batch))) := by
  rw [outcome_uploadExits, checkExits]
  cases known : directory.registeredNode address with
  | error refusal => rfl
  | ok node =>
    rw [ok_bind, validatorsAt_of_node? (registeredNode_eq_ok.mp known).1]
    cases checked : batch.mapM (node.checkExit network) with
    | error refusal =>
      rw [(mapM_eq_error Node.checkExit_eq_error).mp checked]
      rfl
    | ok pubkeys =>
      have keys := (mapM_eq_ok.mp checked).imp fun _ _ passed => (Node.checkExit_eq_ok.mp passed).1
      rw [findSome?_of_mapM_eq_ok Node.checkExit_eq_error checked, ExitEntry.keyed_eq_zip keys]
      rfl

/-- **Exits are accepted** from a registered node if there is no objection to any of them. -/
theorem uploadExits_eq_ok {after : Directory} :
    (uploadExits address network batch).outcome directory = (.ok (), after) ↔
      ∃ node, directory.registeredNode address = .ok node ∧
        (∀ entry ∈ batch, entry.objection (directory.validatorsAt address network) = none) ∧
        directory.withNode address (node.attachExits network (ExitEntry.keyed batch)) = after := by
  rw [outcome_uploadExits_eq, ← List.findSome?_eq_none_iff]
  cases directory.registeredNode address with
  | error refusal => simp
  | ok node =>
    cases batch.findSome? (ExitEntry.objection (directory.validatorsAt address network)) <;> simp

/-- **Exits are refused** from a node that is not registered, or else for the first one to which
there is an objection. -/
theorem uploadExits_eq_error {refusal : Refusal} {after : Directory} :
    (uploadExits address network batch).outcome directory = (.error refusal, after) ↔
      after = directory ∧
        if directory.isRegistered address then
          batch.findSome? (ExitEntry.objection (directory.validatorsAt address network)) =
            some refusal
        else refusal = .unknownNode address := by
  rw [outcome_uploadExits_eq]
  rcases registeredNode_cases directory address with ⟨node, found, registered⟩ | ⟨missing, absent⟩
  · rw [found, if_pos registered]
    cases batch.findSome? (ExitEntry.objection (directory.validatorsAt address network)) with
    | none => simp
    | some other => simp [and_comm, eq_comm]
  · rw [missing, if_neg (by simp [absent])]
    simp [and_comm, eq_comm]

/-- The node that attached exits is registered as it was before. -/
theorem registeredNode_attachExits {node : Node}
    (found : directory.registeredNode address = .ok node) (entries : List (Pubkey × ExitEntry)) :
    (directory.withNode address (node.attachExits network entries)).registeredNode address =
      .ok (node.attachExits network entries) := by
  obtain ⟨-, registered⟩ := registeredNode_eq_ok.mp found
  exact registeredNode_eq_ok.mpr ⟨by rw [node?_withNode, if_pos rfl], registered⟩

/-! ### The effect of exits -/

section Accepted

variable {after : Directory}

/-- **Nothing but the exits of the node changes.** -/
theorem exists_node_exited (sound : Sound directory)
    (accepted : (uploadExits address network batch).outcome directory = (.ok (), after)) :
    ∃ node, directory.node? address = some node ∧
      after.node? address = some (node.withExits network batch) ∧
      OnlyNode address directory after := by
  obtain ⟨node, known, -, rfl⟩ := uploadExits_eq_ok.mp accepted
  obtain ⟨found, -⟩ := registeredNode_eq_ok.mp known
  have distinct := sound.distinct address network
  rw [validatorsAt_of_node? found] at distinct
  refine ⟨node, found, ?_, onlyNode_withNode directory address _⟩
  rw [node?_withNode, if_pos rfl, Node.attachExits_keyed distinct]

/-- **A batch may come in two parts**, and two batches as one. -/
theorem uploadExits_append (directory : Directory) (address : Address) (network : String)
    (batch more : List ExitEntry) (after : Directory) :
    (uploadExits address network (batch ++ more)).outcome directory = (.ok (), after) ↔
      ∃ between, (uploadExits address network batch).outcome directory = (.ok (), between) ∧
        (uploadExits address network more).outcome between = (.ok (), after) := by
  -- After the first part the node holds the same keys, so that the objections are the same.
  have objections : ∀ {node}, directory.registeredNode address = .ok node →
      ExitEntry.objection ((directory.withNode address
          (node.attachExits network (ExitEntry.keyed batch))).validatorsAt address network) =
        ExitEntry.objection (directory.validatorsAt address network) := by
    intro node known
    refine ExitEntry.objection_congr ?_
    rw [validatorsAt_withNode, if_pos rfl, Node.map_pubkey_attachExits,
      validatorsAt_of_node? (registeredNode_eq_ok.mp known).1]
  simp only [uploadExits_eq_ok]
  constructor
  · rintro ⟨node, known, fine, rfl⟩
    rw [List.forall_mem_append] at fine
    refine ⟨_, ⟨node, known, fine.1, rfl⟩, _, registeredNode_attachExits known _, ?_, ?_⟩
    · rw [objections known]
      exact fine.2
    · rw [withNode_withNode, ExitEntry.keyed_append, Node.attachExits_append]
  · rintro ⟨between, ⟨node, known, fine, rfl⟩, node', known', fine', rfl⟩
    obtain rfl := Except.ok.inj ((registeredNode_attachExits known _).symm.trans known')
    rw [objections known] at fine'
    refine ⟨node, known, List.forall_mem_append.mpr ⟨fine, fine'⟩, ?_⟩
    rw [withNode_withNode, ExitEntry.keyed_append, Node.attachExits_append]

end Accepted

/-- **How keys are written does not matter**: batches with the same exits for the same keys have the
same outcome. -/
theorem uploadExits_congr (directory : Directory) (address : Address) (network : String)
    {batch others : List ExitEntry} (alike : List.Forall₂ ExitEntry.Alike batch others) :
    (uploadExits address network others).outcome directory =
      (uploadExits address network batch).outcome directory := by
  have objections : others.findSome?
        (ExitEntry.objection (directory.validatorsAt address network)) =
      batch.findSome? (ExitEntry.objection (directory.validatorsAt address network)) := by
    induction alike with
    | nil => rfl
    | cons same _ ih => rw [List.findSome?_cons, List.findSome?_cons, ih, same.objection]
  rw [outcome_uploadExits_eq, outcome_uploadExits_eq, objections]
  cases directory.registeredNode address with
  | error refusal => rfl
  | ok node =>
    cases batch.findSome? (ExitEntry.objection (directory.validatorsAt address network)) with
    | some refusal => rfl
    | none =>
      show (Except.ok (), directory.withNode address _) = (Except.ok (), _)
      rw [Node.attachExits_congr (ExitEntry.keyed_congr alike)]

/-- **Exits are last-write-wins and confined.** In every directory that can come about, a batch of
exits for a network is accepted if it comes from a registered node and the text of every entry is
one of the ways to write a key that this node holds on this network: bare or behind a mark, in digits
of either case. Any other batch changes nothing, and is refused for the node if that is not
registered, or else for the first entry to which there is an objection. After an accepted batch, each
validator of the node on the network whose key is written in the batch has the exit of the last entry
for it; nothing else has changed. Batches that come one after the other are accepted, and lead to the
same directory, as if they were one; and how a key is written makes no difference. -/
theorem uploadExits_exact (actions : List Action) (address : Address) (network : String)
    (batch : List ExitEntry) :
    ((∃ after, (uploadExits address network batch).outcome (built actions) = (.ok (), after)) ↔
      (built actions).isRegistered address = true ∧ ∀ entry ∈ batch,
        ∃ validator ∈ (built actions).validatorsAt address network,
          Hex.Writes entry.pubkey validator.pubkey.bytes) ∧
    (∀ refusal after,
      (uploadExits address network batch).outcome (built actions) = (.error refusal, after) →
        after = built actions ∧
          if (built actions).isRegistered address then
            batch.findSome?
                (ExitEntry.objection ((built actions).validatorsAt address network)) =
              some refusal
          else refusal = .unknownNode address) ∧
    (∀ after, (uploadExits address network batch).outcome (built actions) = (.ok (), after) →
      ∃ node, (built actions).node? address = some node ∧
        after.node? address = some (node.withExits network batch) ∧
        OnlyNode address (built actions) after) ∧
    (∀ more after,
      (uploadExits address network (batch ++ more)).outcome (built actions) = (.ok (), after) ↔
        ∃ between,
          (uploadExits address network batch).outcome (built actions) = (.ok (), between) ∧
          (uploadExits address network more).outcome between = (.ok (), after)) ∧
    ∀ others, List.Forall₂ ExitEntry.Alike batch others →
      (uploadExits address network others).outcome (built actions) =
        (uploadExits address network batch).outcome (built actions) := by
  have sound := sound_built actions
  refine ⟨?_, fun refusal after refused => uploadExits_eq_error.mp refused,
    fun after accepted => exists_node_exited sound accepted,
    uploadExits_append (built actions) address network batch,
    fun others alike => uploadExits_congr (built actions) address network alike⟩
  simp only [uploadExits_eq_ok, isRegistered_iff, ← ExitEntry.objection_eq_none]
  constructor
  · rintro ⟨_, node, known, fine, -⟩
    exact ⟨⟨node, known⟩, fine⟩
  · rintro ⟨⟨node, known⟩, fine⟩
    exact ⟨_, node, known, fine, rfl⟩

/-- Two nodes, with two keys and one key, and the first key of the first node on another network. -/
def lettered : List Action :=
  opening "a" [repeated 1, repeated 2] "n" [repeated 9] ++
    [.change (.uploadDeposits (repeated 1)
        [plainDeposit 0xab (repeated 9) "n", plainDeposit 4 (repeated 9) "n"]),
      .change (.uploadDeposits (repeated 2) [plainDeposit 5 (repeated 9) "n"])]

/-- An exit from an epoch on. -/
def exitFrom (epoch : String) : SignedExit :=
  { wish := { epoch, validatorIndex := "7" }, signature := "s" }

/-- The key that repeats the byte `ab`, in capitals behind a mark in capitals. -/
def capitalText : String :=
  "0X" ++ String.ofList (List.replicate 48 ['A', 'B']).flatten

theorem writes_capitalText :
    Hex.Writes capitalText (repeated 0xab : Pubkey).bytes := by
  refine ⟨"0X", by simp, _, rfl, ?_⟩
  have lower : ['A', 'B'].map Char.toLower = Hex.digits 0xab := by decide
  rw [Hex.encode, ← String.toList_inj, Hex.toList_toLower, String.toList_ofList,
    String.toList_ofList, List.map_flatten, List.map_replicate, lower]
  exact List.flatMap_replicate.symm

/-- Two exits for one key, which is written in two ways. -/
def writtenTwice : List ExitEntry :=
  [⟨Pubkey.text (repeated 0xab), exitFrom "1"⟩, ⟨capitalText, exitFrom "2"⟩]

/-- An exit for a key of the node, and one for a key of the other node. -/
def foreignExit : List ExitEntry :=
  [⟨capitalText, exitFrom "1"⟩, ⟨Pubkey.text (repeated 5), exitFrom "2"⟩]

set_option maxRecDepth 2000 in
/-- The exit behind stays, for a key that is written in another way; a batch with a foreign key is
refused. -/
theorem uploadExits_exact_writtenTwice :
    (∃ after,
      (uploadExits (repeated 1) "n" writtenTwice).outcome (built lettered) = (.ok (), after) ∧
      after.validatorsAt (repeated 1) "n" =
        [{ Validator.ofDeposit (repeated 0xab) (plainDeposit 0xab (repeated 9) "n") with
            exit := some (exitFrom "2"), exitUploaded := true },
          .ofDeposit (repeated 4) (plainDeposit 4 (repeated 9) "n")]) ∧
    (uploadExits (repeated 1) "n" foreignExit).outcome (built lettered) =
      (.error (.unknownValidator (repeated 5)), built lettered) := by
  have registered : (built lettered).isRegistered (repeated 1) = true := by decide
  have held : (built lettered).validatorsAt (repeated 1) "n" =
      [.ofDeposit (repeated 0xab) (plainDeposit 0xab (repeated 9) "n"),
        .ofDeposit (repeated 4) (plainDeposit 4 (repeated 9) "n")] := by decide
  have plain : ∀ pubkey exit, ExitEntry.validatorKey ⟨Pubkey.text pubkey, exit⟩ = .ok pubkey :=
    fun pubkey _ => Pubkey.ofHex_text pubkey
  have capital : ∀ exit, ExitEntry.validatorKey ⟨capitalText, exit⟩ = .ok (repeated 0xab) :=
    fun _ => ExitEntry.validatorKey_eq_ok.mpr writes_capitalText
  have member : Validator.ofDeposit (repeated 0xab) (plainDeposit 0xab (repeated 9) "n") ∈
      (built lettered).validatorsAt (repeated 1) "n" := held ▸ List.mem_cons_self
  constructor
  · obtain ⟨accepted, -, effect, -⟩ := uploadExits_exact lettered (repeated 1) "n" writtenTwice
    have keys : ∀ entry ∈ writtenTwice, entry.validatorKey = .ok (repeated 0xab) :=
      List.forall_mem_cons.mpr ⟨plain _ _, List.forall_mem_singleton.mpr (capital _)⟩
    obtain ⟨after, given⟩ := accepted.mpr ⟨registered, fun entry listed =>
      ⟨_, member, ExitEntry.validatorKey_eq_ok.mp (keys entry listed)⟩⟩
    have last : (Validator.ofDeposit (repeated 0xab) (plainDeposit 0xab (repeated 9) "n")).withExits
        writtenTwice = _ :=
      Validator.withExits_concat (capital (exitFrom "2"))
        [⟨Pubkey.text (repeated 0xab), exitFrom "1"⟩]
    have other : (Validator.ofDeposit (repeated 4) (plainDeposit 4 (repeated 9) "n")).withExits
        writtenTwice = _ :=
      Validator.withExits_of_forall_ne fun entry listed same =>
        absurd (Except.ok.inj ((keys entry listed).symm.trans same)) (by decide)
    obtain ⟨node, found, changed, -⟩ := effect after given
    refine ⟨after, given, ?_⟩
    rw [validatorsAt_of_node? changed, Node.held_withExits, ← validatorsAt_of_node? found, held,
      List.map_cons, List.map_singleton, last, other]
  · obtain ⟨accepted, refused, -⟩ := uploadExits_exact lettered (repeated 1) "n" foreignExit
    have objected : foreignExit.findSome?
        (ExitEntry.objection ((built lettered).validatorsAt (repeated 1) "n")) =
          some (.unknownValidator (repeated 5)) := by
      have fine : ExitEntry.objection ((built lettered).validatorsAt (repeated 1) "n")
          ⟨capitalText, exitFrom "1"⟩ = none :=
        ExitEntry.objection_eq_none.mpr ⟨_, member, writes_capitalText⟩
      have foreign : ¬ ∃ validator ∈ (built lettered).validatorsAt (repeated 1) "n",
          validator.pubkey = repeated 5 := by
        rw [held]
        decide
      rw [foreignExit, List.findSome?_cons, fine, List.findSome?_cons, ExitEntry.objection, plain]
      simp only [if_neg foreign]
    rcases given : (uploadExits (repeated 1) "n" foreignExit).outcome (built lettered) with
      ⟨result, after⟩
    cases result with
    | ok =>
      obtain ⟨-, fine⟩ := accepted.mp ⟨after, given⟩
      have none := List.findSome?_eq_none_iff.mpr fun entry member =>
        ExitEntry.objection_eq_none.mpr (fine entry member)
      cases objected.symm.trans none
    | error refusal =>
      obtain ⟨rfl, first⟩ := refused refusal after given
      rw [if_pos registered, objected] at first
      rw [Option.some.inj first]

end Directory

end StakingDirectory
