/-
**What an upload of deposits takes in.**

* `Validator.fresh` picks out of validators that come in those with keys that are not held yet, the
  first one for each key; these are what records add to a list (`accepted_eq`), where for a new key
  the first one is found (`find?_append_fresh`);
* `objection` is why a record may not be handed in; `uploadDeposits_of_registered`,
  `registered_of_uploadDeposits` and `uploadDeposits_eq_error` are the outcomes of an upload in
  these terms;
* `acceptDeposits_append`, `acceptDeposits_of_held`: records are taken in one after the other, and
  records for validators that the node holds change nothing;
* `uploadDeposits_exact` puts this together: what is accepted, what is refused for what, what an
  accepted batch changes, and what happens to a batch that comes again or in two parts.
-/

import Mathlib.Algebra.BigOperators.Group.Finset.Piecewise
import StakingDirectory.Proofs.Directory.Growth

namespace StakingDirectory

/-! ### New validators -/

/-- The records of a batch that have keys, beside their keys. -/
def Deposit.entries (batch : List Deposit) : List (Pubkey × Deposit) :=
  batch.filterMap fun deposit => deposit.validatorKey.toOption.map fun pubkey => (pubkey, deposit)

theorem Deposit.entries_eq_zip {batch : List Deposit} {pubkeys : List Pubkey}
    (keys : List.Forall₂ (fun deposit pubkey => deposit.validatorKey = .ok pubkey) batch pubkeys) :
    Deposit.entries batch = pubkeys.zip batch :=
  filterMap_toOption_eq_zip keys

theorem Deposit.mem_of_mem_entries {batch : List Deposit} {entry : Pubkey × Deposit}
    (member : entry ∈ Deposit.entries batch) : entry.2 ∈ batch := by
  obtain ⟨deposit, listed, same⟩ := List.mem_filterMap.mp member
  obtain ⟨pubkey, -, rfl⟩ := Option.map_eq_some_iff.mp same
  exact listed

namespace Validator

/-- The validators that the records of a batch for a network are handed in for. -/
def handedIn (network : String) (batch : List Deposit) : List Validator :=
  ((Deposit.entries batch).filter fun entry => entry.2.network = network).map fun entry =>
    .ofDeposit entry.1 entry.2

/-- Of validators that come in where some are held, those with other keys, the first one for each
key. -/
def fresh (held arrivals : List Validator) : List Validator :=
  (arrivals.filter fun validator => !(held.map pubkey).contains validator.pubkey).eraseDupsBy
    fun one other => one.pubkey = other.pubkey

theorem fresh_cons_of_mem {held : List Validator} {validator : Validator}
    (known : validator.pubkey ∈ held.map pubkey) (rest : List Validator) :
    fresh held (validator :: rest) = fresh held rest := by
  rw [fresh, List.filter_cons_of_neg (by simpa using known), ← fresh]

/-- A validator with a new key comes in, and those behind it come in where it is held. -/
theorem fresh_cons_of_not_mem {held : List Validator} {validator : Validator}
    (unknown : validator.pubkey ∉ held.map pubkey) (rest : List Validator) :
    fresh held (validator :: rest) = validator :: fresh (held ++ [validator]) rest := by
  rw [fresh, List.filter_cons_of_pos (by simpa using unknown), List.eraseDupsBy_cons,
    List.filter_filter, fresh]
  congr 2
  refine List.filter_congr fun other _ => ?_
  rw [Bool.eq_iff_iff]
  simp [and_comm]

/-- **Records add the validators that are new**, behind those that are held. -/
theorem accepted_eq (held : List Validator) (entries : List (Pubkey × Deposit)) :
    accepted held entries =
      held ++ fresh held (entries.map fun entry => .ofDeposit entry.1 entry.2) := by
  induction entries generalizing held with
  | nil => exact (List.append_nil held).symm
  | cons entry rest ih =>
    show accepted (if entry.1 ∈ held.map pubkey then held
      else held ++ [.ofDeposit entry.1 entry.2]) rest = _
    rw [List.map_cons]
    by_cases known : entry.1 ∈ held.map pubkey
    · rw [if_pos known, ih, fresh_cons_of_mem known]
    · rw [if_neg known, ih, fresh_cons_of_not_mem known, List.append_assoc,
        List.singleton_append]

/-- **Of the validators that come in for a key, the first one is found**, if none is held. -/
theorem find?_append_fresh (held arrivals : List Validator) (pubkey : Pubkey) :
    (held ++ fresh held arrivals).find? (fun validator => validator.pubkey = pubkey) =
      (held ++ arrivals).find? fun validator => validator.pubkey = pubkey := by
  induction arrivals generalizing held with
  | nil => rfl
  | cons validator rest ih =>
    by_cases known : validator.pubkey ∈ held.map Validator.pubkey
    · rw [fresh_cons_of_mem known, ih, List.find?_append, List.find?_append]
      by_cases same : validator.pubkey = pubkey
      · -- One that is held is found in front of it.
        subst same
        obtain ⟨other, member, own⟩ := List.mem_map.mp known
        have found : (held.find? fun other => other.pubkey = validator.pubkey).isSome = true :=
          List.find?_isSome.mpr ⟨other, member, decide_eq_true own⟩
        rw [Option.or_of_isSome found, Option.or_of_isSome found]
      · rw [List.find?_cons_of_neg (by simpa using same)]
    · rw [fresh_cons_of_not_mem known, List.append_cons, ih, ← List.append_cons]

/-- The first validator that a batch is handed in for is that of its first record. -/
theorem find?_handedIn (network : String) (batch : List Deposit) (pubkey : Pubkey) :
    (handedIn network batch).find? (fun validator => validator.pubkey = pubkey) =
      (batch.find? fun deposit =>
        deposit.network = network ∧ deposit.pubkey = pubkey.bytes).map (.ofDeposit pubkey) := by
  have own : ∀ deposit : Deposit,
      ((deposit.validatorKey.toOption.map fun own => (own, deposit)).any fun entry =>
        decide (entry.2.network = network) && decide (entry.1 = pubkey)) =
      (decide (deposit.network = network) && decide (deposit.pubkey = pubkey.bytes)) := by
    intro deposit
    rw [Bool.eq_iff_iff, Bool.and_eq_true, decide_eq_true_iff, decide_eq_true_iff,
      ← Deposit.validatorKey_eq_ok]
    cases deposit.validatorKey <;> simp [Except.toOption]
  rw [handedIn, List.find?_map, List.find?_filter, Deposit.entries, List.find?_filterMap]
  simp only [Function.comp_def, ofDeposit, decide_eq_true_iff, Bool.decide_and, own]
  cases found : batch.find? fun deposit =>
      decide (deposit.network = network) && decide (deposit.pubkey = pubkey.bytes) with
  | none => rfl
  | some deposit =>
    have both := List.find?_some found
    obtain ⟨-, same⟩ := Bool.and_eq_true_iff.mp both
    rw [Option.bind_some, Deposit.validatorKey_eq_ok.mpr (of_decide_eq_true same)]
    rfl

/-- **A key is held after records were taken in** if it was before, or one of them is for it. -/
theorem mem_map_pubkey_accepted {held : List Validator} {entries : List (Pubkey × Deposit)}
    {pubkey : Pubkey} :
    pubkey ∈ (accepted held entries).map Validator.pubkey ↔
      pubkey ∈ held.map Validator.pubkey ∨ pubkey ∈ entries.map Prod.fst := by
  induction entries generalizing held with
  | nil => simp [accepted]
  | cons entry rest ih =>
    show pubkey ∈ (accepted (if entry.1 ∈ held.map Validator.pubkey then held
      else held ++ [.ofDeposit entry.1 entry.2]) rest).map Validator.pubkey ↔ _
    rw [ih, List.map_cons, List.mem_cons]
    split
    · rename_i known
      constructor
      · exact Or.imp_right .inr
      · rintro (before | rfl | later)
        · exact .inl before
        · exact .inl known
        · exact .inr later
    · rw [List.map_append, List.mem_append, or_assoc]
      exact or_congr_right (or_congr_left List.mem_singleton)

end Validator

/-! ### Taking records in -/

namespace Node

theorem acceptDeposits_cons (node : Node) (entry : Pubkey × Deposit)
    (rest : List (Pubkey × Deposit)) :
    node.acceptDeposits (entry :: rest) =
      (((node.acceptDeposit entry.1 entry.2).1.acceptDeposits rest).1,
        (node.acceptDeposit entry.1 entry.2).2 +
          ((node.acceptDeposit entry.1 entry.2).1.acceptDeposits rest).2) := by
  -- The count that a record starts from is added to what comes later.
  have counted : ∀ (entries : List (Pubkey × Deposit)) (node : Node) (added : Nat),
      entries.foldl (fun progress entry => ((progress.1.acceptDeposit entry.1 entry.2).1,
          progress.2 + (progress.1.acceptDeposit entry.1 entry.2).2)) (node, added) =
        ((node.acceptDeposits entries).1, added + (node.acceptDeposits entries).2) := by
    intro entries
    induction entries with
    | nil => exact fun _ _ => rfl
    | cons entry rest ih =>
      intro node added
      unfold acceptDeposits
      rw [List.foldl_cons, List.foldl_cons, ih]
      refine Eq.trans ?_ (congrArg (fun progress : Node × Nat => (progress.1, added + progress.2))
        (ih (node.acceptDeposit entry.1 entry.2).1
          (0 + (node.acceptDeposit entry.1 entry.2).2)).symm)
      rw [Nat.zero_add, Nat.add_assoc]
  refine (counted rest (node.acceptDeposit entry.1 entry.2).1
    (0 + (node.acceptDeposit entry.1 entry.2).2)).trans ?_
  rw [Nat.zero_add]

/-- **Records are taken in one after the other.** -/
theorem acceptDeposits_append (node : Node) (earlier later : List (Pubkey × Deposit)) :
    node.acceptDeposits (earlier ++ later) =
      (((node.acceptDeposits earlier).1.acceptDeposits later).1,
        (node.acceptDeposits earlier).2 +
          ((node.acceptDeposits earlier).1.acceptDeposits later).2) := by
  induction earlier generalizing node with
  | nil =>
    rw [List.nil_append, show node.acceptDeposits [] = (node, 0) from rfl, Nat.zero_add]
  | cons entry rest ih =>
    rw [List.cons_append, acceptDeposits_cons, ih, acceptDeposits_cons node entry rest,
      Nat.add_assoc]

/-- **Records for validators that the node holds change nothing.** -/
theorem acceptDeposits_of_held {node : Node} {entries : List (Pubkey × Deposit)}
    (held : ∀ entry ∈ entries, entry.1 ∈ (node.held entry.2.network).map Validator.pubkey) :
    node.acceptDeposits entries = (node, 0) := by
  induction entries with
  | nil => rfl
  | cons entry rest ih =>
    have known : node.acceptDeposit entry.1 entry.2 = (node, 0) :=
      if_pos (hasValidator_iff.mpr (held entry List.mem_cons_self))
    rw [acceptDeposits_cons, known,
      ih fun other member => held other (List.mem_cons_of_mem _ member)]
    rfl

/-- The list for the network of a record grows by what is counted. -/
theorem length_held_acceptDeposit (node : Node) (pubkey : Pubkey) (deposit : Deposit)
    (network : String) :
    ((node.acceptDeposit pubkey deposit).1.held network).length =
      (node.held network).length +
        if deposit.network = network then (node.acceptDeposit pubkey deposit).2 else 0 := by
  rw [held_acceptDeposit]
  by_cases here : deposit.network = network
  · subst here
    rw [if_pos rfl, if_pos rfl]
    unfold acceptDeposit
    by_cases known : node.hasValidator deposit.network pubkey = true
    · rw [if_pos known]
      simp only [Validator.accepted, List.foldl_cons, List.foldl_nil,
        if_pos (hasValidator_iff.mp known), Nat.add_zero]
    · rw [if_neg known]
      have unknown := fun member => known (hasValidator_iff.mpr member)
      simp only [Validator.accepted, List.foldl_cons, List.foldl_nil, if_neg unknown,
        List.length_append, List.length_singleton]
  · rw [if_neg here, if_neg here, Nat.add_zero]

/-- **The count is by how many validators the lists grow**, over all networks of the records. -/
theorem sum_length_held_acceptDeposits {networks : Finset String} (node : Node)
    {entries : List (Pubkey × Deposit)} (inside : ∀ entry ∈ entries, entry.2.network ∈ networks) :
    ∑ network ∈ networks, ((node.acceptDeposits entries).1.held network).length =
      ∑ network ∈ networks, (node.held network).length + (node.acceptDeposits entries).2 := by
  induction entries generalizing node with
  | nil => rfl
  | cons entry rest ih =>
    rw [acceptDeposits_cons, ih _ fun other member => inside other (List.mem_cons_of_mem _ member)]
    simp only [length_held_acceptDeposit, Finset.sum_add_distrib, Finset.sum_ite_eq,
      if_pos (inside entry List.mem_cons_self), Nat.add_assoc]

end Node

namespace Directory

open Operation

/-! ### Accepted and refused batches -/

/-- Why a record may not be handed in: its key is looked at before its vault. -/
def objection (directory : Directory) (deposit : Deposit) : Option Refusal :=
  if deposit.pubkey.length ≠ 48 then
    some (.invalidInput (.depositKey (.wrongLength deposit.pubkey.length 48)))
  else if directory.vault? deposit.withdrawalAddress deposit.network = none then
    some (.unknownVault deposit.withdrawalAddress deposit.network)
  else none

variable {directory : Directory}

theorem objection_eq_none {deposit : Deposit} :
    directory.objection deposit = none ↔ deposit.pubkey.length = 48 ∧
      ∃ vault, directory.vault? deposit.withdrawalAddress deposit.network = some vault := by
  unfold objection
  by_cases fits : deposit.pubkey.length = 48
  · rw [if_neg (not_not_intro fits), ← Option.ne_none_iff_exists']
    simp [fits]
  · simp [fits]

theorem checkDeposit_eq_error (deposit : Deposit) (refusal : Refusal) :
    directory.checkDeposit deposit = .error refusal ↔
      directory.objection deposit = some refusal := by
  unfold checkDeposit Deposit.requireKey Deposit.validatorKey FixedBytes.ofBytes requireVault
    objection
  by_cases fits : deposit.pubkey.length = 48
  · rw [dif_pos fits, if_neg (not_not_intro fits), ok_bind]
    cases directory.vault? deposit.withdrawalAddress deposit.network with
    | none => simp
    | some vault => exact iff_of_false (fun failed => by cases failed) (by simp)
  · rw [dif_neg fits, if_pos fits, error_bind, Except.error.injEq, Option.some.injEq]

/-- A node is registered if it is found as a registered one. -/
theorem isRegistered_iff {address : Address} :
    directory.isRegistered address = true ↔
      ∃ node, directory.registeredNode address = .ok node := by
  simp only [registeredNode_eq_ok, isRegistered]
  cases directory.node? address <;> simp

theorem registeredNode_cases (directory : Directory) (address : Address) :
    (∃ node, directory.registeredNode address = .ok node ∧
      directory.isRegistered address = true) ∨
    directory.registeredNode address = .error (.unknownNode address) ∧
      directory.isRegistered address = false := by
  unfold registeredNode isRegistered
  cases directory.node? address with
  | none => exact .inr ⟨rfl, rfl⟩
  | some node => cases registered : node.registered <;> simp [registered]

/-- **An upload is refused for its node, or for the first objection to a record**, or the node takes
the records in. -/
theorem outcome_uploadDeposits_eq (directory : Directory) (address : Address)
    (batch : List Deposit) :
    (uploadDeposits address batch).outcome directory =
      match directory.registeredNode address, batch.findSome? directory.objection with
      | .error refusal, _ => (.error refusal, directory)
      | .ok _, some refusal => (.error refusal, directory)
      | .ok node, none =>
        (.ok (node.acceptDeposits (Deposit.entries batch)).2,
          directory.withNode address (node.acceptDeposits (Deposit.entries batch)).1) := by
  rw [outcome_uploadDeposits, checkDeposits]
  cases directory.registeredNode address with
  | error refusal => rfl
  | ok node =>
    rw [ok_bind]
    cases checked : batch.mapM directory.checkDeposit with
    | error refusal =>
      rw [(mapM_eq_error checkDeposit_eq_error).mp checked]
      rfl
    | ok pubkeys =>
      have keys := (mapM_eq_ok.mp checked).imp fun _ _ passed => (checkDeposit_eq_ok.mp passed).1
      rw [findSome?_of_mapM_eq_ok checkDeposit_eq_error checked, Deposit.entries_eq_zip keys]
      rfl

section Outcomes

variable {address : Address} {batch : List Deposit} {next : Directory}

/-- **An upload is accepted** from a registered node if there is no objection to any record. -/
theorem uploadDeposits_of_registered {node : Node}
    (known : directory.registeredNode address = .ok node)
    (fine : ∀ deposit ∈ batch, directory.objection deposit = none) :
    (uploadDeposits address batch).outcome directory =
      (.ok (node.acceptDeposits (Deposit.entries batch)).2,
        directory.withNode address (node.acceptDeposits (Deposit.entries batch)).1) := by
  rw [outcome_uploadDeposits_eq, known, List.findSome?_eq_none_iff.mpr fine]

/-- Only then is it accepted. -/
theorem registered_of_uploadDeposits {count : Nat}
    (accepted : (uploadDeposits address batch).outcome directory = (.ok count, next)) :
    ∃ node, directory.registeredNode address = .ok node ∧
      (∀ deposit ∈ batch, directory.objection deposit = none) ∧
      (node.acceptDeposits (Deposit.entries batch)).2 = count ∧
      directory.withNode address (node.acceptDeposits (Deposit.entries batch)).1 = next := by
  rw [outcome_uploadDeposits_eq] at accepted
  rw [← List.findSome?_eq_none_iff]
  cases known : directory.registeredNode address with
  | error refusal =>
    rw [known] at accepted
    cases accepted
  | ok node =>
    cases objected : batch.findSome? directory.objection with
    | none =>
      rw [known, objected] at accepted
      cases accepted
      exact ⟨node, rfl, rfl, rfl, rfl⟩
    | some refusal =>
      rw [known, objected] at accepted
      cases accepted

/-- **An upload is refused** for a node that is not registered, or else for the first record to
which there is an objection. -/
theorem uploadDeposits_eq_error {refusal : Refusal} :
    (uploadDeposits address batch).outcome directory = (.error refusal, next) ↔
      next = directory ∧
        if directory.isRegistered address then
          batch.findSome? directory.objection = some refusal
        else refusal = .unknownNode address := by
  rw [outcome_uploadDeposits_eq]
  rcases registeredNode_cases directory address with ⟨node, found, registered⟩ | ⟨missing, absent⟩
  · rw [found, if_pos registered]
    cases batch.findSome? directory.objection with
    | none => simp
    | some other => simp [and_comm, eq_comm]
  · rw [missing, if_neg (by simp [absent])]
    simp [and_comm, eq_comm]

end Outcomes

/-- Objections have nothing to do with nodes. -/
theorem objection_withNode (directory : Directory) (address : Address) (node : Node) :
    (directory.withNode address node).objection = directory.objection := rfl

theorem withNode_withNode (directory : Directory) (address : Address) (first second : Node) :
    (directory.withNode address first).withNode address second =
      directory.withNode address second := by
  have once := onlyNode_withNode directory address second
  have twice := (onlyNode_withNode directory address first).trans
    (onlyNode_withNode (directory.withNode address first) address second).toOnlyNodes
  refine eq_of_onlyNodes twice once.toOnlyNodes fun other => ?_
  simp only [node?_withNode]
  split <;> rfl

/-- The node that took records in is registered as it was before. -/
theorem registeredNode_acceptDeposits {address : Address} {node : Node}
    (found : directory.registeredNode address = .ok node) (entries : List (Pubkey × Deposit)) :
    (directory.withNode address (node.acceptDeposits entries).1).registeredNode address =
      .ok (node.acceptDeposits entries).1 := by
  obtain ⟨-, registered⟩ := registeredNode_eq_ok.mp found
  have standing := standing_acceptDeposits node entries
  refine registeredNode_eq_ok.mpr ⟨by rw [node?_withNode, if_pos rfl], ?_⟩
  rw [← registered]
  exact congrArg (fun standing => standing.2.2) standing

/-! ### The effect of an upload -/

section Accepted

variable {address : Address} {batch : List Deposit} {count : Nat} {after : Directory}

/-- **Each list of the node is the old one with the new validators behind it.** -/
theorem validatorsAt_uploaded
    (accepted : (uploadDeposits address batch).outcome directory = (.ok count, after))
    (network : String) :
    after.validatorsAt address network = directory.validatorsAt address network ++
      Validator.fresh (directory.validatorsAt address network)
        (Validator.handedIn network batch) := by
  obtain ⟨node, known, -, -, rfl⟩ := registered_of_uploadDeposits accepted
  obtain ⟨found, -⟩ := registeredNode_eq_ok.mp known
  rw [validatorsAt_acceptDeposits found, if_pos rfl, Validator.accepted_eq]
  rfl

/-- **The count is the number of new validators**, over all networks of the batch. -/
theorem count_uploaded
    (accepted : (uploadDeposits address batch).outcome directory = (.ok count, after)) :
    count = ∑ network ∈ (batch.map Deposit.network).toFinset,
      (Validator.fresh (directory.validatorsAt address network)
        (Validator.handedIn network batch)).length := by
  obtain ⟨node, known, -, rfl, -⟩ := registered_of_uploadDeposits accepted
  obtain ⟨found, -⟩ := registeredNode_eq_ok.mp known
  have inside : ∀ entry ∈ Deposit.entries batch,
      entry.2.network ∈ (batch.map Deposit.network).toFinset := fun entry member =>
    List.mem_toFinset.mpr (List.mem_map_of_mem (Deposit.mem_of_mem_entries member))
  have total := node.sum_length_held_acceptDeposits inside
  simp only [Node.held_acceptDeposits, Validator.accepted_eq, List.length_append,
    Finset.sum_add_distrib] at total
  simp only [validatorsAt_of_node? found]
  exact (Nat.add_left_cancel total).symm

theorem standing?_uploaded
    (accepted : (uploadDeposits address batch).outcome directory = (.ok count, after))
    (other : Address) : after.standing? other = directory.standing? other := by
  obtain ⟨node, known, -, -, rfl⟩ := registered_of_uploadDeposits accepted
  obtain ⟨found, -⟩ := registeredNode_eq_ok.mp known
  exact (sameStanding_withNode found (standing_acceptDeposits node _)).nodes other

theorem onlyNode_uploaded
    (accepted : (uploadDeposits address batch).outcome directory = (.ok count, after)) :
    OnlyNode address directory after := by
  obtain ⟨node, -, -, -, rfl⟩ := registered_of_uploadDeposits accepted
  exact onlyNode_withNode directory address _

/-- **A batch that comes again adds nothing.** -/
theorem uploadDeposits_again
    (accepted : (uploadDeposits address batch).outcome directory = (.ok count, after)) :
    (uploadDeposits address batch).outcome after = (.ok 0, after) := by
  obtain ⟨node, known, fine, -, rfl⟩ := registered_of_uploadDeposits accepted
  have held : ∀ entry ∈ Deposit.entries batch, entry.1 ∈
      ((node.acceptDeposits (Deposit.entries batch)).1.held entry.2.network).map
        Validator.pubkey := by
    intro entry member
    rw [Node.held_acceptDeposits, Validator.mem_map_pubkey_accepted]
    exact .inr (List.mem_map_of_mem (List.mem_filter.mpr ⟨member, by simp⟩))
  have still := Node.acceptDeposits_of_held held
  have known' := registeredNode_acceptDeposits known (Deposit.entries batch)
  rw [uploadDeposits_of_registered known' (by rwa [objection_withNode]), still, withNode_withNode]

/-- **A batch may come in two parts.** -/
theorem uploadDeposits_append {more : List Deposit}
    (accepted : (uploadDeposits address (batch ++ more)).outcome directory = (.ok count, after)) :
    ∃ first between second,
      (uploadDeposits address batch).outcome directory = (.ok first, between) ∧
      (uploadDeposits address more).outcome between = (.ok second, after) ∧
      count = first + second := by
  obtain ⟨node, known, fine, rfl, rfl⟩ := registered_of_uploadDeposits accepted
  rw [List.forall_mem_append] at fine
  rw [Deposit.entries, List.filterMap_append, ← Deposit.entries, ← Deposit.entries,
    Node.acceptDeposits_append]
  have known' := registeredNode_acceptDeposits known (Deposit.entries batch)
  refine ⟨_, _, _, uploadDeposits_of_registered known fine.1, ?_, rfl⟩
  rw [uploadDeposits_of_registered known' (by rw [objection_withNode]; exact fine.2),
    withNode_withNode]

end Accepted

/-- **An upload of deposits is an ordered insert-or-ignore.** A batch is accepted if it comes from a
registered node and every record has a key of 48 bytes and names a vault that exists on its network.
Any other batch changes nothing, and is refused for the node if that is not registered, or else for
the first record to which there is an objection. An accepted batch puts, on every network, the
validators of its records for that network behind those that the node holds, in their order, those
with new keys only and each key once; it is answered with their number, and nothing else changes.
When it comes again, it adds nothing and changes nothing. A batch that is accepted as a whole may
come in two parts, which add as many validators and leave the same directory. -/
theorem uploadDeposits_exact (directory : Directory) (address : Address) (batch : List Deposit) :
    ((∃ count after, (uploadDeposits address batch).outcome directory = (.ok count, after)) ↔
      directory.isRegistered address = true ∧ ∀ deposit ∈ batch, deposit.pubkey.length = 48 ∧
        ∃ vault, directory.vault? deposit.withdrawalAddress deposit.network = some vault) ∧
    (∀ refusal after,
      (uploadDeposits address batch).outcome directory = (.error refusal, after) →
        after = directory ∧
          if directory.isRegistered address then
            batch.findSome? directory.objection = some refusal
          else refusal = .unknownNode address) ∧
    (∀ count after, (uploadDeposits address batch).outcome directory = (.ok count, after) →
      (∀ network, after.validatorsAt address network = directory.validatorsAt address network ++
        Validator.fresh (directory.validatorsAt address network)
          (Validator.handedIn network batch)) ∧
      (count = ∑ network ∈ (batch.map Deposit.network).toFinset,
        (Validator.fresh (directory.validatorsAt address network)
          (Validator.handedIn network batch)).length) ∧
      after.standing? address = directory.standing? address ∧
      OnlyNode address directory after ∧
      (uploadDeposits address batch).outcome after = (.ok 0, after)) ∧
    ∀ more count after,
      (uploadDeposits address (batch ++ more)).outcome directory = (.ok count, after) →
        ∃ first between second,
          (uploadDeposits address batch).outcome directory = (.ok first, between) ∧
          (uploadDeposits address more).outcome between = (.ok second, after) ∧
          count = first + second := by
  refine ⟨?_, fun refusal after refused => uploadDeposits_eq_error.mp refused,
    fun count after accepted => ⟨validatorsAt_uploaded accepted, count_uploaded accepted,
      standing?_uploaded accepted address, onlyNode_uploaded accepted,
      uploadDeposits_again accepted⟩,
    fun more count after accepted => uploadDeposits_append accepted⟩
  constructor
  · rintro ⟨count, after, accepted⟩
    obtain ⟨node, known, fine, -, -⟩ := registered_of_uploadDeposits accepted
    exact ⟨isRegistered_iff.mpr ⟨node, known⟩,
      fun deposit member => objection_eq_none.mp (fine deposit member)⟩
  · rintro ⟨registered, fine⟩
    obtain ⟨node, known⟩ := isRegistered_iff.mp registered
    exact ⟨_, _, uploadDeposits_of_registered known
      fun deposit member => objection_eq_none.mpr (fine deposit member)⟩

/-- One node, which holds one validator, and a vault that is on two networks. -/
def oneHeld : Directory :=
  built (opening "a" [repeated 1] "n" [repeated 9] ++
    [.change (.addVault (repeated 9) "m"),
      .change (.uploadDeposits (repeated 1) [plainDeposit 3 (repeated 9) "n"])])

/-- Records for the key that is held, for another key twice, and for the held key elsewhere. -/
def repeatedKeys : List Deposit :=
  [plainDeposit 3 (repeated 9) "n", plainDeposit 4 (repeated 9) "n",
    { plainDeposit 4 (repeated 9) "n" with amount := 1 }, plainDeposit 3 (repeated 9) "m"]

/-- Records for a vault that does not exist, and without a key. -/
def faultyTwice : List Deposit :=
  [plainDeposit 5 (repeated 8) "n", { plainDeposit 5 (repeated 9) "n" with pubkey := [] }]

set_option maxRecDepth 2000 in
/-- Two of the four records are new. A batch with two faults is refused for the one in front. -/
theorem uploadDeposits_exact_repeatedKeys :
    oneHeld.isRegistered (repeated 1) = true ∧
    (∃ after, (uploadDeposits (repeated 1) repeatedKeys).outcome oneHeld = (.ok 2, after) ∧
      after.validatorsAt (repeated 1) "n" =
        [.ofDeposit (repeated 3) (plainDeposit 3 (repeated 9) "n"),
          .ofDeposit (repeated 4) (plainDeposit 4 (repeated 9) "n")] ∧
      (uploadDeposits (repeated 1) repeatedKeys).outcome after = (.ok 0, after)) ∧
    (uploadDeposits (repeated 1) faultyTwice).outcome oneHeld =
      (.error (.unknownVault (repeated 8) "n"), oneHeld) := by
  have registered : oneHeld.isRegistered (repeated 1) = true := by decide
  refine ⟨registered, ?_, ?_⟩
  · obtain ⟨accepted, -, effect, -⟩ := uploadDeposits_exact oneHeld (repeated 1) repeatedKeys
    have fine : ∀ deposit ∈ repeatedKeys, deposit.pubkey.length = 48 ∧
        (oneHeld.vault? deposit.withdrawalAddress deposit.network).isSome := by decide
    obtain ⟨count, after, given⟩ := accepted.mpr ⟨registered, fun deposit member =>
      (fine deposit member).imp_right Option.isSome_iff_exists.mp⟩
    obtain ⟨lists, counted, -, -, again⟩ := effect count after given
    obtain rfl : count = 2 := counted.trans (by decide)
    exact ⟨after, given, (lists "n").trans (by decide), again⟩
  · obtain ⟨accepted, refused, -⟩ := uploadDeposits_exact oneHeld (repeated 1) faultyTwice
    rcases given : (uploadDeposits (repeated 1) faultyTwice).outcome oneHeld with ⟨result, after⟩
    cases result with
    | ok count =>
      have keys := (accepted.mp ⟨count, after, given⟩).2
      exact absurd (fun deposit member => (keys deposit member).1) (by decide)
    | error refusal =>
      obtain ⟨rfl, first⟩ := refused refusal after given
      rw [if_pos registered] at first
      have vault : faultyTwice.findSome? oneHeld.objection =
          some (.unknownVault (repeated 8) "n") := by decide
      rw [Option.some.inj (first.symm.trans vault)]

end Directory

end StakingDirectory
