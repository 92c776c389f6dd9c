/-
**Which deposits are chosen.**

* `waiting` lists the validators of some nodes that are not used yet, with the addresses of the
  nodes, in the order of the nodes and then of the lists;
* `chosen` takes the first of these for each user, up to the limit;
* `chooseSet_eq`: a chosen set consists of the deposits of these validators.
-/

import Mathlib.Data.Prod.Basic
import StakingDirectory.Proofs.Directory.Growth

namespace StakingDirectory.Directory

/-! ### What waits to be chosen -/

/-- The validators of some nodes that are not used yet, each with the address of its node. -/
def waiting (directory : Directory) (network : String) (addresses : List Address) :
    List (Address × Validator) :=
  addresses.flatMap fun address =>
    ((directory.validatorsAt address network).filter fun validator => !validator.used).map
      (Prod.mk address)

/-- The validators whose deposits are chosen, at most `limit` of each user. -/
def chosen (directory : Directory) (network : String) (limit : Nat) :
    List (Address × Validator) :=
  directory.users.flatMap fun user => (directory.waiting network user.registered).take limit

variable {directory : Directory} {network : String}

theorem mem_waiting {addresses : List Address} {entry : Address × Validator} :
    entry ∈ directory.waiting network addresses ↔ entry.1 ∈ addresses ∧
      entry.2 ∈ directory.validatorsAt entry.1 network ∧ entry.2.used = false := by
  obtain ⟨address, validator⟩ := entry
  simp only [waiting, List.mem_flatMap, List.mem_map, List.mem_filter, Prod.mk.injEq,
    Bool.not_eq_true']
  constructor
  · rintro ⟨other, listed, same, held, rfl, rfl⟩
    exact ⟨listed, held⟩
  · rintro ⟨listed, held⟩
    exact ⟨address, listed, validator, held, rfl, rfl⟩

theorem mem_chosen {limit : Nat} {entry : Address × Validator}
    (member : entry ∈ directory.chosen network limit) :
    entry.1 ∈ directory.registeredAddresses ∧
      entry.2 ∈ directory.validatorsAt entry.1 network ∧ entry.2.used = false := by
  obtain ⟨user, known, inside⟩ := List.mem_flatMap.mp member
  obtain ⟨listed, held⟩ := mem_waiting.mp (List.mem_of_mem_take inside)
  exact ⟨List.mem_flatMap.mpr ⟨user, known, listed⟩, held⟩

/-- What is chosen waited, and comes in the same order. -/
theorem chosen_sublist (directory : Directory) (network : String) (limit : Nat) :
    (directory.chosen network limit).Sublist
      (directory.waiting network directory.registeredAddresses) := by
  have queues : directory.waiting network directory.registeredAddresses =
      directory.users.flatMap fun user => directory.waiting network user.registered :=
    List.flatMap_assoc
  rw [queues]
  exact List.Sublist.flatMap_right directory.users fun user _ => List.take_sublist limit _

/-- **No validator of a node waits twice.** -/
theorem nodup_waiting (sound : Sound directory) {addresses : List Address}
    (once : addresses.Nodup) :
    ((directory.waiting network addresses).map fun entry => (entry.1, entry.2.pubkey)).Nodup := by
  rw [waiting, List.map_flatMap, List.nodup_flatMap]
  constructor
  · intro address _
    have keys : (((directory.validatorsAt address network).filter fun validator =>
        !validator.used).map Validator.pubkey).Nodup :=
      (sound.distinct address network).sublist (List.filter_sublist.map Validator.pubkey)
    have paired := keys.map (Prod.mk_right_injective address)
    rw [List.map_map] at paired ⊢
    exact paired
  · refine once.imp fun {first second} different => ?_
    intro pair inside inside'
    simp only [List.map_map, List.mem_map, Function.comp_apply] at inside inside'
    obtain ⟨_, -, rfl⟩ := inside
    obtain ⟨_, -, same⟩ := inside'
    exact different (congrArg Prod.fst same).symm

theorem nodup_chosen (sound : Sound directory) (network : String) (limit : Nat) :
    ((directory.chosen network limit).map fun entry => (entry.1, entry.2.pubkey)).Nodup :=
  (nodup_waiting sound sound.owned.nodup_registeredAddresses).sublist
    ((chosen_sublist directory network limit).map _)

/-! ### Choosing is taking from the front -/

/-- What is left of the limit is taken from the front of what is not used. -/
theorem chooseFromNode_eq {limit taken : Nat} (room : taken < limit)
    (validators : List Validator) :
    chooseFromNode limit taken validators =
      let free := (validators.filter fun validator => !validator.used).take (limit - taken)
      (free.map Validator.deposit, taken + free.length) := by
  induction validators generalizing taken with
  | nil => simp [chooseFromNode]
  | cons validator rest ih =>
    unfold chooseFromNode
    cases used : validator.used with
    | true =>
      rw [if_pos rfl, List.filter_cons_of_neg (by simp [used]), ih room]
    | false =>
      rw [if_neg Bool.false_ne_true, List.filter_cons_of_pos (by simp [used])]
      by_cases last : limit ≤ taken + 1
      · have one : limit - taken = 1 := by omega
        rw [if_pos last, one]
        rfl
      · have more : limit - taken = (limit - (taken + 1)) + 1 := by omega
        rw [if_neg last, ih (by omega), more, List.take_succ_cons]
        simp only [List.map_cons, List.length_cons, Prod.mk.injEq, true_and]
        omega

theorem chooseFromNodes_eq {limit taken : Nat} (room : taken < limit) (addresses : List Address) :
    directory.chooseFromNodes network limit taken addresses =
      ((directory.waiting network addresses).take (limit - taken)).map fun entry =>
        entry.2.deposit := by
  induction addresses generalizing taken with
  | nil => simp [chooseFromNodes, waiting]
  | cons address rest ih =>
    have split : directory.waiting network (address :: rest) =
        ((directory.validatorsAt address network).filter fun validator => !validator.used).map
          (Prod.mk address) ++ directory.waiting network rest := rfl
    have held : directory.validatorsAt address network =
        ((directory.node? address).bind fun node => node.validators[network]?).getD [] := by
      unfold validatorsAt Node.held
      cases directory.node? address <;> rfl
    unfold chooseFromNodes
    cases found : (directory.node? address).bind fun node => node.validators[network]? with
    | none =>
      rw [found] at held
      rw [split, held]
      exact ih room
    | some validators =>
      rw [found, Option.getD_some] at held
      simp only [split, held, chooseFromNode_eq room]
      generalize (validators.filter fun validator => !validator.used) = free
      have deposits : ∀ count, ((free.map (Prod.mk address)).take count).map
          (fun entry => entry.2.deposit) = (free.take count).map Validator.deposit := by
        intro count
        rw [← List.map_take, List.map_map]
        rfl
      rw [List.take_append, List.map_append, deposits, List.length_map]
      by_cases full : limit ≤ taken + (free.take (limit - taken)).length
      · have nothing : limit - taken - free.length = 0 := by
          rw [List.length_take] at full
          omega
        rw [if_pos full, nothing, List.take_zero, List.map_nil, List.append_nil]
      · have all : (free.take (limit - taken)).length = free.length := by
          rw [List.length_take] at full ⊢
          omega
        rw [if_neg full, ih (by omega), all, Nat.sub_add_eq]

/-- **A chosen set consists of the first deposits that wait, user by user.** -/
theorem chooseSet_eq (directory : Directory) (network : String) (limit : Nat) :
    directory.chooseSet network limit =
      (directory.chosen network limit).map fun entry => entry.2.deposit := by
  unfold chooseSet chosen
  by_cases none : limit = 0
  · subst none
    simp
  · rw [if_neg none, List.map_flatMap]
    refine List.flatMap_congr fun user _ => ?_
    exact chooseFromNodes_eq (Nat.pos_of_ne_zero none) user.registered

/-- The records of a chosen set have the keys of the validators that they are chosen for. -/
theorem requireKeys_chooseSet (genuine : Genuine directory) (limit : Nat) :
    requireKeys (directory.chooseSet network limit) =
      .ok ((directory.chosen network limit).map fun entry => entry.2.pubkey) := by
  rw [requireKeys_eq_ok, chooseSet_eq, List.forall₂_map_left_iff, List.forall₂_map_right_iff,
    List.forall₂_same]
  intro entry member
  exact genuine.validatorsAt (mem_chosen member).2.1

end StakingDirectory.Directory
