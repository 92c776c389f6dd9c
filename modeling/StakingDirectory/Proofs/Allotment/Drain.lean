/-
**Cycles in a row hand out everything that waits, each key once.**

* `cycles` is the directory after some cycles of one vault with nothing in between, and `roundSet`
  the set that each of them publishes;
* `Cycling` is what every cycle keeps: the directory is in good order, its users are the same, and
  the vault exists;
* `length_waiting_cycles`: the queue of every user gets shorter by the limit in each round;
* `cycles_drain`: hence all queues are empty once there were rounds enough for the longest one, and
  every key that waited is in exactly one of the sets.
-/

import StakingDirectory.Proofs.Allotment.Cycle

namespace StakingDirectory.Directory

/-! ### Rounds -/

/-- The directory after some cycles of one vault. -/
def cycles (directory : Directory) (address : Address) (network : String) (limit : Nat) :
    Nat → Directory
  | 0 => directory
  | round + 1 => (directory.cycles address network limit round).cycled address network limit

/-- The set that a round publishes: the latest set of the vault after it. -/
def roundSet (directory : Directory) (address : Address) (network : String) (limit round : Nat) :
    List Deposit :=
  (directory.cycles address network limit (round + 1)).latestSet address network

/-- What stays the same while a vault is cycled. -/
structure Cycling (start now : Directory) (address : Address) (network : String) : Prop where
  sound : Sound now
  users : now.users = start.users
  exists_vault : ∃ vault, now.vault? address network = some vault
  /-- Validators of other networks are not touched. -/
  elsewhere : ∀ node place, place ≠ network →
    now.validatorsAt node place = start.validatorsAt node place

theorem Cycling.cycled {start now : Directory} {address : Address} {network : String}
    (cycling : Cycling start now address network) (limit : Nat) :
    Cycling start (now.cycled address network limit) address network := by
  obtain ⟨vault, found⟩ := cycling.exists_vault
  have genuine := cycling.sound.genuine
  refine ⟨sound_cycled cycling.sound address network limit,
    (users_cycled genuine found limit).trans cycling.users,
    ⟨_, vault?_cycled genuine found limit⟩, fun node place other => ?_⟩
  rw [validatorsAt_cycled genuine found, if_neg fun both => other both.2.symm]
  exact cycling.elsewhere node place other

section Rounds

variable {start : Directory} {address : Address} {network : String} {vault : Vault}

theorem cycling_cycles (sound : Sound start) (found : start.vault? address network = some vault)
    (limit round : Nat) :
    Cycling start (start.cycles address network limit round) address network := by
  induction round with
  | zero => exact ⟨sound, rfl, ⟨vault, found⟩, fun _ _ _ => rfl⟩
  | succ round ih => exact ih.cycled limit

variable (sound : Sound start) (found : start.vault? address network = some vault) {limit : Nat}

include sound found

theorem roundSet_eq (round : Nat) :
    start.roundSet address network limit round =
      (start.cycles address network limit round).chooseSet network limit := by
  have cycling := cycling_cycles sound found limit round
  obtain ⟨now, there⟩ := cycling.exists_vault
  rw [roundSet, cycles, latestSet_cycled cycling.sound.genuine there]

theorem mem_chosenKeys_cycles {round : Nat} {pubkey : Pubkey} :
    pubkey ∈ (start.cycles address network limit round).chosenKeys network limit ↔
      ∃ deposit ∈ start.roundSet address network limit round,
        deposit.validatorKey = .ok pubkey := by
  rw [mem_chosenKeys (cycling_cycles sound found limit round).sound.genuine,
    roundSet_eq sound found]

/-- **In each round the queue of a user gets shorter by the limit.** -/
theorem length_waiting_cycles {user : User} (member : user ∈ start.users) (round : Nat) :
    ((start.cycles address network limit round).waiting network user.registered).length ≤
      (start.waiting network user.registered).length - round * limit := by
  induction round with
  | zero => simp [cycles]
  | succ round ih =>
    have cycling := cycling_cycles sound found limit round
    obtain ⟨now, there⟩ := cycling.exists_vault
    have shorter := length_waiting_cycled cycling.sound.genuine there limit
      (cycling.users.symm ▸ member)
    calc ((start.cycles address network limit (round + 1)).waiting network user.registered).length
        ≤ ((start.cycles address network limit round).waiting network
            user.registered).length - limit := shorter
      _ ≤ (start.waiting network user.registered).length - round * limit - limit :=
          Nat.sub_le_sub_right ih limit
      _ = (start.waiting network user.registered).length - (round + 1) * limit := by
          rw [Nat.sub_sub, Nat.succ_mul]

theorem pending_succ {round : Nat} {pubkey : Pubkey} :
    (start.cycles address network limit (round + 1)).Pending network pubkey ↔
      (start.cycles address network limit round).Pending network pubkey ∧
        pubkey ∉ (start.cycles address network limit round).chosenKeys network limit := by
  have cycling := cycling_cycles sound found limit round
  obtain ⟨now, there⟩ := cycling.exists_vault
  exact pending_cycled cycling.sound.genuine there

/-- A key that waits in a later round waits in an earlier one. -/
theorem pending_of_le {first last : Nat} (order : first ≤ last) {pubkey : Pubkey}
    (pending : (start.cycles address network limit last).Pending network pubkey) :
    (start.cycles address network limit first).Pending network pubkey := by
  induction order with
  | refl => exact pending
  | step _ ih => exact ih ((pending_succ sound found).mp pending).1

/-- **A key is chosen in one round at most.** -/
theorem chosen_once {first second : Nat} {pubkey : Pubkey}
    (earlier : pubkey ∈ (start.cycles address network limit first).chosenKeys network limit)
    (later : pubkey ∈ (start.cycles address network limit second).chosenKeys network limit) :
    first = second := by
  -- After the round that chooses a key the key waits no more, and so is not chosen again.
  have never : ∀ {one other}, one < other →
      pubkey ∈ (start.cycles address network limit one).chosenKeys network limit →
      pubkey ∉ (start.cycles address network limit other).chosenKeys network limit := by
    intro one other before chosen again
    have pending := pending_of_le sound found (Nat.succ_le_of_lt before) (pending_of_chosen again)
    exact ((pending_succ sound found).mp pending).2 chosen
  rcases Nat.lt_trichotomy first second with before | same | after
  · exact absurd later (never before earlier)
  · exact same
  · exact absurd earlier (never after later)

/-- **A key that waits at first and not at last is chosen in between.** -/
theorem exists_chosen {pubkey : Pubkey} (pending : start.Pending network pubkey) (last : Nat)
    (gone : ¬ (start.cycles address network limit last).Pending network pubkey) :
    ∃ round < last,
      pubkey ∈ (start.cycles address network limit round).chosenKeys network limit := by
  induction last with
  | zero => exact absurd pending gone
  | succ last ih =>
    by_cases before : (start.cycles address network limit last).Pending network pubkey
    · rw [pending_succ sound found, not_and_not_right] at gone
      exact ⟨last, Nat.lt_succ_self last, gone before⟩
    · obtain ⟨round, inside, chosen⟩ := ih before
      exact ⟨round, Nat.lt_succ_of_lt inside, chosen⟩

/-- **With rounds enough for every user nothing is left.** -/
theorem waiting_cycles_eq_nil {round : Nat}
    (enough : ∀ user ∈ start.users,
      (start.waiting network user.registered).length ≤ round * limit)
    {user : User} (member : user ∈ start.users) :
    (start.cycles address network limit round).waiting network user.registered = [] := by
  have shorter : _ ≤ _ - round * limit := length_waiting_cycles sound found member round
  rw [Nat.sub_eq_zero_of_le (enough user member)] at shorter
  exact List.eq_nil_of_length_eq_zero (Nat.le_zero.mp shorter)

/-- A round takes at most the limit of each user, from what the nodes of the user hold. -/
theorem exists_shares (round : Nat) :
    ∃ shares : List (List Deposit),
      start.roundSet address network limit round = shares.flatten ∧
      List.Forall₂
        (fun user share => share.length ≤ limit ∧ ∀ deposit ∈ share, ∃ node ∈ user.registered,
          ∃ validator ∈ (start.cycles address network limit round).validatorsAt node network,
            validator.used = false ∧ validator.deposit = deposit)
        start.users shares := by
  have cycling := cycling_cycles sound found limit round
  have same : start.roundSet address network limit round = _ := roundSet_eq sound found round
  generalize start.cycles address network limit round = now at cycling same ⊢
  refine ⟨now.users.map fun user =>
    ((now.waiting network user.registered).take limit).map fun entry => entry.2.deposit, ?_, ?_⟩
  · rw [same, chooseSet_eq, chosen, List.map_flatMap]
    rfl
  · rw [← cycling.users, List.forall₂_map_right_iff, List.forall₂_same]
    intro user _
    refine ⟨by rw [List.length_map]; exact List.length_take_le limit _, fun deposit member => ?_⟩
    obtain ⟨entry, inside, rfl⟩ := List.mem_map.mp member
    obtain ⟨listed, held, unused⟩ := mem_waiting.mp (List.mem_of_mem_take inside)
    exact ⟨entry.1, listed, entry.2, held, unused, rfl⟩

/-- **No two rounds publish records with one key.** -/
theorem pubkey_ne_of_rounds {first second : Nat} (different : first ≠ second)
    {deposit other : Deposit} (member : deposit ∈ start.roundSet address network limit first)
    (member' : other ∈ start.roundSet address network limit second) :
    deposit.pubkey ≠ other.pubkey := by
  intro same
  have genuine := (cycling_cycles sound found limit first).sound.genuine
  rw [roundSet_eq sound found] at member
  obtain ⟨pubkey, chosen, key⟩ := exists_chosenKey genuine member
  have key' : other.validatorKey = .ok pubkey := by
    rw [Deposit.validatorKey, ← same]
    exact key
  exact different (chosen_once sound found chosen
    ((mem_chosenKeys_cycles sound found).mpr ⟨_, member', key'⟩))

/-- **Once all queues are empty nothing can be chosen.** -/
theorem chooseSet_cycles_eq_nil {round : Nat}
    (enough : ∀ user ∈ start.users,
      (start.waiting network user.registered).length ≤ round * limit) (other : Nat) :
    (start.cycles address network limit round).chooseSet network other = [] := by
  rw [chooseSet_eq, chosen, (cycling_cycles sound found limit round).users]
  refine List.map_eq_nil_iff.mpr (List.flatMap_eq_nil_iff.mpr fun user member => ?_)
  rw [waiting_cycles_eq_nil sound found enough member, List.take_nil]

/-- **Every key that waits is published in exactly one round.** -/
theorem existsUnique_round {rounds : Nat}
    (enough : ∀ user ∈ start.users,
      (start.waiting network user.registered).length ≤ rounds * limit) {pubkey : Pubkey}
    (pending : start.Pending network pubkey) :
    ∃! round, round < rounds ∧
      ∃ deposit ∈ start.roundSet address network limit round,
        deposit.validatorKey = .ok pubkey := by
  have cycling := cycling_cycles sound found limit rounds
  have gone : ¬ (start.cycles address network limit rounds).Pending network pubkey := by
    rintro ⟨entry, inside, -⟩
    obtain ⟨listed, waits⟩ := mem_waiting.mp inside
    obtain ⟨user, member, mine⟩ := List.mem_flatMap.mp listed
    rw [cycling.users] at member
    have left := mem_waiting.mpr ⟨mine, waits⟩
    rw [waiting_cycles_eq_nil sound found enough member] at left
    cases left
  obtain ⟨round, inside, chosen⟩ := exists_chosen sound found pending rounds gone
  refine ⟨round, ⟨inside, (mem_chosenKeys_cycles sound found).mp chosen⟩, ?_⟩
  rintro other ⟨-, published⟩
  exact chosen_once sound found ((mem_chosenKeys_cycles sound found).mpr published) chosen

end Rounds

/-! ### Draining -/

/-- **Cycles in a row drain a network, and hand out every key once.** Let a vault that exists be
cycled again and again with nothing in between and a limit that is not zero. Every cycle succeeds; no
key is in two of the sets, and no set has more records of a user than the limit; once there were as
many rounds as the longest queue of a user needs, nothing can be chosen any more, and every key of a
validator that was not used at first is in exactly one of the sets. Validators of other networks stay
as they are. -/
theorem cycles_drain (actions : List Action) (address : Address) (network : String) (limit : Nat)
    (vault : Vault) (found : (built actions).vault? address network = some vault)
    (positive : 1 ≤ limit) :
    (∀ round, ∃ index, ((cycleSet address network limit).outcome
      ((built actions).cycles address network limit round)).1 = .ok index) ∧
    (∀ first second, first ≠ second →
      ∀ deposit ∈ (built actions).roundSet address network limit first,
      ∀ other ∈ (built actions).roundSet address network limit second,
        deposit.pubkey ≠ other.pubkey) ∧
    (∀ round, ∃ shares : List (List Deposit),
      (built actions).roundSet address network limit round = shares.flatten ∧
      List.Forall₂
        (fun user share => share.length ≤ limit ∧ ∀ deposit ∈ share, ∃ node ∈ user.registered,
          ∃ validator ∈
            ((built actions).cycles address network limit round).validatorsAt node network,
            validator.used = false ∧ validator.deposit = deposit)
        (built actions).users shares) ∧
    (∀ rounds,
      (∀ user ∈ (built actions).users,
        (((built actions).waiting network user.registered).length + limit - 1) / limit ≤ rounds) →
      (∀ other, ((built actions).cycles address network limit rounds).chooseSet network other =
        []) ∧
      ∀ node, ∀ validator ∈ (built actions).validatorsAt node network, validator.used = false →
        ∃! round, round < rounds ∧
          ∃ deposit ∈ (built actions).roundSet address network limit round,
            deposit.validatorKey = .ok validator.pubkey) ∧
    ∀ round node place, place ≠ network →
      ((built actions).cycles address network limit round).validatorsAt node place =
        (built actions).validatorsAt node place := by
  have sound := sound_built actions
  generalize built actions = start at found sound ⊢
  have cycling := cycling_cycles sound found limit
  refine ⟨fun round => ?_, fun first second different deposit member other member' =>
    pubkey_ne_of_rounds sound found different member member', exists_shares sound found,
    fun rounds enough => ?_, fun round => (cycling round).elsewhere⟩
  · obtain ⟨now, there⟩ := (cycling round).exists_vault
    rw [outcome_cycleSet_of_vault (cycling round).sound.genuine there]
    exact ⟨_, rfl⟩
  · have room : ∀ user ∈ start.users,
        (start.waiting network user.registered).length ≤ rounds * limit := by
      intro user member
      have within := (Nat.div_le_iff_le_mul_add_pred positive).mp (enough user member)
      rw [Nat.mul_comm limit] at within
      omega
    refine ⟨chooseSet_cycles_eq_nil sound found room, fun node validator held unused => ?_⟩
    have registered := sound.owned.mem_registeredAddresses.mpr
      (sound.placed (List.ne_nil_of_mem held))
    exact existsUnique_round sound found room
      ⟨(node, validator), mem_waiting.mpr ⟨registered, held, unused⟩, rfl⟩

/-- Two nodes of one user, which hold one key both and another one each. -/
def sharedQueue : List Action :=
  opening "a" [repeated 1, repeated 2] "n" [repeated 9] ++
    [.change (.uploadDeposits (repeated 1)
        [plainDeposit 3 (repeated 9) "n", plainDeposit 4 (repeated 9) "n"]),
      .change (.uploadDeposits (repeated 2)
        [plainDeposit 4 (repeated 9) "n", plainDeposit 5 (repeated 9) "n"])]

/-- Four rounds of one record each are enough for the four validators, and the key that two nodes
hold is published once. -/
theorem cycles_drain_sharedQueue :
    (built sharedQueue).vault? (repeated 9) "n" =
      some { address := repeated 9, network := "n" } ∧
    (1 ≤ 1) ∧
    (∀ other, ((built sharedQueue).cycles (repeated 9) "n" 1 4).chooseSet "n" other = []) ∧
    ∃! round, round < 4 ∧
      ∃ deposit ∈ (built sharedQueue).roundSet (repeated 9) "n" 1 round,
        deposit.validatorKey = .ok (repeated 4) := by
  have found : (built sharedQueue).vault? (repeated 9) "n" =
      some { address := repeated 9, network := "n" } := by decide
  have drained := (cycles_drain sharedQueue (repeated 9) "n" 1 _ found (by decide)).2.2.2.1 4
    (by decide)
  refine ⟨found, by decide, drained.1, ?_⟩
  exact drained.2 (repeated 1) (.ofDeposit (repeated 4) (plainDeposit 4 (repeated 9) "n"))
    (by decide) rfl

end StakingDirectory.Directory
