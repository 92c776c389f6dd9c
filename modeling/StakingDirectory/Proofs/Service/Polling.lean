/-
**What a poll of a vault shows.**

* `issues` lists what a run publishes for one vault: the number that each call was answered with, and
  the set;
* `shows_after`: a forward command that publishes nothing for a vault leaves its version and its set
  alone, and one that does moves both together;
* `follows_played`: hence, as long as no version is brought back, a vault shows how many sets were
  published for it and the last one of them, and the numbers run from one;
* `publishedSet_unique`: two polls of a run that show one version show one set, since what was
  published until the one is a first part of what was published until the other;
* `publishedSet_played` collects what a poll says about a run.
-/

import StakingDirectory.Proofs.Service.Growth

namespace StakingDirectory

/-! ### What is published for a vault -/

namespace Directory

variable {address : Address} {network : String} {directory : Directory}

/-- The version and the set of a vault: zero and no record where there is none. -/
def shown (directory : Directory) (address : Address) (network : String) : UInt64 × List Deposit :=
  ((directory.vault? address network).map fun vault => (vault.latestIndex, vault.latestSet)).getD
    (0, [])

theorem shown_of_vault {vault : Vault} (found : directory.vault? address network = some vault) :
    directory.shown address network = (vault.latestIndex, vault.latestSet) := by
  rw [shown, found]
  rfl

theorem shown_congr {after : Directory} (same : after.vaults = directory.vaults) :
    after.shown address network = directory.shown address network := by
  rw [shown, shown, vault?_congr same]

/-- What a change publishes for a vault, unless it is refused: its number and the set, which is the
one handed in or the one that is chosen. -/
def issue? (address : Address) (network : String) (directory : Directory) (change : Change) :
    Option (UInt64 × List Deposit) :=
  match change, (change.operation.outcome directory).1 with
  | .publishSet vault place batch, .ok (.published number) =>
    if vault = address ∧ place = network then some (number, batch) else none
  | .cycleSet vault place limit, .ok (.published number) =>
    if vault = address ∧ place = network then some (number, directory.chooseSet place limit)
    else none
  | _, _ => none

/-- What is published for a vault is shown from then on, under the next version; where nothing is,
what is shown stays. -/
inductive Shows (address : Address) (network : String) (before after : Directory) :
    Option (UInt64 × List Deposit) → Prop
  | kept (same : after.shown address network = before.shown address network) :
      Shows address network before after none
  | issued (vault : Vault) (issue : UInt64 × List Deposit)
      (found : before.vault? address network = some vault)
      (number : issue.1 = vault.latestIndex + 1)
      (shows : after.shown address network = issue) :
      Shows address network before after (some issue)

end Directory

namespace Service

open Operation Directory

variable {mint : Mint} {service : Service} {address : Address} {network : String}
  {directory : Directory} {change : Change}

theorem shows_elsewhere (elsewhere : vaultOfSet? change ≠ some (address, network))
    (directory : Directory) :
    Shows address network directory (change.operation.outcome directory).2
      (issue? address network directory change) := by
  have nothing : issue? address network directory change = none := by
    unfold issue?
    split
    · exact if_neg fun here => elsewhere (congrArg some (Prod.ext here.1 here.2))
    · exact if_neg fun here => elsewhere (congrArg some (Prod.ext here.1 here.2))
    · rfl
  rw [nothing]
  refine .kept ?_
  have happened := vault?_change elsewhere directory
  unfold shown
  generalize directory.vault? address network = before at happened ⊢
  generalize (change.operation.outcome directory).2.vault? address network = after at happened ⊢
  cases happened <;> rfl

theorem issue?_publishSet (vault : Address) (place : String) (batch : List Deposit)
    (directory : Directory) :
    issue? address network directory (.publishSet vault place batch) =
      if vault = address ∧ place = network then
        ((publishSet vault place batch).outcome directory).1.toOption.map (·, batch)
      else none := by
  simp only [issue?, Change.operation, outcome_map]
  cases ((publishSet vault place batch).outcome directory).1 with
  | error refusal => exact (ite_self none).symm
  | ok number => rfl

theorem issue?_cycleSet (vault : Address) (place : String) (limit : Nat) (directory : Directory) :
    issue? address network directory (.cycleSet vault place limit) =
      if vault = address ∧ place = network then
        ((cycleSet vault place limit).outcome directory).1.toOption.map
          (·, directory.chooseSet place limit)
      else none := by
  simp only [issue?, Change.operation, outcome_map]
  cases ((cycleSet vault place limit).outcome directory).1 with
  | error refusal => exact (ite_self none).symm
  | ok number => rfl

/-- A set is shown if it passes its check and the vault comes to hold it. -/
theorem shows_settled {batch : List Deposit} (step : Vault × List Pubkey → Vault × Directory)
    (number : ∀ vault pubkeys, (step (vault, pubkeys)).1.latestIndex = vault.latestIndex)
    (stands : ∀ vault pubkeys, directory.vault? address network = some vault →
      (step (vault, pubkeys)).2.vault? address network =
        some ((step (vault, pubkeys)).1.withPublished batch)) :
    Shows address network directory
      (settled (directory.checkBatch address network batch)
        (fun checked => (((step checked).1.withPublished batch).latestIndex, (step checked).2))
        directory).2
      ((settled (directory.checkBatch address network batch)
        (fun checked => (((step checked).1.withPublished batch).latestIndex, (step checked).2))
        directory).1.toOption.map (·, batch)) := by
  cases passed : directory.checkBatch address network batch with
  | error refusal => exact .kept rfl
  | ok checked =>
    obtain ⟨vault, pubkeys⟩ := checked
    obtain ⟨found, -⟩ := checkBatch_eq_ok.mp passed
    exact .issued vault _ found (congrArg (· + 1) (number vault pubkeys))
      (shown_of_vault (stands vault pubkeys found))

/-- **What a change publishes for a vault is shown from then on**, and nothing else changes what is
shown. -/
theorem shows_change (change : Change) (directory : Directory) :
    Shows address network directory (change.operation.outcome directory).2
      (issue? address network directory change) := by
  by_cases aimed : vaultOfSet? change = some (address, network)
  · cases change with
    | publishSet other place batch =>
      cases aimed
      rw [issue?_publishSet, if_pos ⟨rfl, rfl⟩, Change.operation, outcome_map, outcome_publishSet]
      refine shows_settled (fun checked =>
        (checked.1, directory.withPublished address network batch checked.1 checked.2))
        (fun _ _ => rfl) fun vault pubkeys found => ?_
      exact (vault?_withPublished found batch vault pubkeys address network).trans
        (if_pos ⟨rfl, rfl⟩)
    | cycleSet other place limit =>
      cases aimed
      rw [issue?_cycleSet, if_pos ⟨rfl, rfl⟩, Change.operation, outcome_map, outcome_cycleSet]
      refine shows_settled (fun checked =>
        (checked.1.withUploaded checked.2, directory.withCycled address network
          (directory.chooseSet network limit) checked.1 checked.2))
        (fun _ _ => rfl) fun vault pubkeys found => ?_
      exact (vault?_withCycled found (directory.chooseSet network limit) vault pubkeys address
        network).trans (if_pos ⟨rfl, rfl⟩)
    | _ => cases aimed
  · exact shows_elsewhere aimed directory

/-! ### Runs -/

/-- What a command publishes for a vault, unless it is refused. -/
def Command.issue? (address : Address) (network : String) (directory : Directory) :
    Command → Option (UInt64 × List Deposit)
  | .change wanted => Directory.issue? address network directory wanted
  | _ => none

/-- What commands in turn publish for a vault: the numbers they are answered with, and the sets. -/
def issues (mint : Mint) (address : Address) (network : String) :
    Service → List Command → List (UInt64 × List Deposit)
  | _, [] => []
  | service, command :: rest =>
    (command.issue? address network service.directory).toList ++
      issues mint address network (service.after mint command) rest

/-- The set that was published last. -/
def lastSet (issued : List (UInt64 × List Deposit)) : List Deposit :=
  (issued.getLast?.map Prod.snd).getD []

/-- **A forward command shows what it publishes for a vault**, and keeps what is shown otherwise. -/
theorem shows_after (mint : Mint) (tidy : service.archive.Tidy none) {command : Command}
    (forward : command.Forward) :
    Shows address network service.directory (service.after mint command).directory
      (command.issue? address network service.directory) := by
  cases command with
  | change change =>
    rw [directory_change tidy]
    exact shows_change change service.directory
  | _ => exact .kept (shown_congr (vaults_after mint tidy forward fun _ => nofun))

theorem issues_append (mint : Mint) (address : Address) (network : String) (service : Service)
    (earlier later : List Command) :
    issues mint address network service (earlier ++ later) =
      issues mint address network service earlier ++
        issues mint address network (service.continued mint earlier) later := by
  induction earlier generalizing service with
  | nil => rfl
  | cons command rest ih =>
    rw [List.cons_append, issues, issues, ih, List.append_assoc]
    rfl

theorem issues_concat (mint : Mint) (address : Address) (network : String)
    (commands : List Command) (command : Command) :
    issues mint address network {} (commands ++ [command]) =
      issues mint address network {} commands ++
        (command.issue? address network (played mint commands).directory).toList := by
  rw [issues_append, issues, issues, List.append_nil]
  rfl

theorem lastSet_concat (issued : List (UInt64 × List Deposit)) (issue : UInt64 × List Deposit) :
    lastSet (issued ++ [issue]) = issue.2 := by
  rw [lastSet, List.getLast?_concat]
  rfl

/-- What a run published for a vault is what is shown of it, under numbers that run from one. -/
structure Follows (issued : List (UInt64 × List Deposit)) (address : Address) (network : String)
    (directory : Directory) : Prop where
  shown : directory.shown address network = (.ofNat issued.length, lastSet issued)
  numbers : ∀ (place : Nat) (issue : UInt64 × List Deposit), issued[place]? = some issue →
    issue.1 = .ofNat (place + 1)
  absent : directory.vault? address network = none → issued = []

/-- **A run shows of a vault what it published for it last**, under the number of sets. -/
theorem follows_played (mint : Mint) {commands : List Command}
    (forward : ∀ command ∈ commands, command.Forward) (address : Address) (network : String) :
    Follows (issues mint address network {} commands) address network
      (played mint commands).directory := by
  induction commands using List.reverseRec with
  | nil => exact ⟨rfl, fun _ _ there => (nomatch there), fun _ => rfl⟩
  | append_singleton commands command ih =>
    have follows := ih fun one member => forward one (List.mem_append_left _ member)
    have now : command.Forward := forward command (by simp)
    have tidy := tidy_played mint commands
    have shows : Shows address network _ _ _ := shows_after mint tidy now
    -- A vault that is there stays.
    have before : ((played mint commands).after mint command).directory.vault? address network =
        none → (played mint commands).directory.vault? address network = none := by
      intro gone
      cases found : (played mint commands).directory.vault? address network with
      | none => rfl
      | some vault =>
        obtain ⟨later, there, -⟩ := latestIndex_after mint tidy now found
        rw [gone] at there
        cases there
    rw [issues_concat, played_concat]
    generalize issues mint address network {} commands = issued at follows ⊢
    generalize command.issue? address network (played mint commands).directory = issue? at shows ⊢
    cases shows with
    | kept same =>
      rw [Option.toList_none, List.append_nil]
      exact ⟨same.trans follows.shown, follows.numbers, fun gone => follows.absent (before gone)⟩
    | issued vault issue found number shows =>
      have counted : issue.1 = .ofNat (issued.length + 1) := by
        have version : vault.latestIndex = .ofNat issued.length :=
          congrArg Prod.fst ((shown_of_vault found).symm.trans follows.shown)
        rw [number, version]
        exact (UInt64.ofNat_add _ 1).symm
      rw [Option.toList_some]
      refine ⟨?_, ?_, fun gone => ?_⟩
      · rw [shows, lastSet_concat, List.length_append, List.length_singleton, ← counted]
      · intro place other there
        rw [List.getElem?_append] at there
        split at there
        · exact follows.numbers place other there
        · rw [List.getElem?_singleton] at there
          split at there
          · cases there
            rw [counted]
            congr 2
            omega
          · cases there
      · rw [before gone] at found
        cases found

/-! ### Polls -/

theorem publishedSet_eq (service : Service) (address : Address) (network : String) :
    service.publishedSet address network =
      match service.directory.vault? address network with
      | some _ => .ok (service.directory.shown address network)
      | none => .error (.unknownVault address network) := by
  unfold publishedSet requireVault shown
  cases service.directory.vault? address network <;> rfl

theorem setVersion_eq (service : Service) (address : Address) (network : String) :
    service.setVersion address network =
      Prod.fst <$> service.publishedSet address network := by
  unfold publishedSet setVersion requireVault
  cases service.directory.vault? address network <;> rfl

theorem isSome_aimed {other : Address} {place : String} {issue : Option (UInt64 × List Deposit)}
    (aimed : vaultOfSet? change = some (other, place))
    (answered : issue.isSome = (change.operation.outcome directory).1.isOk) :
    (if other = address ∧ place = network then issue else none).isSome =
      publishes address network directory change := by
  rw [publishes, aimed]
  by_cases here : other = address ∧ place = network
  · rw [if_pos here, answered, here.1, here.2, decide_eq_true rfl, Bool.true_and]
  · rw [if_neg here, decide_eq_false (by simpa using here), Bool.false_and]
    rfl

/-- Exactly the changes that publish for a vault have something published for it. -/
theorem isSome_issue? (address : Address) (network : String) (directory : Directory)
    (change : Change) :
    (issue? address network directory change).isSome =
      publishes address network directory change := by
  cases change with
  | publishSet other place batch =>
    rw [issue?_publishSet]
    refine isSome_aimed rfl ?_
    rw [Change.operation, outcome_map, isOk_map, Option.isSome_map, isSome_toOption]
  | cycleSet other place limit =>
    rw [issue?_cycleSet]
    refine isSome_aimed rfl ?_
    rw [Change.operation, outcome_map, isOk_map, Option.isSome_map, isSome_toOption]
  | _ => rfl

theorem isSome_commandIssue? (address : Address) (network : String) (directory : Directory)
    (command : Command) :
    (command.issue? address network directory).isSome =
      command.publishesFor address network directory := by
  cases command with
  | change wanted => exact isSome_issue? address network directory wanted
  | _ => rfl

theorem length_issues (mint : Mint) (address : Address) (network : String) (service : Service)
    (commands : List Command) :
    (issues mint address network service commands).length =
      timesPublishedFor mint address network service commands := by
  induction commands generalizing service with
  | nil => rfl
  | cons command rest ih =>
    rw [issues, timesPublishedFor, List.length_append, ih, ← isSome_commandIssue?]
    cases command.issue? address network service.directory <;> rfl

theorem issues_prefix (mint : Mint) (address : Address) (network : String)
    {earlier commands : List Command} (first : earlier <+: commands) :
    issues mint address network {} earlier <+: issues mint address network {} commands := by
  obtain ⟨rest, rfl⟩ := first
  rw [issues_append]
  exact List.prefix_append _ _

/-- A poll that succeeds shows what is shown. -/
theorem shown_of_publishedSet {polled : UInt64 × List Deposit}
    (read : service.publishedSet address network = .ok polled) :
    service.directory.shown address network = polled := by
  rw [publishedSet_eq] at read
  cases found : service.directory.vault? address network with
  | none =>
    rw [found] at read
    cases read
  | some vault =>
    rw [found] at read
    exact Except.ok.inj read

/-- **Nothing but a publication for the vault itself changes what a poll of it shows.** -/
theorem publishedSet_after (mint : Mint) (tidy : service.archive.Tidy none) {command : Command}
    (forward : command.Forward) {vault : Vault}
    (found : service.directory.vault? address network = some vault)
    (silent : command.publishesFor address network service.directory = false) :
    (service.after mint command).publishedSet address network =
      service.publishedSet address network := by
  obtain ⟨later, there, -⟩ := latestIndex_after mint tidy forward found
  have shows : Shows address network _ _ _ := shows_after mint tidy forward
  rw [← isSome_commandIssue?, Option.isSome_eq_false_iff, Option.isNone_iff_eq_none] at silent
  rw [silent] at shows
  rw [publishedSet_eq, publishedSet_eq, found, there]
  cases shows with
  | kept same => exact congrArg _ same

/-- **Polls of one run with one version show one set.** -/
theorem publishedSet_unique {commands earlier later : List Command}
    (forward : ∀ command ∈ commands, command.Forward)
    (room : (issues mint address network {} commands).length < UInt64.size)
    (before : earlier <+: commands) (after : later <+: commands) {version : UInt64}
    {first second : List Deposit}
    (polled : (played mint earlier).publishedSet address network = .ok (version, first))
    (again : (played mint later).publishedSet address network = .ok (version, second)) :
    first = second := by
  have follows := follows_played mint (fun command member => forward command (before.mem member))
    address network
  have follows' := follows_played mint (fun command member => forward command (after.mem member))
    address network
  have part := issues_prefix mint address network before
  have part' := issues_prefix mint address network after
  obtain ⟨numbered, rfl⟩ := Prod.mk.inj (follows.shown.symm.trans (shown_of_publishedSet polled))
  obtain ⟨numbered', rfl⟩ := Prod.mk.inj (follows'.shown.symm.trans (shown_of_publishedSet again))
  have same : (issues mint address network {} earlier).length =
      (issues mint address network {} later).length := by
    have numbers := congrArg UInt64.toNat (numbered.trans numbered'.symm)
    rw [UInt64.toNat_ofNat', UInt64.toNat_ofNat'] at numbers
    have short := part.length_le
    have short' := part'.length_le
    unfold UInt64.size at room
    omega
  have one := (List.prefix_of_prefix_length_le part part' (Nat.le_of_eq same)).eq_of_length same
  rw [one]

/-- **A poll identifies the set that is published.** In a run of forward commands, let `issues` be
what it publishes for a vault: one set for each call of a publication or a cycle for exactly this
vault that succeeds. The vault is polled with the number of these sets and the last of them, and the
calls were answered with the numbers from one on. Every forward command that does not publish for the
vault leaves what is polled alone, and so do publications for all other vaults. Two polls in the run
that show one version show one set, as long as the versions have room in 64 bits. -/
theorem publishedSet_played (mint : Mint) (commands : List Command)
    (forward : ∀ command ∈ commands, command.Forward) (address : Address) (network : String) :
    (issues mint address network {} commands).length =
        timesPublishedFor mint address network {} commands ∧
    ((played mint commands).directory.vault? address network = none →
      issues mint address network {} commands = []) ∧
    (∀ (place : Nat) (issue : UInt64 × List Deposit),
      (issues mint address network {} commands)[place]? = some issue →
        issue.1 = .ofNat (place + 1)) ∧
    (∀ vault, (played mint commands).directory.vault? address network = some vault →
      (played mint commands).publishedSet address network =
          .ok (.ofNat (issues mint address network {} commands).length,
            lastSet (issues mint address network {} commands)) ∧
        (played mint commands).setVersion address network =
          .ok (.ofNat (issues mint address network {} commands).length) ∧
        (∀ change other, vaultOfSet? change = some other → other ≠ (address, network) →
          ((played mint commands).after mint (.change change)).publishedSet address network =
            (played mint commands).publishedSet address network) ∧
        ∀ command : Command, command.Forward →
          command.publishesFor address network (played mint commands).directory = false →
          ((played mint commands).after mint command).publishedSet address network =
            (played mint commands).publishedSet address network) ∧
    ((issues mint address network {} commands).length < UInt64.size →
      ∀ earlier later version first second, earlier <+: commands → later <+: commands →
        (played mint earlier).publishedSet address network = .ok (version, first) →
        (played mint later).publishedSet address network = .ok (version, second) →
        first = second) := by
  have follows := follows_played mint forward address network
  refine ⟨length_issues _ _ _ _ _, follows.absent, follows.numbers, fun vault found => ?_, ?_⟩
  · have tidy := tidy_played mint commands
    have polled : (played mint commands).publishedSet address network =
        .ok (.ofNat (issues mint address network {} commands).length,
          lastSet (issues mint address network {} commands)) := by
      rw [publishedSet_eq, found, follows.shown]
    refine ⟨polled, by rw [setVersion_eq, polled]; rfl, ?_, ?_⟩
    · intro change other aimed apart
      refine publishedSet_after mint tidy trivial found ?_
      rw [Command.publishesFor, publishes, aimed, decide_eq_false (by simpa using apart),
        Bool.false_and]
    · exact fun command now silent => publishedSet_after mint tidy now found silent
  · intro room earlier later version first second before after polled again
    exact publishedSet_unique forward room before after polled again

/-- Both nodes hand in the same record, and it is published twice under different versions. -/
theorem issues_handedInTwice :
    issues Mint.numbered (repeated 9) "n" {} (arrivals ++ handedInTwice) =
      [(1, [plainDeposit 3 (repeated 9) "n"]), (2, [plainDeposit 3 (repeated 9) "n"])] := by
  have before : issues Mint.numbered (repeated 9) "n" {} arrivals = [] := rfl
  have after : continued {} Mint.numbered arrivals = alone { directory := arrived } 0 :=
    played_arrivals Mint.numbered
  rw [issues_append, before, after]
  decide

/-- The vault is polled with the second set in the end. Under version 1, it is polled with the first
set before and after the second node hands in. -/
theorem publishedSet_played_handedInTwice :
    (∀ command ∈ arrivals ++ handedInTwice, command.Forward) ∧
    (issues Mint.numbered (repeated 9) "n" {} (arrivals ++ handedInTwice)).length < UInt64.size ∧
    (played Mint.numbered (arrivals ++ handedInTwice)).publishedSet (repeated 9) "n" =
      .ok (2, [plainDeposit 3 (repeated 9) "n"]) ∧
    ∃ first second,
      (played Mint.numbered (arrivals ++ handedInTwice.take 2)).publishedSet (repeated 9) "n" =
        .ok (1, first) ∧
      (played Mint.numbered (arrivals ++ handedInTwice.take 3)).publishedSet (repeated 9) "n" =
        .ok (1, second) ∧
      first = second := by
  have forward : ∀ command ∈ arrivals ++ handedInTwice, command.Forward := by
    simp [arrivals, handedInTwice, Command.Forward]
  have start : ∀ commands, played Mint.numbered (arrivals ++ commands) =
      (alone { directory := arrived } 0).continued Mint.numbered commands := by
    intro commands
    rw [← played_arrivals Mint.numbered]
    exact List.foldl_append
  obtain ⟨-, absent, -, polls, unique⟩ :=
    publishedSet_played Mint.numbered (arrivals ++ handedInTwice) forward (repeated 9) "n"
  rw [issues_handedInTwice] at absent polls unique ⊢
  obtain ⟨vault, found⟩ := Option.ne_none_iff_exists'.mp
    fun gone => List.cons_ne_nil _ _ (absent gone)
  have poll : ∀ count, count = 2 ∨ count = 3 →
      (played Mint.numbered (arrivals ++ handedInTwice.take count)).publishedSet (repeated 9) "n" =
        .ok (1, [plainDeposit 3 (repeated 9) "n"]) := by
    rintro count (rfl | rfl) <;> rw [start] <;> decide
  have part : ∀ count, arrivals ++ handedInTwice.take count <+: arrivals ++ handedInTwice :=
    fun count => (List.prefix_append_right_inj _).mpr (List.take_prefix count _)
  exact ⟨forward, by decide, (polls vault found).1, _, _, poll 2 (.inl rfl), poll 3 (.inr rfl),
    unique (by decide) _ _ 1 _ _ (part 2) (part 3) (poll 2 (.inl rfl)) (poll 3 (.inr rfl))⟩

end Service

end StakingDirectory
