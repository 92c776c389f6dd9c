/-
**The command line comes before the variables.**

* `Settings.resolve` is what variables and a command line come to: settings, and what is wrong with
  their host. It is all that the start of the program needs to know of both (`run_congr`);
* `resolve_eq` takes it apart: each variable is read on its own, and what the command line sets
  stands in place of what was read;
* `exists_around_trim`: only blanks are trimmed away, so that a text with a character that is not
  blank keeps it.

What the command line sets makes no difference to how the variables are read: a number that is set
twice is still read from its variable, and reported there if it is none (`resolve_of_badPort`). So
two lookups that differ in a variable come to the same settings where the command line sets what the
variable is for and the variable can be read (`commandLine_overrides`), and not in general
(`commandLine_stopped`).
-/

import StakingDirectory.Proofs.Outcome
import StakingDirectory.Proofs.Startup.CommandLine
import StakingDirectory.Startup.Launch

namespace StakingDirectory

/-! ### Trimmed texts -/

namespace Text

/-- The characters that are dropped from the front of a list, and what is left. -/
theorem exists_dropWhile (drops : Char → Bool) (chars : List Char) :
    ∃ front, chars = front ++ chars.dropWhile drops ∧ ∀ char ∈ front, drops char = true :=
  ⟨chars.takeWhile drops, (List.takeWhile_append_dropWhile).symm,
    List.all_eq_true.mp List.all_takeWhile⟩

/-- **Only blanks are trimmed away**, at both ends. -/
theorem exists_around_trim (text : String) :
    ∃ front back, text.toList = front ++ (trim text).toList ++ back ∧
      (∀ char ∈ front, isBlank char = true) ∧ ∀ char ∈ back, isBlank char = true := by
  obtain ⟨front, before, blank⟩ := exists_dropWhile isBlank text.toList
  obtain ⟨back, behind, blank'⟩ :=
    exists_dropWhile isBlank (text.toList.dropWhile isBlank).reverse
  refine ⟨front, back.reverse, ?_, blank,
    fun char member => blank' char (List.mem_reverse.mp member)⟩
  have kept : text.toList.dropWhile isBlank = (trim text).toList ++ back.reverse := by
    rw [trim, String.toList_ofList, trimEnd, ← List.reverse_append, ← behind, List.reverse_reverse]
  rw [List.append_assoc, ← kept]
  exact before

/-- A trimmed text has what was not blank. -/
theorem hasInk_trim {text : String} (inked : hasInk text = true) : hasInk (trim text) = true := by
  obtain ⟨front, back, same, blank, blank'⟩ := exists_around_trim text
  obtain ⟨char, member, ink⟩ := List.any_eq_true.mp inked
  refine List.any_eq_true.mpr ⟨char, ?_, ink⟩
  -- The character is neither in front nor behind, where all are blank.
  rw [Bool.not_eq_true'] at ink
  rw [same, List.mem_append, List.mem_append] at member
  rcases member with (before | inside) | behind
  · rw [blank char before] at ink
    cases ink
  · exact inside
  · rw [blank' char behind] at ink
    cases ink

end Text

namespace Settings

variable {environment first second : String → Option String} {overrides : Overrides}

/-! ### Variables one by one -/

/-- The host that the variables set. -/
def hostOf (environment : String → Option String) : String :=
  match inked environment "NSMOCK_HOST" with
  | none => "127.0.0.1"
  | some text => Text.trim text

/-- The number that the variables set. -/
def portOf (environment : String → Option String) : Except Fault UInt16 :=
  match inked environment "NSMOCK_PORT" with
  | none => .ok 49537
  | some text =>
    match CommandLine.readPort (Text.trim text) with
    | some number => .ok number
    | none => .error (.badPort text)

/-- The log level that the variables set. -/
def levelOf (environment : String → Option String) : Except Fault LogLevel :=
  match inked environment "NSMOCK_LOG_LEVEL" with
  | none => .ok .info
  | some text =>
    match LogLevel.ofText? (Text.trim text) with
    | some level => .ok level
    | none => .error .badLevel

/-- **The variables are read one by one**, the number in front of the level. -/
theorem ofVariables_eq (environment : String → Option String) :
    ofVariables environment = do
      let number ← portOf environment
      let level ← levelOf environment
      return { host := hostOf environment, listenPort := number, logLevel := level } := by
  unfold ofVariables portOf levelOf
  cases inked environment "NSMOCK_PORT" with
  | none =>
    cases inked environment "NSMOCK_LOG_LEVEL" with
    | none => rfl
    | some level =>
      dsimp only
      cases LogLevel.ofText? (Text.trim level) <;> rfl
  | some text =>
    dsimp only
    cases CommandLine.readPort (Text.trim text) with
    | none => rfl
    | some number =>
      cases inked environment "NSMOCK_LOG_LEVEL" with
      | none => rfl
      | some level =>
        dsimp only
        cases LogLevel.ofText? (Text.trim level) <;> rfl

/-- What variables and a command line come to: settings, and what is wrong with their host. -/
def resolve (environment : String → Option String) (overrides : Overrides) :
    Except Fault (Settings × Option HostFault) :=
  (ofVariables environment).map fun settings =>
    (settings.override overrides, (settings.override overrides).hostFault?)

/-- Settings, and what is wrong with their host. -/
def judged (settings : Settings) : Settings × Option HostFault := (settings, settings.hostFault?)

/-- **What the command line sets stands in place of what was read**, but the variables are read all
the same. -/
theorem resolve_eq (environment : String → Option String) (overrides : Overrides) :
    resolve environment overrides = do
      let number ← portOf environment
      let level ← levelOf environment
      return judged
        { host := overrides.host.getD (hostOf environment)
          listenPort := overrides.listenPort.getD number
          logLevel := level } := by
  rw [resolve, ofVariables_eq]
  cases portOf environment with
  | error fault => rfl
  | ok number => cases levelOf environment <;> rfl

/-! ### Two lookups -/

/-- Two lookups find the same, but for one variable. -/
def AgreeBut (name : String) (first second : String → Option String) : Prop :=
  ∀ other, other ≠ name → first other = second other

/-- What stands in the variable of the number, if anything does, is a numeral between blanks. -/
def PortLegible (environment : String → Option String) : Prop :=
  ∀ text, environment "NSMOCK_PORT" = some text → Text.hasInk text = true →
    ∃ number : UInt16, Text.Spells (Text.trim text) number.toNat

theorem inked_eq_some {name text : String} :
    inked environment name = some text ↔
      environment name = some text ∧ Text.hasInk text = true := by
  rw [inked, Option.filter_eq_some_iff]

theorem inked_congr {name : String} (same : first name = second name) :
    inked first name = inked second name := by
  rw [inked, inked, same]

theorem PortLegible.exists_portOf (legible : PortLegible environment) :
    ∃ number, portOf environment = .ok number := by
  unfold portOf
  cases set : inked environment "NSMOCK_PORT" with
  | none => exact ⟨_, rfl⟩
  | some text =>
    obtain ⟨there, ink⟩ := inked_eq_some.mp set
    obtain ⟨number, spells⟩ := legible text there ink
    refine ⟨number, ?_⟩
    dsimp only
    rw [CommandLine.readPort_eq_some.mpr spells]

/-- **A number that cannot be read is reported**, whatever the command line sets. -/
theorem resolve_of_badPort {text : String} (there : environment "NSMOCK_PORT" = some text)
    (ink : Text.hasInk text = true)
    (none : ∀ number : UInt16, ¬ Text.Spells (Text.trim text) number.toNat)
    (overrides : Overrides) :
    resolve environment overrides = .error (.badPort text) := by
  have bad : portOf environment = .error (.badPort text) := by
    rw [portOf, inked_eq_some.mpr ⟨there, ink⟩]
    dsimp only
    rw [CommandLine.readPort_eq_none.mpr none]
  rw [resolve_eq, bad]
  rfl

/-- **The variable of the number makes no difference** where the command line sets the number. -/
theorem resolve_congr_port (agree : AgreeBut "NSMOCK_PORT" first second)
    (legible : PortLegible first) (legible' : PortLegible second) {number : UInt16}
    (set : overrides.listenPort = some number) :
    resolve first overrides = resolve second overrides := by
  obtain ⟨one, read⟩ := legible.exists_portOf
  obtain ⟨other, read'⟩ := legible'.exists_portOf
  have host : hostOf first = hostOf second := by
    rw [hostOf, hostOf, inked_congr (agree "NSMOCK_HOST" (by decide))]
  have level : levelOf first = levelOf second := by
    rw [levelOf, levelOf, inked_congr (agree "NSMOCK_LOG_LEVEL" (by decide))]
  rw [resolve_eq, resolve_eq, read, read', host, level, set]
  rfl

/-- **The variable of the host makes no difference** where the command line sets the host. -/
theorem resolve_congr_host (agree : AgreeBut "NSMOCK_HOST" first second) {host : String}
    (set : overrides.host = some host) : resolve first overrides = resolve second overrides := by
  have port : portOf first = portOf second := by
    rw [portOf, portOf, inked_congr (agree "NSMOCK_PORT" (by decide))]
  have level : levelOf first = levelOf second := by
    rw [levelOf, levelOf, inked_congr (agree "NSMOCK_LOG_LEVEL" (by decide))]
  rw [resolve_eq, resolve_eq, port, level, set]
  rfl

/-! ### The host -/

/-- The host is the trimmed one of its variable, unless that is not set or blank. -/
theorem hostOf_cases (environment : String → Option String) :
    (∃ text, environment "NSMOCK_HOST" = some text ∧ Text.hasInk text = true ∧
        hostOf environment = Text.trim text) ∨
      (∀ text, environment "NSMOCK_HOST" = some text → Text.hasInk text = false) ∧
        hostOf environment = "127.0.0.1" := by
  unfold hostOf
  cases set : inked environment "NSMOCK_HOST" with
  | none =>
    refine .inr ⟨fun text there => Bool.eq_false_iff.mpr fun ink => ?_, rfl⟩
    rw [inked_eq_some.mpr ⟨there, ink⟩] at set
    cases set
  | some text =>
    obtain ⟨there, ink⟩ := inked_eq_some.mp set
    exact .inl ⟨text, there, ink, rfl⟩

/-- A host that the variables set is not blank. -/
theorem hasInk_hostOf (environment : String → Option String) :
    Text.hasInk (hostOf environment) = true := by
  rcases hostOf_cases environment with ⟨text, -, ink, host⟩ | ⟨-, host⟩
  · rw [host]
    exact Text.hasInk_trim ink
  · rw [host]
    decide

theorem hostFault?_ne_empty {settings : Settings} (ink : Text.hasInk settings.host = true) :
    settings.hostFault? ≠ some .empty := by
  unfold hostFault?
  rw [ink]
  simp only [Bool.not_true, Bool.false_eq_true, if_false]
  split
  · exact fun same => by cases same
  · exact fun same => by cases same

/-- **Without a host on the command line, the host is the one that the variables set**, and it is
never reported as empty. -/
theorem resolve_host (unset : overrides.host = none) {settings : Settings}
    {fault? : Option HostFault}
    (resolved : resolve environment overrides = .ok (settings, fault?)) :
    settings.host = hostOf environment ∧ fault? ≠ some .empty := by
  rw [resolve_eq, unset] at resolved
  obtain ⟨number, -, resolved⟩ := bind_eq_ok.mp resolved
  obtain ⟨level, -, resolved⟩ := bind_eq_ok.mp resolved
  cases resolved
  exact ⟨rfl, hostFault?_ne_empty (hasInk_hostOf environment)⟩

end Settings

/-! ### The start of the program -/

namespace Launch

open Settings (resolve)

variable {found : Surroundings} {second : String → Option String} {overrides : Overrides}

/-- Without an env file the variables are as they were. -/
theorem loadEnvFile_of_unfound (unfound : found.files (envFileName found.environment) = none) :
    loadEnvFile found = (found.environment, none, []) := by
  unfold loadEnvFile
  dsimp only
  rw [unfound]

/-- **The start needs to know of the variables only what they come to** with the command line, where
there is no env file. -/
theorem run_congr (accepted : CommandLine.parse found.arguments = .ok (.run overrides))
    (unfound : found.files (envFileName found.environment) = none)
    (named : found.environment envFileVariable = second envFileVariable)
    (same : resolve found.environment overrides = resolve second overrides) :
    run found = run { found with environment := second } := by
  have unfound' : ({ found with environment := second } : Surroundings).files
      (envFileName second) = none := by
    rw [← unfound, envFileName, envFileName, named]
  unfold run
  rw [accepted]
  dsimp only
  rw [configure, configure, loadEnvFile_of_unfound unfound, loadEnvFile_of_unfound unfound']
  dsimp only
  unfold resolve at same
  -- Both lookups are faulty in the same way, or come to the same settings.
  cases one : Settings.ofVariables found.environment with
  | error fault =>
    cases two : Settings.ofVariables second with
    | error fault' =>
      rw [one, two] at same
      cases same
      rfl
    | ok settings =>
      rw [one, two] at same
      cases same
  | ok settings =>
    cases two : Settings.ofVariables second with
    | error fault =>
      rw [one, two] at same
      cases same
    | ok settings' =>
      rw [one, two] at same
      have equal : settings.override overrides = settings'.override overrides :=
        congrArg Prod.fst (Except.ok.inj same)
      dsimp only
      rw [equal]

end Launch

/-- **What the command line sets comes before the variables.** Let arguments be accepted that make
the program run. Where they set the number to listen on, two lookups that differ in its variable
only come to the same, as long as the variable can be read in both: it is not set, blank, or a
numeral of 16 bits between blanks. What cannot be read is reported whatever the arguments set. Where
they set the host, two lookups that differ in its variable only come to the same. Where they set no
host, it is the trimmed one of the variable, or the default if the variable is not set or blank, and
it is never reported as empty. Without an env file, lookups that come to the same have the program
start alike. -/
theorem commandLine_overrides (arguments : List String) (overrides : Overrides)
    (accepted : CommandLine.parse arguments = .ok (.run overrides)) :
    (∀ number, overrides.listenPort = some number → ∀ first second,
      Settings.AgreeBut "NSMOCK_PORT" first second → Settings.PortLegible first →
        Settings.PortLegible second →
          Settings.resolve first overrides = Settings.resolve second overrides) ∧
    (∀ environment text, environment "NSMOCK_PORT" = some text → Text.hasInk text = true →
      (∀ number : UInt16, ¬ Text.Spells (Text.trim text) number.toNat) →
        Settings.resolve environment overrides = .error (.badPort text)) ∧
    (∀ host, overrides.host = some host → ∀ first second,
      Settings.AgreeBut "NSMOCK_HOST" first second →
        Settings.resolve first overrides = Settings.resolve second overrides) ∧
    (overrides.host = none → ∀ environment settings fault?,
      Settings.resolve environment overrides = .ok (settings, fault?) →
        ((∃ text, environment "NSMOCK_HOST" = some text ∧ Text.hasInk text = true ∧
            settings.host = Text.trim text) ∨
          (∀ text, environment "NSMOCK_HOST" = some text → Text.hasInk text = false) ∧
            settings.host = "127.0.0.1") ∧
        fault? ≠ some .empty) ∧
    ∀ found second, found.arguments = arguments →
      found.files (Launch.envFileName found.environment) = none →
      found.environment Launch.envFileVariable = second Launch.envFileVariable →
      Settings.resolve found.environment overrides = Settings.resolve second overrides →
        Launch.run found = Launch.run { found with environment := second } := by
  refine ⟨fun number set first second agree legible legible' =>
      Settings.resolve_congr_port agree legible legible' set,
    fun environment text there ink none => Settings.resolve_of_badPort there ink none overrides,
    fun host set first second agree => Settings.resolve_congr_host agree set, ?_, ?_⟩
  · intro unset environment settings fault? resolved
    obtain ⟨host, judged⟩ := Settings.resolve_host unset resolved
    rw [host]
    exact ⟨Settings.hostOf_cases environment, judged⟩
  · rintro found second rfl unfound named same
    exact Launch.run_congr accepted unfound named same

/-- One variable that is set. -/
def onlySet (name held : String) : String → Option String :=
  fun other => if other = name then some held else none

theorem agreeBut_onlySet (name held : String) :
    Settings.AgreeBut name (fun _ => none) (onlySet name held) :=
  fun _ different => (if_neg different).symm

/-- A number on the command line stands in place of one in its variable, where letters are reported;
the host is the default. -/
theorem commandLine_overrides_numberTwice :
    CommandLine.parse ["-p", "0"] = .ok (.run { listenPort := some 0 }) ∧
      Settings.resolve (fun _ => none) { listenPort := some 0 } =
        Settings.resolve (onlySet "NSMOCK_PORT" " +080 ") { listenPort := some 0 } ∧
      Settings.resolve (onlySet "NSMOCK_PORT" "bad") { listenPort := some 0 } =
        .error (.badPort "bad") ∧
      ∃ settings, Settings.resolve (fun _ => none) { listenPort := some 0 } = .ok (settings, none) ∧
        settings.host = "127.0.0.1" := by
  have accepted : CommandLine.parse ["-p", "0"] = .ok (.run { listenPort := some 0 }) := by decide
  obtain ⟨number, bad, -, host, -⟩ := commandLine_overrides _ _ accepted
  have legible : Settings.PortLegible (onlySet "NSMOCK_PORT" " +080 ") := by
    rintro text there -
    cases there
    exact ⟨80, CommandLine.readPort_eq_some.mp (by decide)⟩
  have letters : ∀ number : UInt16, ¬ Text.Spells (Text.trim "bad") number.toNat :=
    CommandLine.readPort_eq_none.mp (by decide)
  have resolved : Settings.resolve (fun _ => none) { listenPort := some 0 } =
      .ok ({ listenPort := 0 }, none) := by decide
  refine ⟨accepted, number 0 rfl _ _ (agreeBut_onlySet _ _) (fun _ there => by cases there) legible,
    bad _ _ rfl (by decide) letters, _, resolved, ?_⟩
  rcases (host rfl _ _ _ resolved).1 with ⟨_, there, -⟩ | ⟨-, same⟩
  · cases there
  · exact same

/-- **A number on the command line does not always make up for its variable**: letters in the
variable stop the program. -/
theorem commandLine_stopped :
    ¬ ∀ (arguments : List String) (overrides : Overrides) (number : UInt16)
      (first second : String → Option String),
      CommandLine.parse arguments = .ok (.run overrides) → overrides.listenPort = some number →
        Settings.AgreeBut "NSMOCK_PORT" first second →
          Settings.resolve first overrides = Settings.resolve second overrides := by
  intro same
  have equal := same ["-p", "0"] { listenPort := some 0 } 0 (fun _ => none)
    (onlySet "NSMOCK_PORT" "bad") (by decide) rfl (agreeBut_onlySet _ _)
  exact absurd equal (by decide)

end StakingDirectory
