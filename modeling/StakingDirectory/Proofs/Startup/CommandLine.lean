/-
**Which command lines are accepted.**

The reader of the command line is measured by a grammar of its own:

* `Sets` is a flag with a value that it takes, and `Pairs` is such pairs one behind the other. A
  value is whatever stands behind its flag; what it looks like does not matter;
* `lastOf` is what pairs set: of each kind the last one counts;
* `Ends` is what may stand behind the pairs, and what comes of it: the end, a flag that asks for
  help or for the version, or a fault.

The reader passes over pairs (`parseOnto_append`), and all arguments are pairs up to one of the ends
(`exists_ends`). So what it gives is what the grammar says (`parse_eq_iff`), and `parse_grammar`
lists all that can come of arguments.
-/

import StakingDirectory.Proofs.Text.Numeral
import StakingDirectory.Startup.CommandLine

namespace StakingDirectory

/-- What is set on top of what was set before. -/
def Overrides.above (later before : Overrides) : Overrides :=
  { host := later.host.or before.host
    listenPort := later.listenPort.or before.listenPort }

/-- What a command line asks for behind arguments that have set something. -/
def Command.above (command : Command) (before : Overrides) : Command :=
  match command with
  | .run later => .run (later.above before)
  | .help => .help
  | .version => .version

theorem Overrides.above_empty (later : Overrides) : later.above {} = later := by
  unfold Overrides.above
  rw [Option.or_none, Option.or_none]

theorem Overrides.above_above (last later before : Overrides) :
    (last.above later).above before = last.above (later.above before) := by
  unfold Overrides.above
  simp only [Option.or_assoc]

namespace CommandLine

/-! ### The grammar -/

/-- The short and the long form of a flag. -/
def Flag.forms : Flag → List String
  | .help => ["-h", "--help"]
  | .version => ["-v", "--version"]
  | .host => ["-i", "--ip"]
  | .listenPort => ["-p", "--port"]

/-- What a flag with its value sets. -/
inductive Setting where
  | host (value : String)
  | listenPort (number : UInt16)
deriving DecidableEq

/-- A flag takes a value, and they set something. -/
inductive Sets : String → String → Setting → Prop
  | host {flag : String} (form : flag ∈ Flag.host.forms) (value : String) :
    Sets flag value (.host value)
  | listenPort {flag value : String} {number : UInt16} (form : flag ∈ Flag.listenPort.forms)
    (spells : Text.Spells value number.toNat) : Sets flag value (.listenPort number)

/-- Arguments are flags with their values, pair by pair. -/
inductive Pairs : List String → List Setting → Prop
  | nil : Pairs [] []
  | cons {flag value : String} {setting : Setting} {rest : List String} {settings : List Setting}
    (first : Sets flag value setting) (later : Pairs rest settings) :
    Pairs (flag :: value :: rest) (setting :: settings)

/-- The host that is set. -/
def Setting.host? : Setting → Option String
  | .host value => some value
  | .listenPort _ => none

/-- The number that is set. -/
def Setting.listenPort? : Setting → Option UInt16
  | .host _ => none
  | .listenPort number => some number

/-- The last setting of each kind. -/
def lastOf (settings : List Setting) : Overrides :=
  { host := (settings.filterMap Setting.host?).getLast?
    listenPort := (settings.filterMap Setting.listenPort?).getLast? }

/-- What stands behind the pairs, and what comes of it where they have set something. -/
inductive Ends (set : Overrides) : List String → Except Fault Command → Prop
  | done : Ends set [] (.ok (.run set))
  | help {flag : String} (form : flag ∈ Flag.help.forms) (rest : List String) :
    Ends set (flag :: rest) (.ok .help)
  | version {flag : String} (form : flag ∈ Flag.version.forms) (rest : List String) :
    Ends set (flag :: rest) (.ok .version)
  | missingValue {flag : String} (form : flag ∈ Flag.host.forms ++ Flag.listenPort.forms) :
    Ends set [flag] (.error (.missingValue flag))
  | badPort {flag value : String} (form : flag ∈ Flag.listenPort.forms)
    (none : ∀ number : UInt16, ¬ Text.Spells value number.toNat) (rest : List String) :
    Ends set (flag :: value :: rest) (.error (.badPort value))
  | unknown {argument : String} (none : ∀ flag : Flag, argument ∉ flag.forms)
    (rest : List String) : Ends set (argument :: rest) (.error (.unknown argument))

/-! ### Flags and numbers -/

theorem ofArgument?_eq_some {argument : String} {flag : Flag} :
    Flag.ofArgument? argument = some flag ↔ argument ∈ flag.forms := by
  constructor
  · intro found
    unfold Flag.ofArgument? at found
    split_ifs at found <;> cases found <;> simpa [Flag.forms]
  · intro form
    cases flag <;> simp only [Flag.forms, List.mem_cons, List.not_mem_nil, or_false] at form <;>
      rcases form with rfl | rfl <;> decide

theorem ofArgument?_eq_none {argument : String} :
    Flag.ofArgument? argument = none ↔ ∀ flag : Flag, argument ∉ flag.forms := by
  simp only [Option.eq_none_iff_forall_ne_some, ne_eq, ofArgument?_eq_some]

/-- **The numerals of 16 bits are read.** -/
theorem readPort_eq_some {text : String} {number : UInt16} :
    readPort text = some number ↔ Text.Spells text number.toNat := by
  unfold readPort
  rw [Option.map_eq_some_iff]
  simp only [Text.readNumeral_eq_some]
  constructor
  · rintro ⟨value, ⟨spells, small⟩, rfl⟩
    rwa [UInt16.toNat_ofNat_of_lt' small]
  · intro spells
    exact ⟨_, ⟨spells, number.toNat_lt⟩, UInt16.ofNat_toNat⟩

theorem readPort_eq_none {text : String} :
    readPort text = none ↔ ∀ number : UInt16, ¬ Text.Spells text number.toNat := by
  simp only [Option.eq_none_iff_forall_ne_some, ne_eq, readPort_eq_some]

/-! ### Passing over pairs -/

theorem lastOf_append (earlier later : List Setting) :
    lastOf (earlier ++ later) = (lastOf later).above (lastOf earlier) := by
  unfold lastOf Overrides.above
  simp only [List.filterMap_append, List.getLast?_append]

theorem lastOf_cons (setting : Setting) (settings : List Setting) (set : Overrides) :
    (lastOf (setting :: settings)).above set =
      (lastOf settings).above ((lastOf [setting]).above set) := by
  rw [← List.singleton_append, lastOf_append, Overrides.above_above]

section

variable {set : Overrides} {front rest arguments : List String} {settings : List Setting}
  {result : Except Fault Command}

/-- A pair sets something, and the reader goes on behind it. -/
theorem parseOnto_of_sets {flag value : String} {setting : Setting}
    (sets : Sets flag value setting) :
    parseOnto set (flag :: value :: rest) = parseOnto ((lastOf [setting]).above set) rest := by
  rw [parseOnto]
  cases sets with
  | host form value =>
    rw [ofArgument?_eq_some.mpr form]
    rfl
  | listenPort form spells =>
    rw [ofArgument?_eq_some.mpr form]
    dsimp only
    rw [readPort_eq_some.mpr spells]
    rfl

/-- **The reader passes over pairs**, and keeps the last of what they set. -/
theorem parseOnto_append (pairs : Pairs front settings) :
    parseOnto set (front ++ rest) = parseOnto ((lastOf settings).above set) rest := by
  induction pairs generalizing set with
  | nil => rfl
  | @cons _ _ setting _ settings first _ ih =>
    rw [List.cons_append, List.cons_append, parseOnto_of_sets first, lastOf_cons setting settings]
    exact ih

/-- Nothing is passed over. -/
theorem Ends.at_once (ends : Ends set arguments result) :
    ∃ front rest settings, arguments = front ++ rest ∧ Pairs front settings ∧
      Ends ((lastOf settings).above set) rest result :=
  ⟨[], arguments, [], rfl, .nil, ends⟩

/-- **Arguments are pairs up to one of the ends**, and the reader gives what the grammar says. -/
theorem exists_ends (set : Overrides) (arguments : List String) :
    ∃ front rest settings, arguments = front ++ rest ∧ Pairs front settings ∧
      Ends ((lastOf settings).above set) rest (parseOnto set arguments) := by
  -- A pair goes in front of those that are found behind it; all else ends the pairs.
  fun_induction parseOnto set arguments with
  | case1 set => exact Ends.done.at_once
  | case2 set argument rest found =>
    exact (Ends.unknown (ofArgument?_eq_none.mp found) rest).at_once
  | case3 set flag rest found => exact (Ends.help (ofArgument?_eq_some.mp found) rest).at_once
  | case4 set flag rest found => exact (Ends.version (ofArgument?_eq_some.mp found) rest).at_once
  | case5 set flag found =>
    have form := List.mem_append_left Flag.listenPort.forms (ofArgument?_eq_some.mp found)
    exact (Ends.missingValue form).at_once
  | case6 set flag found value rest ih =>
    obtain ⟨front, last, settings, rfl, pairs, ends⟩ := ih
    have first := Sets.host (ofArgument?_eq_some.mp found) value
    refine ⟨flag :: value :: front, last, _, rfl, .cons first pairs, ?_⟩
    rwa [lastOf_cons]
  | case7 set flag found =>
    have form := List.mem_append_right Flag.host.forms (ofArgument?_eq_some.mp found)
    exact (Ends.missingValue form).at_once
  | case8 set flag found value rest refused =>
    have form := ofArgument?_eq_some.mp found
    exact (Ends.badPort form (readPort_eq_none.mp refused) rest).at_once
  | case9 set flag found value rest number read ih =>
    obtain ⟨front, last, settings, rfl, pairs, ends⟩ := ih
    have first := Sets.listenPort (ofArgument?_eq_some.mp found) (readPort_eq_some.mp read)
    refine ⟨flag :: value :: front, last, _, rfl, .cons first pairs, ?_⟩
    rwa [lastOf_cons]

/-- What comes of an end does not depend on anything else. -/
theorem parseOnto_of_ends (ends : Ends set rest result) : parseOnto set rest = result := by
  cases ends with
  | done => rfl
  | help form rest =>
    unfold parseOnto
    rw [ofArgument?_eq_some.mpr form]
  | version form rest =>
    unfold parseOnto
    rw [ofArgument?_eq_some.mpr form]
  | missingValue form =>
    rw [parseOnto]
    rcases List.mem_append.mp form with host | port
    · rw [ofArgument?_eq_some.mpr host]
    · rw [ofArgument?_eq_some.mpr port]
  | badPort form none rest =>
    rw [parseOnto, ofArgument?_eq_some.mpr form]
    dsimp only
    rw [readPort_eq_none.mpr none]
  | unknown none rest =>
    unfold parseOnto
    rw [ofArgument?_eq_none.mpr none]

/-- **The reader gives what the grammar says** of the arguments, and nothing else. -/
theorem parse_eq_iff :
    parse arguments = result ↔
      ∃ front rest settings, arguments = front ++ rest ∧ Pairs front settings ∧
        Ends (lastOf settings) rest result := by
  constructor
  · rintro rfl
    obtain ⟨front, rest, settings, same, pairs, ends⟩ := exists_ends {} arguments
    rw [Overrides.above_empty] at ends
    exact ⟨front, rest, settings, same, pairs, ends⟩
  · rintro ⟨front, rest, settings, rfl, pairs, ends⟩
    rw [parse, parseOnto_append pairs, Overrides.above_empty]
    exact parseOnto_of_ends ends

theorem parse_eq_run {overrides : Overrides} :
    parse arguments = .ok (.run overrides) ↔
      ∃ settings, Pairs arguments settings ∧ overrides = lastOf settings := by
  rw [parse_eq_iff]
  constructor
  · rintro ⟨front, rest, settings, rfl, pairs, ends⟩
    cases ends
    rw [List.append_nil]
    exact ⟨settings, pairs, rfl⟩
  · rintro ⟨settings, pairs, rfl⟩
    exact ⟨arguments, [], settings, (List.append_nil _).symm, pairs, .done⟩

theorem parse_eq_help :
    parse arguments = .ok .help ↔ ∃ front flag rest settings,
      arguments = front ++ flag :: rest ∧ Pairs front settings ∧ flag ∈ Flag.help.forms := by
  rw [parse_eq_iff]
  constructor
  · rintro ⟨front, _, settings, same, pairs, ends⟩
    cases ends with
    | help form rest => exact ⟨front, _, rest, settings, same, pairs, form⟩
  · rintro ⟨front, flag, rest, settings, same, pairs, form⟩
    exact ⟨front, _, settings, same, pairs, .help form rest⟩

theorem parse_eq_version :
    parse arguments = .ok .version ↔ ∃ front flag rest settings,
      arguments = front ++ flag :: rest ∧ Pairs front settings ∧ flag ∈ Flag.version.forms := by
  rw [parse_eq_iff]
  constructor
  · rintro ⟨front, _, settings, same, pairs, ends⟩
    cases ends with
    | version form rest => exact ⟨front, _, rest, settings, same, pairs, form⟩
  · rintro ⟨front, flag, rest, settings, same, pairs, form⟩
    exact ⟨front, _, settings, same, pairs, .version form rest⟩

theorem parse_eq_unknown {argument : String} :
    parse arguments = .error (.unknown argument) ↔ ∃ front rest settings,
      arguments = front ++ argument :: rest ∧ Pairs front settings ∧
        ∀ flag : Flag, argument ∉ flag.forms := by
  rw [parse_eq_iff]
  constructor
  · rintro ⟨front, _, settings, same, pairs, ends⟩
    cases ends with
    | unknown none rest => exact ⟨front, rest, settings, same, pairs, none⟩
  · rintro ⟨front, rest, settings, same, pairs, none⟩
    exact ⟨front, _, settings, same, pairs, .unknown none rest⟩

theorem parse_eq_missingValue {flag : String} :
    parse arguments = .error (.missingValue flag) ↔ ∃ front settings,
      arguments = front ++ [flag] ∧ Pairs front settings ∧
        flag ∈ Flag.host.forms ++ Flag.listenPort.forms := by
  rw [parse_eq_iff]
  constructor
  · rintro ⟨front, _, settings, same, pairs, ends⟩
    cases ends with
    | missingValue form => exact ⟨front, settings, same, pairs, form⟩
  · rintro ⟨front, settings, same, pairs, form⟩
    exact ⟨front, _, settings, same, pairs, .missingValue form⟩

theorem parse_eq_badPort {value : String} :
    parse arguments = .error (.badPort value) ↔ ∃ front flag rest settings,
      arguments = front ++ flag :: value :: rest ∧ Pairs front settings ∧
        flag ∈ Flag.listenPort.forms ∧ ∀ number : UInt16, ¬ Text.Spells value number.toNat := by
  rw [parse_eq_iff]
  constructor
  · rintro ⟨front, _, settings, same, pairs, ends⟩
    cases ends with
    | badPort form none rest => exact ⟨front, _, rest, settings, same, pairs, form, none⟩
  · rintro ⟨front, flag, rest, settings, same, pairs, form, none⟩
    exact ⟨front, _, settings, same, pairs, .badPort form none rest⟩

theorem Pairs.append {later : List String} {others : List Setting} (pairs : Pairs front settings)
    (behind : Pairs later others) : Pairs (front ++ later) (settings ++ others) := by
  induction pairs with
  | nil => exact behind
  | cons first _ ih => exact .cons first ih

theorem Ends.above (ends : Ends set rest result) (before : Overrides) :
    Ends (set.above before) rest (result.map fun command => command.above before) := by
  cases ends with
  | done => exact .done
  | help form rest => exact .help form rest
  | version form rest => exact .version form rest
  | missingValue form => exact .missingValue form
  | badPort form none rest => exact .badPort form none rest
  | unknown none rest => exact .unknown none rest

/-- **Pairs in front do not change how the rest is read**; what they set is kept where the rest sets
nothing. -/
theorem parse_append (pairs : Pairs front settings) :
    parse (front ++ rest) =
      (parse rest).map fun command => command.above (lastOf settings) := by
  obtain ⟨later, last, others, rfl, behind, ends⟩ := parse_eq_iff.mp (Eq.refl (parse rest))
  rw [parse_eq_iff]
  refine ⟨front ++ later, last, _, (List.append_assoc _ _ _).symm, pairs.append behind, ?_⟩
  rw [lastOf_append]
  exact ends.above _

end

/-- **The reader of command lines accepts its grammar and nothing else.** The program runs if the
arguments are pairs throughout, with the last host and the last number that they set, if any. It
gives help or its version if a flag that asks for it stands behind pairs, whatever follows. In all
other cases it reports what stands behind the longest pairs: an argument that is no flag, a flag
without a value, or a value that is no number of 16 bits. Pairs in front do not change how the rest
is read, whatever their values look like. -/
theorem parse_grammar (arguments : List String) :
    (∀ overrides, parse arguments = .ok (.run overrides) ↔
      ∃ settings, Pairs arguments settings ∧ overrides = lastOf settings) ∧
    (parse arguments = .ok .help ↔ ∃ front flag rest settings,
      arguments = front ++ flag :: rest ∧ Pairs front settings ∧ flag ∈ Flag.help.forms) ∧
    (parse arguments = .ok .version ↔ ∃ front flag rest settings,
      arguments = front ++ flag :: rest ∧ Pairs front settings ∧ flag ∈ Flag.version.forms) ∧
    (∀ argument, parse arguments = .error (.unknown argument) ↔ ∃ front rest settings,
      arguments = front ++ argument :: rest ∧ Pairs front settings ∧
        ∀ flag : Flag, argument ∉ flag.forms) ∧
    (∀ flag, parse arguments = .error (.missingValue flag) ↔ ∃ front settings,
      arguments = front ++ [flag] ∧ Pairs front settings ∧
        flag ∈ Flag.host.forms ++ Flag.listenPort.forms) ∧
    (∀ value, parse arguments = .error (.badPort value) ↔ ∃ front flag rest settings,
      arguments = front ++ flag :: value :: rest ∧ Pairs front settings ∧
        flag ∈ Flag.listenPort.forms ∧ ∀ number : UInt16, ¬ Text.Spells value number.toNat) ∧
    (∀ text, (Fault.unknown text).message = "unknown argument '" ++ text ++ "'" ∧
      (Fault.missingValue text).message = text ++ " requires a value" ∧
      (Fault.badPort text).message = "invalid port '" ++ text ++ "'") ∧
    ∀ front settings, Pairs front settings →
      parse (front ++ arguments) =
        (parse arguments).map fun command => command.above (lastOf settings) :=
  ⟨fun _ => parse_eq_run, parse_eq_help, parse_eq_version, fun _ => parse_eq_unknown,
    fun _ => parse_eq_missingValue, fun _ => parse_eq_badPort, fun _ => ⟨rfl, rfl, rfl⟩,
    fun _ _ => parse_append⟩

/-- A host that looks like a flag is a host, and the last number counts; where a number should
stand, what looks like a flag is reported as none. -/
theorem parse_grammar_flagForValue :
    Pairs ["-i", "-h", "-p", "+0080"] [.host "-h", .listenPort 80] ∧
      parse (["-i", "-h", "-p", "+0080"] ++ ["--port", "443"]) =
        .ok (.run { host := some "-h", listenPort := some 443 }) ∧
      ∃ front flag rest settings, ["-i", "-h", "-p", "-h", "-v"] = front ++ flag :: "-h" :: rest ∧
        Pairs front settings ∧ flag ∈ Flag.listenPort.forms := by
  have spells : Text.Spells "+0080" (80 : UInt16).toNat := readPort_eq_some.mp (by decide)
  have pairs : Pairs ["-i", "-h", "-p", "+0080"] [.host "-h", .listenPort 80] :=
    .cons (.host (by decide) "-h") (.cons (.listenPort (by decide) spells) .nil)
  have last : parse ["--port", "443"] = .ok (.run { listenPort := some 443 }) := by decide
  obtain ⟨-, -, -, -, -, -, -, behind⟩ := parse_grammar ["--port", "443"]
  obtain ⟨-, -, -, -, -, refused, -⟩ := parse_grammar ["-i", "-h", "-p", "-h", "-v"]
  obtain ⟨front, flag, rest, settings, same, before, form, -⟩ := (refused "-h").mp (by decide)
  refine ⟨pairs, ?_, front, flag, rest, settings, same, before, form⟩
  rw [behind _ _ pairs, last]
  rfl

end CommandLine

end StakingDirectory
