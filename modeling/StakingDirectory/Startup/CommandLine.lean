/-
**The command line.**

The arguments are pairs of a flag and its value, `-i` or `--ip` with any value and `-p` or `--port`
with a number of 16 bits; of several pairs of a kind the last one counts. The flags that ask for
help or for the version end the reading wherever a flag may stand.

* `CommandLine.parse` reads the arguments and stops at the first fault;
* `CommandLine.usage` is the help text.
-/

import StakingDirectory.Text.Numeral

namespace StakingDirectory

/-- What the command line sets. -/
structure Overrides where
  host : Option String := none
  listenPort : Option UInt16 := none
deriving DecidableEq, Repr

/-- What the command line asks for. -/
inductive Command where
  | run (overrides : Overrides)
  | help
  | version
deriving DecidableEq, Repr

namespace CommandLine

/-- Why the arguments are not accepted. -/
inductive Fault where
  /-- A flag stands at the end where its value should follow. -/
  | missingValue (flag : String)
  /-- The value is no number of 16 bits. -/
  | badPort (value : String)
  /-- The argument is no flag. -/
  | unknown (argument : String)
deriving DecidableEq, Repr

/-- The report of a fault. -/
def Fault.message : Fault → String
  | .missingValue flag => s!"{flag} requires a value"
  | .badPort value => s!"invalid port '{value}'"
  | .unknown argument => s!"unknown argument '{argument}'"

/-- What a flag is for. -/
inductive Flag where
  | help
  | version
  | host
  | listenPort
deriving DecidableEq

/-- The flag that an argument is. -/
def Flag.ofArgument? (argument : String) : Option Flag :=
  if argument = "-h" ∨ argument = "--help" then some .help
  else if argument = "-v" ∨ argument = "--version" then some .version
  else if argument = "-i" ∨ argument = "--ip" then some .host
  else if argument = "-p" ∨ argument = "--port" then some .listenPort
  else none

/-- The number of 16 bits that a numeral spells. -/
def readPort (text : String) : Option UInt16 :=
  (Text.readNumeral UInt16.size text).map UInt16.ofNat

/-- Reads the arguments on top of what was set before. -/
def parseOnto (set : Overrides) : List String → Except Fault Command
  | [] => .ok (.run set)
  | argument :: rest =>
    match Flag.ofArgument? argument with
    | none => .error (.unknown argument)
    | some .help => .ok .help
    | some .version => .ok .version
    | some .host =>
      match rest with
      | [] => .error (.missingValue argument)
      | value :: rest => parseOnto { set with host := some value } rest
    | some .listenPort =>
      match rest with
      | [] => .error (.missingValue argument)
      | value :: rest =>
        match readPort value with
        | none => .error (.badPort value)
        | some number => parseOnto { set with listenPort := some number } rest

/-- Reads the arguments, the name of the program not among them. -/
def parse (arguments : List String) : Except Fault Command :=
  parseOnto {} arguments

/-! ### Help -/

/-- The version of the program. -/
def version : String := "0.1.0"

/-- The help text, line by line. -/
def usage (program : String) : List String :=
  [s!"NodeSet directory mock v{version}",
   "",
   "Usage:",
   s!"  {program} [options]",
   "",
   "Options:",
   "  -i, --ip <host>     Address to listen on (env NSMOCK_HOST, default 127.0.0.1)",
   "  -p, --port <port>   Port to listen on, 0 for random (env NSMOCK_PORT, default 49537)",
   "  -h, --help          Show this help",
   "  -v, --version       Show version",
   "",
   "Environment:",
   "  NSMOCK_LOG_LEVEL    trace, debug, info, warn or error (default info)",
   "  NSMOCK_ENV_FILE     Env file to load (default .env)"]

end CommandLine

end StakingDirectory
