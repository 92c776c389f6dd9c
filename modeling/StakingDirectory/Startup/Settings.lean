/-
**The settings of the program.**

Variables set the host, the number to listen on and the log level; a blank variable counts as not
set. What the command line sets comes on top.

* `Settings.ofVariables` reads the variables and stops at the first fault;
* `Settings.override` applies the command line;
* `Settings.hostFault?` tells what is wrong with the host.
-/

import StakingDirectory.Startup.CommandLine
import StakingDirectory.Startup.IpAddress
import StakingDirectory.Text.Blank

namespace StakingDirectory

/-- How much is logged, from the least on. -/
inductive LogLevel where
  | error
  | warn
  | info
  | debug
  | trace
deriving DecidableEq, Repr

namespace LogLevel

/-- All levels in order. -/
def all : List LogLevel := [.error, .warn, .info, .debug, .trace]

/-- The name of a level. -/
def name : LogLevel → String
  | .error => "ERROR"
  | .warn => "WARN"
  | .info => "INFO"
  | .debug => "DEBUG"
  | .trace => "TRACE"

/-- The place of a level, from one on. -/
def rank : LogLevel → Nat
  | .error => 1
  | .warn => 2
  | .info => 3
  | .debug => 4
  | .trace => 5

/-- The level with this name, in any case, or this rank. -/
def ofText? (text : String) : Option LogLevel :=
  let byRank := do
    let number ← Text.readNumeral UInt64.size text
    all.find? fun level => level.rank = number
  byRank <|> all.find? fun level => level.name = text.toUpper

end LogLevel

/-- The settings of the program. -/
structure Settings where
  host : String := "127.0.0.1"
  listenPort : UInt16 := 49537
  logLevel : LogLevel := .info
  /-- The env file that was loaded, if any. -/
  source : Option String := none
deriving DecidableEq, Repr

namespace Settings

/-- Why variables are not accepted. -/
inductive Fault where
  | badPort (value : String)
  | badLevel
deriving DecidableEq, Repr

/-- The report of a fault. -/
def Fault.message : Fault → String
  | .badPort value => s!"NSMOCK_PORT must be a valid port number, got '{value}'"
  | .badLevel => "NSMOCK_LOG_LEVEL must be one of trace, debug, info, warn, error"

/-- The variables that the settings are made of. -/
def variableNames : List String := ["NSMOCK_HOST", "NSMOCK_PORT", "NSMOCK_LOG_LEVEL"]

/-- The value of a variable that is set and not blank. -/
def inked (environment : String → Option String) (name : String) : Option String :=
  (environment name).filter Text.hasInk

/-- The settings that the variables make. -/
def ofVariables (environment : String → Option String) : Except Fault Settings := do
  let host :=
    match inked environment "NSMOCK_HOST" with
    | none => ({} : Settings).host
    | some text => Text.trim text
  let listenPort ←
    match inked environment "NSMOCK_PORT" with
    | none => pure ({} : Settings).listenPort
    | some text =>
      match CommandLine.readPort (Text.trim text) with
      | some number => pure number
      | none => throw (.badPort text)
  let logLevel ←
    match inked environment "NSMOCK_LOG_LEVEL" with
    | none => pure ({} : Settings).logLevel
    | some text =>
      match LogLevel.ofText? (Text.trim text) with
      | some level => pure level
      | none => throw .badLevel
  return { host, listenPort, logLevel }

/-- The settings with what the command line sets. -/
def override (settings : Settings) (overrides : Overrides) : Settings :=
  { settings with
    host := overrides.host.getD settings.host
    listenPort := overrides.listenPort.getD settings.listenPort }

/-- What may be wrong with the host. -/
inductive HostFault where
  | empty
  | blankInside (host : String)
deriving DecidableEq, Repr

/-- The report of a host fault. -/
def HostFault.message : HostFault → String
  | .empty => "Host cannot be empty"
  | .blankInside host => s!"Invalid host: '{host}'"

/-- What is wrong with the host, if anything. -/
def hostFault? (settings : Settings) : Option HostFault :=
  if !Text.hasInk settings.host then some .empty
  else if settings.host.toList.any Text.isBlank then some (.blankInside settings.host)
  else none

/-- The endpoint to listen on, where the host is an address and not a name. -/
def endpoint? (settings : Settings) : Option String :=
  (IpAddress.ofText? settings.host).map fun address => address.endpoint settings.listenPort

end Settings

end StakingDirectory
