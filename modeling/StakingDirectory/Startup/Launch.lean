/-
**From the start of the program to its serving.**

The program reads its arguments, then the env file and the variables, and then looks at the host. It
ends early with help, the version or a fault, and otherwise serves with the settings it has made.

* `Launch.run` gives what is printed on both streams, and the exit code or the settings to serve
  with.
-/

import StakingDirectory.Startup.EnvFile
import StakingDirectory.Startup.Settings
import StakingDirectory.Text.Control
import StakingDirectory.Text.Split

namespace StakingDirectory

/-- What the program finds when it is started. -/
structure Surroundings where
  program : String
  arguments : List String
  environment : String → Option String
  /-- The full path and the text of a file by its name. -/
  files : String → Option (String × String)

/-- How the start of the program ends. -/
inductive Ending where
  /-- With this exit code. -/
  | exit (code : Nat)
  /-- In serving with these settings. -/
  | serve (settings : Settings)
deriving DecidableEq

/-- The start of the program: how it ends and the lines on both streams. -/
structure Launch where
  ending : Ending
  output : List String := []
  errors : List String := []
deriving DecidableEq

namespace Launch

/-- The variable that names the env file. -/
def envFileVariable : String := "NSMOCK_ENV_FILE"

/-- The name of the env file. -/
def envFileName (environment : String → Option String) : String :=
  (environment envFileVariable).getD ".env"

/-- Where a file of this name may be found, for a directory given by its parts from the last on: in
the directory or, failing that, in one above it. -/
def pathsUpward (name : String) : List (List Char) → List String
  | [] => []
  | part :: above =>
    (String.ofList (Text.joinAll '/' (part :: above).reverse) ++ "/" ++ name) ::
      pathsUpward name above

/-- Where the env file may be found from a directory, the first place that counts in front. -/
def envFilePaths (directory name : String) : List String :=
  if name.startsWith "/" then [name]
  else pathsUpward name (Text.splitAll '/' directory.toList).reverse

/-- The variables after the env file, its path if it was loaded, and a warning if it is faulty. -/
def loadEnvFile (found : Surroundings) :
    (String → Option String) × Option String × List String :=
  let name := envFileName found.environment
  match found.files name with
  | none => (found.environment, none, [])
  | some (path, text) =>
    let (set, fault) := EnvFile.load found.environment text
    let environment := EnvFile.value found.environment set
    match fault with
    | none => (environment, some path, [])
    | some fault => (environment, none, [s!"Warning: Failed to load {name}: {fault.message}"])

/-- The lines of the log about the settings, down to their level and safe to show. -/
def logLines (settings : Settings) (entries : List (LogLevel × String)) : List String :=
  (entries.filter fun entry => entry.1.rank ≤ settings.logLevel.rank).map fun entry =>
    s!"{entry.1.name} {Text.escapeControls entry.2}"

/-- Goes on with accepted arguments. -/
def configure (found : Surroundings) (overrides : Overrides) : Launch :=
  let (environment, source, warnings) := loadEnvFile found
  match Settings.ofVariables environment with
  | .error fault =>
    { ending := .exit 1, errors := warnings ++ [s!"Configuration error: {fault.message}"] }
  | .ok settings =>
    let settings := { settings.override overrides with source }
    let loaded := source.toList.map fun path =>
      (LogLevel.info, s!"Loaded configuration from: {path}")
    match settings.hostFault? with
    | some fault =>
      { ending := .exit 1
        output := logLines settings
          (loaded ++ [(LogLevel.error, s!"Configuration error: {fault.message}")])
        errors := warnings }
    | none =>
      { ending := .serve settings, output := logLines settings loaded, errors := warnings }

/-- The start of the program. -/
def run (found : Surroundings) : Launch :=
  match CommandLine.parse found.arguments with
  | .ok .help => { ending := .exit 0, errors := CommandLine.usage found.program }
  | .ok .version => { ending := .exit 0, output := [CommandLine.version] }
  | .ok (.run overrides) => configure found overrides
  | .error fault =>
    { ending := .exit 2
      errors := s!"Error: {fault.message}" :: CommandLine.usage found.program }

end Launch

end StakingDirectory
