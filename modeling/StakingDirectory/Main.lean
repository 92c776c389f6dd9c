/-
**The program.**

`main` collects the surroundings of the program, asks `Launch.run` how its start ends, and prints
what that says. It opens no connection: where the start ends in serving, requests are answered by
`Request.sections`.
-/

import StakingDirectory.Startup.Launch

namespace StakingDirectory

/-- The first of some files that can be read: its full path and its text. -/
def firstReadable : List String → IO (Option (String × String))
  | [] => return none
  | path :: paths => do
    match ← (IO.FS.readFile path).toBaseIO with
    | .ok text => return some (path, text)
    | .error _ => firstReadable paths

/-- The values of the variables with some names. -/
def variableValues (names : List String) : IO (List (String × String)) :=
  names.filterMapM fun name => do
    return (← IO.getEnv name).map fun value => (name, value)

/-- What the program finds when it is started with some arguments. -/
def surroundings (arguments : List String) : IO Surroundings := do
  let named ← variableValues [Launch.envFileVariable]
  let name := Launch.envFileName fun name => List.lookup name named
  let file ← firstReadable (Launch.envFilePaths (← IO.currentDir).toString name)
  let mentioned := (file.map fun found => EnvFile.mentioned found.2.toList).getD []
  let values ← variableValues (Settings.variableNames ++ mentioned.eraseDups)
  return {
    program := "nsmock-coordinator"
    arguments
    environment := fun name => List.lookup name (named ++ values)
    files := fun wanted => if wanted = name then file else none }

end StakingDirectory

/-- Starts the program. -/
def main (arguments : List String) : IO UInt32 := do
  let launch := StakingDirectory.Launch.run (← StakingDirectory.surroundings arguments)
  launch.errors.forM fun line => IO.eprintln line
  launch.output.forM fun line => IO.println line
  match launch.ending with
  | .exit code => return UInt32.ofNat code
  | .serve _ => return 0
