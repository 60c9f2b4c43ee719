/-
**The program.**

Reads the files and variables that a run may ask for, runs it, and prints what it leaves behind.
-/

import EmbeddedSql.CommandLine.Run

set_option relaxedAutoImplicit false
set_option autoImplicit false

open EmbeddedSql

/-- The variables that a run may ask for. -/
def environmentNames : List String :=
  [Settings.pathVariable, CommandLine.debugVariable, CommandLine.noDatabaseVariable]

/-- The paths in the arguments of a run. -/
def pathsIn (arguments : List String) : List String :=
  arguments.flatMap fun argument =>
    match Usage.shape argument with
    | .long _ (some value) => [value]
    | _ => [argument]

/-- How deep data may be nested on a call stack of a thousand calls, or about so. -/
def usualDepths : Depths := { yaml := 485, json := 980, display := 980 }

/-- The surroundings of a run with the given arguments. -/
def surroundings (arguments : List String) : IO Surroundings := do
  let directory ← IO.currentDir
  let home := (← IO.getEnv "HOME").getD "/"
  let known ← environmentNames.mapM fun name => do return (name, ← IO.getEnv name)
  let bare : Files :=
    { entry? := fun _ => none
      workingDirectory := directory.toString
      homeDirectory := home
      env? := fun name => (known.lookup name).join }
  let named := pathsIn arguments ++ known.filterMap Prod.snd
  let paths := named ++ named.map Path.normal ++ Settings.candidates bare
  let look := fun (path : String) => do
    let file := directory / path
    if path.isEmpty then return none
    else if ← file.isDir then return some FileEntry.directory
    else if ← file.pathExists then
      match String.fromUTF8? (← IO.FS.readBinFile file) with
      | some content => return some (FileEntry.text content.toList)
      | none => return some FileEntry.binary
    else return none
  let entries ← paths.mapM fun path => do return (path, ← look path)
  return {
    files := { bare with entry? := fun path => (entries.lookup path).join }
    opening := .error "no database engine"
    printer := fun _ sql => .ok sql
    depths := usualDepths }

/-- Runs the program. -/
def main (arguments : List String) : IO UInt32 := do
  let outcome := CommandLine.run (← surroundings arguments) arguments
  IO.print outcome.stdout
  IO.eprint outcome.stderr
  return outcome.exitCode.toUInt32
