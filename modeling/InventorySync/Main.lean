import InventorySync.Settings.Arguments
import InventorySync.Settings.Usage

/-! # The command line

Reads the flags and the variables of an agent and prints the schemas that it would watch, one a
line. -/

open InventorySync

/-- The variables that are set, of those that flags have. -/
def readEnvironment : IO (List (String × String)) := do
  let mut found := []
  for flag in Flag.all do
    if let some text ← IO.getEnv flag.variableName then
      found := (flag.variableName, text) :: found
  return found

/-- Prints what was asked for, or what is wrong. -/
def main (arguments : List String) : IO UInt32 := do
  let environment ← readEnvironment
  match Settings.read arguments (environment.lookup ·) with
  | .error .help => IO.println Settings.helpText; return 0
  | .error .version => IO.println Settings.versionText; return 0
  | .error e => IO.eprintln ("error: " ++ e.message); return 2
  | .ok settings =>
    match settings.schemas with
    | .error e => IO.eprintln ("Error: " ++ Settings.schemasError e); return 1
    | .ok schemas =>
      for schema in schemas do
        IO.println schema.display
      return 0
