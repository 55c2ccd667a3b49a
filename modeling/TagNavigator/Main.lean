import TagNavigator.CommandLine.Help
import TagNavigator.CommandLine.Needs
import TagNavigator.CommandLine.Run

/-!
# The program

Supplies the world of a run with the files and variables that the run needs, and prints its report.
The editor is not started: its command is printed on standard error.
-/

namespace TagNavigator.CommandLine

/-- A text for printing. -/
def printed (t : Text) : String := String.ofList t

/-- The value of a variable of the environment. -/
def readVariable (name : Text) : IO (Option Text) := do
  let value ← IO.getEnv (printed name)
  pure (value.map String.toList)

/-- What a path names; nothing if it cannot be read. -/
def readEntry (p : Path) : IO (Option Entry) := do
  try
    let content ← IO.FS.readBinFile (printed p.toText)
    pure (some (.file content.toList))
  catch
    | .inappropriateType _ _ _ => pure (some .directory)
    | _ => pure none

/-- The world with what a request needs. -/
def supply (r : Request) (w : World) : IO World := do
  let mut w := w
  for name in r.variableNames w do
    if (w.valueOf? name).isNone then
      if let some value ← readVariable name then
        w := withVariable w name value
  for p in r.files w do
    if !(w.entry p).isOk then
      if let some e ← readEntry p then
        w := withEntry w p e
  pure w

/-- The users in the user database. Which of them runs the program is not known. -/
def readUsers : IO Users := do
  match ← readEntry (Path.ofText "/etc/passwd".toList) with
  | some (.file content) => pure { homes := homesIn (World.textOf content) }
  | _ => pure {}

/-- The world of a run before anything is looked at. -/
def emptyWorld : IO World := do
  let cwd ← IO.currentDir
  let names := (Path.ofText cwd.toString.toList).names
  let place := configPath (← readVariable "XDG_CONFIG_HOME".toList) (← readVariable "HOME".toList)
  pure ⟨FileTree.empty.put names .directory, names, [], place, ← readUsers⟩

/-- Prints a report and gives the exit code. -/
def printReport (r : Report) : IO UInt32 := do
  IO.eprint (printed r.diagnostics)
  IO.print (printed r.output)
  if let some command := r.editor then
    IO.eprint (printed (inOwnName (Text.join [' '] command)))
  match r.exit with
  | .success => pure 0
  | .help =>
    IO.print (printed helpText)
    pure 0
  | .notice t =>
    IO.eprintln (printed t)
    pure 1
  | .usage => pure 2

/-- What is said of a fault. -/
def faultText : Fault → Text
  | .embeddedNul => "embedded null byte".toList
  | .halfCharacter _ => "the name of a file holds half of a surrogate pair".toList
  | .file e p => e.message p
  | .longNumeral e => "a number of ".toList ++ Text.ofNat e.digits ++ " digits is not read".toList
  | .badQuoting e => e.message

/-- Runs the program with the given arguments. -/
def execute (arguments : List Text) : IO UInt32 := do
  let mut w ← emptyWorld
  if let .ok (.request r) := Invocation.ofTexts arguments then
    for _ in List.range rounds do
      w ← supply r w
  match perform w arguments with
  | .ok report => printReport report
  | .error b =>
    IO.print (printed b.output)
    IO.eprint (printed (inOwnName (faultText b.fault)))
    pure 1

end TagNavigator.CommandLine

/-- The command line of the program. -/
def main (arguments : List String) : IO UInt32 :=
  TagNavigator.CommandLine.execute (arguments.map String.toList)
