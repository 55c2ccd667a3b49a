import TagNavigator.CommandLine.Request
import TagNavigator.Config
import TagNavigator.EditorCommand
import TagNavigator.Preview
import TagNavigator.Session.Commands

/-!
# Runs of the command line

A run looks a tag up and prints its place and the lines around it, or lists the names that match a
pattern. It is a function of the world and the arguments; its report says what is printed, how the
run ends, and which editor is to be started. A run that breaks off may have printed something, too.
-/

namespace TagNavigator.CommandLine

/-- How a run ends. -/
inductive Exit where
  | success
  | help
  /-- The run ends with a notice. -/
  | notice (t : Text)
  /-- The arguments are refused. -/
  | usage
  deriving DecidableEq, Repr

/-- What a run does. -/
structure Report where
  /-- What is printed on standard output. -/
  output : Text
  /-- What is printed on standard error. -/
  diagnostics : Text
  exit : Exit
  /-- The arguments of the editor to start. -/
  editor : Option (List Text)
  deriving DecidableEq, Repr

/-- A run that breaks off. -/
structure Breakdown where
  /-- What has been printed on standard output. -/
  output : Text
  fault : Fault
  deriving DecidableEq, Repr

/-- A line that is said in the program's name. -/
def inOwnName (t : Text) : Text := "lazytags: ".toList ++ t ++ ['\n']

/-- The report of refused arguments. -/
def Report.ofUsageError (e : UsageError) : Report :=
  ⟨[], inOwnName ("error: ".toList ++ e.message), .usage, none⟩

namespace Request

/-- The log lines that are shown: warnings, and on demand all of them. -/
def shownLog (r : Request) (log : List LogLine) : Text :=
  (log.filter fun l => l.isWarning || r.verbose).flatMap LogLine.toText

/-- The report of a run that ends with a notice and prints nothing else but its log. -/
def ended (r : Request) (s : Session) (notice : Text) : Report :=
  ⟨[], r.shownLog s.log, .notice notice, none⟩

/-- The notice that a list of names was cut short. -/
def stoppedAfter (names : List Text) : Text :=
  inOwnName ("stopped after ".toList ++ Text.ofNat names.length ++ " matches".toList)

/-- The report of listing the names that match a pattern. -/
def listNames (r : Request) (s : Session) (pattern : Text) : Except Breakdown Report :=
  match s.expand pattern with
  | .error (.invalid e) => .ok (r.ended s e.message)
  | .error (.fault e) => .error ⟨[], e⟩
  | .ok c =>
    let stopped := if c.truncated then stoppedAfter c.names else []
    .ok ⟨c.names.flatMap (· ++ ['\n']), r.shownLog (s.log ++ c.log) ++ stopped, .success, none⟩

/-- The place of the cursor of the current window. -/
def place (path : Path) (c : Cursor) : Text :=
  path.toText ++ ':' :: Text.ofInt c.line ++ ':' :: Text.ofInt (c.column + 1) ++ ['\n']

/-- What is printed of the current window, which shows the file `path`. -/
def shown (r : Request) (ws : Workspace) (path : Path) : Text :=
  let c := ws.window.cursor
  place path c ++ if r.noPreview then [] else Preview.render ws.lines c.line r.context false

/-- The report of a run that has jumped to a tag. -/
def arrived (r : Request) (s : Session) : Except Breakdown Report :=
  match s.workspace.currentFile with
  | none => .ok (r.ended s s.status)
  | some path =>
    let said := if s.status.isEmpty then [] else inOwnName s.status
    let report : Report :=
      ⟨r.shown s.workspace path, r.shownLog s.log ++ said, .success, none⟩
    if r.edit then
      let editor := s.world.valueOf? "EDITOR".toList
      match EditorCommand.arguments editor path s.workspace.window.cursor.line with
      | .error e => .error ⟨report.output, e⟩
      | .ok (.error why) => .ok { report with exit := .notice why.message }
      | .ok (.ok command) => .ok { report with editor := some command }
    else .ok report

/-- The report of jumping to a tag. -/
def jump (r : Request) (s : Session) (name : Text) : Except Breakdown Report :=
  match s.jumpToTag name 1 with
  | (.error e, _) => .error ⟨[], e⟩
  | (.ok false, s) => .ok (r.ended s s.status)
  | (.ok true, s) => r.arrived s

/-- The report of a request in a session that shows the file that is edited. -/
def answer (r : Request) (s : Session) : Except Breakdown Report :=
  match r.expand, r.name with
  | some pattern, _ => r.listNames s pattern
  | none, none | none, some [] => .ok (Report.ofUsageError .nameRequired)
  | none, some name => r.jump s name

/-- The report of a request. -/
def perform (r : Request) (w : World) : Except Breakdown Report :=
  let s := Session.start w (r.overlay (Config.loadOptions w))
  match r.fromFile with
  | none => r.answer s
  | some file =>
    match s.edit (Path.ofText file) with
    | (.made, s) => r.answer s
    | (.refused why, s) => .ok (r.ended s why.message)
    | (.broken e, _) => .error ⟨[], e⟩

end Request

/-- What a run with the given arguments does, or has done until it breaks off. -/
def perform (w : World) (arguments : List Text) : Except Breakdown Report :=
  match Invocation.ofTexts arguments with
  | .error e => .ok (Report.ofUsageError e)
  | .ok .help => .ok ⟨[], [], .help, none⟩
  | .ok (.request r) => r.perform w

/-- The report of a run with the given arguments. -/
def run (w : World) (arguments : List Text) : Except Fault Report :=
  (perform w arguments).mapError (·.fault)

end TagNavigator.CommandLine
