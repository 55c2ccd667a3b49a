import TagNavigator.Pattern.Source
import TagNavigator.Search.LineAddress
import TagNavigator.Search.Lines
import TagNavigator.Tag.Completion
import TagNavigator.Tag.Lookup
import TagNavigator.Workspace.Basic

/-!
# Sessions

A session is a workspace with options, in a world. `visit` shows the file of a location and puts the
cursor on the tag. If the pattern of the record is out of date, the place is guessed from the name
of the tag. `resolve` looks a tag up and visits it.
-/

namespace TagNavigator

/-- What is said about a jump that did not find its tag for certain. -/
inductive JumpWarning where
  /-- The pattern was not found, and the place is guessed. -/
  | guessed
  /-- Neither the pattern nor a guess was found. -/
  | patternNotFound
  /-- The line command is none. -/
  | notACommand (command : Text)
  deriving DecidableEq, Repr

/-- The notice for a warning. -/
def JumpWarning.message : JumpWarning → Text
  | guessed => "Couldn't find tag, just guessing!".toList
  | patternNotFound => "Can't find tag pattern".toList
  | notACommand command => "Not an editor command: ".toList ++ command

/-- A jump that was made. -/
structure TagJump where
  location : Location
  /-- The identity of the window that shows the tag. -/
  window : Nat
  cursor : Cursor
  warning : Option JumpWarning
  deriving DecidableEq, Repr

/-- A session. -/
structure Session where
  world : World
  options : Options
  workspace : Workspace
  /-- The latest notice. -/
  status : Text
  /-- All notices, in order. -/
  notices : List Text
  lastJump : Option TagJump
  log : List LogLine

namespace Session

/-- A session at its start. -/
def start (world : World) (options : Options) : Session :=
  ⟨world, options, Workspace.start options.historySize, [], [], none, []⟩

/-- The session after a notice. -/
def notify (notice : Text) (s : Session) : Session :=
  { s with status := notice, notices := s.notices ++ [notice] }

/-- The session after several notices. -/
def notifyAll (notices : List Text) (s : Session) : Session :=
  notices.foldl (fun s n => s.notify n) s

/-- The session with more log lines. -/
def logging (lines : List LogLine) (s : Session) : Session :=
  { s with log := s.log ++ lines }

/-- The session with a workspace changed. -/
def inWorkspace (s : Session) (change : Workspace → Workspace) : Session :=
  { s with workspace := change s.workspace }

/-- The log line for a pattern that is refused. -/
def invalidLine (e : Pattern.Invalid) : LogLine := ⟨.lookup, false, e.message⟩

/-- The log line for a place that is guessed. -/
def guessedLine (tagName pattern : Text) : LogLine :=
  ⟨.lookup, false,
    "tag pattern for ".toList ++ tagName ++ " not found, guessed with ".toList ++ pattern⟩

/-- The place where a pattern matches in some lines, and what is logged. An invalid pattern matches
nowhere. -/
def seek (o : Options) (lines : List Text) (pattern : Text) (direction : Search.Direction) :
    Option Search.Found × List LogLine :=
  match Pattern.compile pattern o.magic o.ignoreCase with
  | .error e => (none, [invalidLine e])
  | .ok m => (Search.whole m lines direction, [])

/-- The place of a tag that is guessed from its name, and what is logged: the first of the patterns
that matches decides. -/
def guess (o : Options) (lines : List Text) (tagName : Text) :
    (patterns : List Text) → Option Search.Found × List LogLine
  | [] => (none, [])
  | p :: rest =>
    match seek o lines p .forward with
    | (some found, log) => (some found, log ++ [guessedLine tagName p])
    | (none, log) =>
      let (found, more) := guess o lines tagName rest
      (found, log ++ more)

/-- The place of a tag in some lines, if there is one, with a warning unless its pattern was found,
and what is logged. -/
def placeOf (o : Options) (lines : List Text) (tagName : Text) (delimiter : Char) (pattern : Text) :
    Option Search.Found × Option JumpWarning × List LogLine :=
  let direction := if delimiter = '/' then Search.Direction.forward else .backward
  match seek o lines pattern direction with
  | (some found, log) => (some found, none, log)
  | (none, log) =>
    let (first, second) := TagCommand.fallbacks o.magic tagName
    match guess o lines tagName [first, second] with
    | (some found, more) => (some found, some .guessed, log ++ more)
    | (none, more) => (none, some .patternNotFound, log ++ more)

/-- The cursor goes to the tag of a location in the file that is shown. The last part is the warning
of the jump, or the fault that breaks it off. -/
def placeCursor (o : Options) (l : Location) (ws : Workspace) :
    Workspace × List LogLine × Except Fault (Option JumpWarning) :=
  match l.command.pattern? with
  | some (delimiter, pattern) =>
    let (found, warning, log) := placeOf o ws.lines l.tagName delimiter pattern
    let ws :=
      match found with
      | some f => ws.setCursor ⟨f.line, f.column⟩
      | none => ws
    (ws, log, .ok warning)
  | none =>
    let ws := ws.setCursor Cursor.start
    match LineAddress.resolve l.command.text 1 ws.lines.length with
    | .error e => (ws, [], .error (.longNumeral e))
    | .ok none => (ws, [], .ok (some (.notACommand (Text.trim l.command.text))))
    | .ok (some line) =>
      (ws.setCursor ⟨line, firstNonblank (Cursor.lineText ws.lines line)⟩, [], .ok none)

/-- Shows the file of a location and puts the cursor on the tag. -/
def visit (l : Location) (s : Session) : Resolution Fault × Session :=
  match s.workspace.editFile s.world l.path with
  | (.broken e, log, ws) => (.broken e, logging log { s with workspace := ws })
  | (.refused why, log, ws) =>
    (.refused (TagError.jumpFailed l.path why.message).message,
      logging log { s with workspace := ws })
  | (.made, log, ws) =>
    match placeCursor s.options l ws with
    | (ws, more, .error e) => (.broken e, logging (log ++ more) { s with workspace := ws })
    | (ws, more, .ok warning) =>
      let jump : TagJump := ⟨l, ws.window.id, ws.window.cursor, warning⟩
      let s := logging (log ++ more) { s with workspace := ws }
      let s :=
        match warning with
        | some w => s.notify w.message
        | none => s
      (.made, { s with lastJump := some jump })

/-- Looks a tag up and visits it. -/
def resolve (name : Text) (s : Session) : Resolution Fault × Session :=
  match Lookup.find s.world s.options name s.workspace.currentFile with
  | .error e => (.broken e, s)
  | .ok lookup =>
    let s := (s.logging lookup.log).notifyAll lookup.notices
    match lookup.result with
    | .error e => (.refused e.message, s)
    | .ok l => s.visit l

/-- The session with the history of a window replaced. -/
def withHistory (id : Nat) (h : History) (s : Session) : Session :=
  s.inWorkspace fun ws =>
    { ws with windows := ws.windows.update id fun w => { w with history := h } }

/-- The session as the editor of the window with the identity `id`: a tag is resolved while the
window has the history as it stands. -/
def editor (id : Nat) : Editor Session Fault where
  position s := Workspace.positionOf s.workspace.window
  resolve h name s := resolve name (s.withHistory id h)
  goTo p s :=
    match s.workspace.goTo p with
    | .ok ws => (none, { s with workspace := ws })
    | .error why => (some why.message, s)
  notify := notify

end Session

end TagNavigator
