import TagNavigator.Session.Basic

/-!
# Commands of a session

The commands that jump to tags, step through the history of the current window, and list histories
and names. A window that is opened by a jump gets a copy of the history of the window it comes from.
-/

namespace TagNavigator.Session

/-- The session without a latest notice. -/
def clearStatus (s : Session) : Session := { s with status := [] }

/-- The current window gets the history of the window `origin`. -/
def shareHistory (origin : Nat) (s : Session) : Session :=
  if s.workspace.window.id = origin then s
  else match s.workspace.windows.find? origin with
    | none => s
    | some w => s.inWorkspace fun ws => ws.withWindow { ws.window with history := w.history }

/-- The result and the session after an operation on the history of the window `origin`. With
`share`, a window that the operation has opened gets the history. -/
def conclude (origin : Nat) (share : Bool) (m : Moved Session Fault) :
    Except Fault Bool × Session :=
  let s := m.state.withHistory origin m.history
  match m.result with
  | .error e => (.error e, s)
  | .ok moved => (.ok moved, if share then s.shareHistory origin else s)

/-- Jumps to a tag; without a name, goes again to a newer tag of the history. -/
def jumpToTag (name : Text) (count : Int) (s : Session) : Except Fault Bool × Session :=
  let s := s.clearStatus
  let w := s.workspace.window
  conclude w.id true (History.push (editor w.id) name count w.history s)

/-- Jumps to a tag in a new window. -/
def splitAndJump (name : Text) (count : Int) (s : Session) : Except Fault Bool × Session :=
  let (result, s) := (s.inWorkspace fun ws => { ws with splitPending := true }).jumpToTag name count
  (result, s.inWorkspace fun ws => { ws with splitPending := false })

/-- Goes back to where an earlier jump started. -/
def pop (count : Int) (s : Session) : Except Fault Bool × Session :=
  let s := s.clearStatus
  let w := s.workspace.window
  conclude w.id false (History.older (editor w.id) count w.history s)

/-- Goes again to a newer tag of the history. -/
def newer (count : Int) (s : Session) : Except Fault Bool × Session :=
  let s := s.clearStatus
  let w := s.workspace.window
  conclude w.id true (History.newer (editor w.id) count w.history s)

/-- The listing of the history of the current window. -/
def listTags (s : Session) : List Text :=
  s.workspace.window.history.listing (s.workspace.buffers.displayName s.world.cwd)

/-- The names of the tags that match a pattern. -/
def expand (pattern : Text) (s : Session) : Except Completion.Failure Completion :=
  Completion.ofPattern s.world s.options pattern s.workspace.currentFile

/-- Switches the current window to a file. -/
def edit (path : Path) (s : Session) : Switch × Session :=
  let (outcome, log, ws) := s.workspace.editFile s.world path
  (outcome, logging log { s with workspace := ws })

end TagNavigator.Session
