import TagNavigator.Log
import TagNavigator.Text.Lines
import TagNavigator.Workspace.Window

/-!
# Workspaces

A workspace owns the buffers and the windows. Its current window switches to files and goes back to
saved positions. It does not leave a buffer with unsaved changes, and a refused switch changes
nothing. A split that was asked for beforehand is made by the next switch to a file.
-/

namespace TagNavigator

/-- Buffers and windows. -/
structure Workspace where
  buffers : Buffers
  windows : Windows
  /-- The identity of the next window. -/
  nextWindow : Nat
  /-- Whether the next switch to a file opens a window. -/
  splitPending : Bool
  deriving DecidableEq, Repr

/-- Why the current window does not switch to another buffer or position. -/
inductive SwitchRefusal where
  /-- The current buffer has unsaved changes. -/
  | modified
  /-- The file cannot be read. -/
  | unreadable (path : Path)
  /-- No such buffer is listed. -/
  | noBuffer (number : Int)
  deriving DecidableEq, Repr

/-- The notice for a refusal. -/
def SwitchRefusal.message : SwitchRefusal → Text
  | modified => "No write since last change (use ! to override)".toList
  | unreadable path => "Cannot read \"".toList ++ path.toText ++ ['"']
  | noBuffer number => "buffer ".toList ++ Text.ofInt number ++ " not found".toList

/-- What comes of a switch. -/
inductive Switch where
  | made
  | refused (why : SwitchRefusal)
  | broken (e : Fault)
  deriving DecidableEq, Repr

namespace Workspace

/-- One window that shows nothing. -/
def start (historySize : Int) : Workspace :=
  let first : Window := ⟨0, none, Cursor.start, History.start historySize⟩
  ⟨Buffers.empty, ⟨[], first, []⟩, 1, false⟩

/-- The current window. -/
def window (ws : Workspace) : Window := ws.windows.current

/-- The workspace with the current window changed. -/
def withWindow (ws : Workspace) (w : Window) : Workspace :=
  { ws with windows := { ws.windows with current := w } }

/-- The buffer that a window shows. -/
def bufferOf (ws : Workspace) (w : Window) : Option Buffer :=
  w.buffer.bind ws.buffers.get?

/-- The lines that a window shows: one empty line if it shows no buffer. -/
def linesOf (ws : Workspace) (w : Window) : List Text :=
  match ws.bufferOf w with
  | some b => b.lines
  | none => [[]]

/-- The lines that the current window shows. -/
def lines (ws : Workspace) : List Text := ws.linesOf ws.window

/-- The file that the current window shows. -/
def currentFile (ws : Workspace) : Option Path :=
  (ws.bufferOf ws.window).map (·.path)

/-- The text of the line with the cursor. -/
def currentLine (ws : Workspace) : Text :=
  Cursor.lineText ws.lines ws.window.cursor.line

/-- The position of a window. -/
def positionOf (w : Window) : Position :=
  ⟨w.buffer.map fun n => (n : Int), w.cursor.line, w.cursor.column⟩

/-- The workspace with the cursor of the current window moved into its lines. -/
def setCursor (ws : Workspace) (c : Cursor) : Workspace :=
  ws.withWindow { ws.window with cursor := c.clamp ws.lines }

/-- The workspace in which the buffer of the current window remembers the window's cursor. -/
def saveCursor (ws : Workspace) : Workspace :=
  match ws.window.buffer with
  | none => ws
  | some n =>
    { ws with buffers := ws.buffers.update n fun b => { b with cursor := ws.window.cursor } }

/-- The current window shows the buffer, with the cursor where it was last left. -/
def showBuffer (ws : Workspace) (number : Nat) : Workspace :=
  if ws.window.buffer = some number then ws
  else
    let ws := ws.saveCursor
    let cursor :=
      match ws.buffers.get? number with
      | some b => b.cursor.clamp b.lines
      | none => Cursor.start
    ws.withWindow { ws.window with buffer := some number, cursor := cursor }

/-- The current window shows nothing. -/
def detach (ws : Workspace) : Workspace :=
  let ws := ws.saveCursor
  ws.withWindow { ws.window with buffer := none, cursor := Cursor.start }

/-- A new window above the current one shows the same and becomes current. -/
def split (ws : Workspace) : Workspace :=
  { ws with
    windows := ws.windows.openAbove { ws.window with id := ws.nextWindow }
    nextWindow := ws.nextWindow + 1 }

/-- The workspace without a window. -/
def close (ws : Workspace) (id : Nat) (fallback : Option Nat) : Workspace :=
  { ws with windows := ws.windows.close id fallback }

/-- Whether the current window may leave its buffer for the buffer `target`. -/
def mayShow (ws : Workspace) (target : Option Nat) : Bool :=
  match ws.bufferOf ws.window with
  | some b => !b.modified || target == some b.number
  | none => true

/-- The log line for a file that cannot be read. -/
def unreadableLine (path : Path) (e : FileError) : LogLine :=
  ⟨.windows, false, "cannot load ".toList ++ path.toText ++ ": ".toList ++ e.message path⟩

/-- The number of the buffer for a file, which is read if it has none; `resolved` is the path of the
file without double dots. -/
def load (w : World) (ws : Workspace) (path resolved : Path) :
    Except FileError (Nat × Workspace) :=
  match ws.buffers.find? resolved with
  | some b => .ok (b.number, ws)
  | none =>
    match w.readText path with
    | .error e => .error e
    | .ok t =>
      let (number, buffers) := ws.buffers.add resolved (Text.bufferLines t)
      .ok (number, { ws with buffers := buffers })

/-- The current window switches to a file; `resolved` is its path without double dots. -/
def switchTo (w : World) (ws : Workspace) (path resolved : Path) :
    Switch × List LogLine × Workspace :=
  let target := (ws.buffers.find? resolved).map (·.number)
  if !ws.mayShow target then (.refused .modified, [], ws)
  else match ws.load w path resolved with
    | .error e => (.refused (.unreadable path), [unreadableLine path e], ws)
    | .ok (number, ws) => (.made, [], ws.showBuffer number)

/-- The current window switches to a file, in a new window if a split is pending. A refused switch
closes that window again. -/
def editFile (w : World) (ws : Workspace) (path : Path) : Switch × List LogLine × Workspace :=
  let parent := ws.window.id
  let isSplit := ws.splitPending
  let ws := { ws with splitPending := false }
  let ws := if isSplit then ws.split else ws
  match w.resolve path with
  | .error e => (.broken e, [], ws)
  | .ok resolved =>
    match ws.switchTo w path resolved with
    | (.refused why, log, ws) =>
      (.refused why, log, if isSplit then ws.close ws.window.id (some parent) else ws)
    | outcome => outcome

/-- The current window shows the buffer of a position, or none, if it may. -/
def switchBuffer (ws : Workspace) : (buffer : Option Int) → Except SwitchRefusal Workspace
  | none =>
    if ws.window.buffer.isNone then .ok ws
    else if ws.mayShow none then .ok ws.detach
    else .error .modified
  | some number =>
    if ws.window.buffer.map (fun n => (n : Int)) = some number then .ok ws
    else match ws.buffers.listed? number with
      | none => .error (.noBuffer number)
      | some b =>
        if ws.mayShow (some b.number) then .ok (ws.showBuffer b.number) else .error .modified

/-- The current window goes to a saved position. -/
def goTo (ws : Workspace) (p : Position) : Except SwitchRefusal Workspace :=
  (·.setCursor ⟨p.line, p.column⟩) <$> ws.switchBuffer p.buffer

end Workspace

end TagNavigator
