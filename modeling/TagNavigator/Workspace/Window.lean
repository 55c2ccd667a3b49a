import TagNavigator.History.Basic
import TagNavigator.Workspace.Buffer

/-!
# Windows

A window shows a buffer, or none, and has a cursor and a history of jumps of its own. The windows
stand in an order, and one of them is current.
-/

namespace TagNavigator

/-- A window. -/
structure Window where
  /-- What tells the window from all others. -/
  id : Nat
  /-- The number of the buffer that is shown. -/
  buffer : Option Nat
  cursor : Cursor
  history : History
  deriving DecidableEq, Repr

/-- The current window, and the windows before and after it. -/
structure Windows where
  above : List Window
  current : Window
  below : List Window
  deriving DecidableEq, Repr

namespace Windows

/-- All windows in their order. -/
def all (ws : Windows) : List Window :=
  ws.above ++ ws.current :: ws.below

/-- The number of windows before the current one. -/
def currentIndex (ws : Windows) : Nat := ws.above.length

/-- The windows with the one at the given place current. -/
def focus (ws : Windows) (i : Nat) : Windows :=
  match ws.all.drop i with
  | [] => ws
  | w :: below => ⟨ws.all.take i, w, below⟩

/-- The windows with every window changed. -/
def map (ws : Windows) (change : Window → Window) : Windows :=
  ⟨ws.above.map change, change ws.current, ws.below.map change⟩

/-- The windows with one of them changed. -/
def update (ws : Windows) (id : Nat) (change : Window → Window) : Windows :=
  ws.map fun w => if w.id = id then change w else w

/-- The window with the identity. -/
def find? (ws : Windows) (id : Nat) : Option Window :=
  ws.all.find? (·.id == id)

/-- The place of the window with the identity. -/
def indexOf? (ws : Windows) (id : Nat) : Option Nat :=
  ws.all.findIdx? (·.id == id)

/-- The windows with a new one before the current one; the new one is current. -/
def openAbove (ws : Windows) (w : Window) : Windows :=
  ⟨ws.above, w, ws.current :: ws.below⟩

/-- The windows without one of them, unless it is the only one. If it was current, the window
`fallback` becomes current, or the first one if there is no such window. -/
def close (ws : Windows) (id : Nat) (fallback : Option Nat) : Windows :=
  if ws.current.id = id then
    let rest := ws.above ++ ws.below
    match rest with
    | [] => ws
    | first :: others =>
      match fallback.bind fun f => rest.findIdx? (·.id == f) with
      | some i => (Windows.mk [] first others).focus i
      | none => ⟨[], first, others⟩
  else ⟨ws.above.filter (·.id != id), ws.current, ws.below.filter (·.id != id)⟩

end Windows

end TagNavigator
