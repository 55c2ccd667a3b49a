import TagNavigator.Proofs.History.Operation
import TagNavigator.Proofs.Workspace.Fitting
import TagNavigator.Session.Commands

/-!
# Actions of a session

The actions of a user on a session as data.  An action may break off, and the session goes on from
what it leaves.  The file tree may change to any other at any time.  An action keeps what every
operation on a workspace keeps (`Steady.run`): that the windows have distinct identities, and that
their cursors are in the buffers that they show.
-/

namespace TagNavigator.Session

/-- What is done in a session. -/
inductive Action where
  | edit (path : Path)
  | goTo (p : Position)
  | setCursor (c : Cursor)
  | jump (name : Text) (count : Int)
  | splitJump (name : Text) (count : Int)
  | pop (count : Int)
  | newer (count : Int)
  | split
  | setPending (value : Bool)
  | detach
  | close (id : Nat) (fallback : Option Nat)
  | focus (place : Nat)
  | setModified (number : Int) (value : Bool)
  | wipe (number : Int)
  | changeFiles (files : FileTree)

/-- The fault that a command has broken off with. -/
def faultOf : Except Fault Bool → Option Fault
  | .error e => some e
  | .ok _ => none

/-- The fault that a switch has broken off with. -/
def faultOfSwitch : Switch → Option Fault
  | .broken e => some e
  | _ => none

/-- The session after an action, and the fault if the action has broken off. -/
def Action.run (a : Action) (s : Session) : Option Fault × Session :=
  let command (m : Except Fault Bool × Session) : Option Fault × Session := (faultOf m.1, m.2)
  let quiet (change : Workspace → Workspace) : Option Fault × Session :=
    (none, s.inWorkspace change)
  match a with
  | edit path => (faultOfSwitch (s.edit path).1, (s.edit path).2)
  | goTo p =>
    match s.workspace.goTo p with
    | .ok ws => (none, { s with workspace := ws })
    | .error _ => (none, s)
  | setCursor c => quiet (·.setCursor c)
  | jump name count => command (s.jumpToTag name count)
  | splitJump name count => command (s.splitAndJump name count)
  | pop count => command (s.pop count)
  | newer count => command (s.newer count)
  | split => quiet (·.split)
  | setPending value => quiet fun ws => { ws with splitPending := value }
  | detach => quiet (·.detach)
  | close id fallback => quiet (·.close id fallback)
  | focus place => quiet fun ws => { ws with windows := ws.windows.focus place }
  | setModified number value =>
    quiet fun ws => { ws with buffers := ws.buffers.setModified number value }
  | wipe number => quiet fun ws => { ws with buffers := ws.buffers.wipe number }
  | changeFiles files => (none, { s with world := { s.world with files := files } })

/-- The action switches the current window to a file, moves its cursor, or steps through its
history. -/
def Action.Steers : Action → Prop
  | edit _ | goTo _ | setCursor _ | jump _ _ | splitJump _ _ | pop _ | newer _ => True
  | _ => False

variable {s : Session}

/-! ### Notices and log lines -/

@[simp]
theorem workspace_notifyAll (notices : List Text) (s : Session) :
  (s.notifyAll notices).workspace = s.workspace
  := by
  induction notices generalizing s with
  | nil => rfl
  | cons notice notices ih =>
      change ((s.notify notice).notifyAll notices).workspace = _
      rw [ih]
      rfl

@[simp]
theorem world_notifyAll (notices : List Text) (s : Session) :
  (s.notifyAll notices).world = s.world
  := by
  induction notices generalizing s with
  | nil => rfl
  | cons notice notices ih =>
      change ((s.notify notice).notifyAll notices).world = _
      rw [ih]
      rfl

/-! ### What every operation keeps -/

/-- Every operation on a workspace keeps the property `P`, and so do the flags of buffers. -/
structure Steady (P : Workspace → Prop) : Prop where
  editFile : ∀ ws w path, P ws → P (ws.editFile w path).2.2
  goTo : ∀ ws ws' p, P ws → ws.goTo p = .ok ws' → P ws'
  setCursor : ∀ ws c, P ws → P (ws.setCursor c)
  withHistory : ∀ ws id h, P ws →
    P { ws with windows := ws.windows.update id fun w => { w with history := h } }
  share : ∀ ws h, P ws → P (ws.withWindow { ws.window with history := h })
  split : ∀ ws, P ws → P ws.split
  withPending : ∀ ws value, P ws → P { ws with splitPending := value }
  detach : ∀ ws, P ws → P ws.detach
  close : ∀ ws id fallback, P ws → P (ws.close id fallback)
  focus : ∀ ws place, P ws → P { ws with windows := ws.windows.focus place }
  flag : ∀ ws (chosen : Buffer → Prop) [DecidablePred chosen] (value : Bool), P ws →
    P { ws with buffers :=
          ws.buffers.map fun b => if chosen b then { b with modified := value } else b }
  wipe : ∀ ws number, P ws → P { ws with buffers := ws.buffers.wipe number }

/-- The property `P` holds of a workspace at its start, and every operation on a workspace keeps
it. -/
structure Invariant (P : Workspace → Prop) : Prop extends Steady P where
  start : ∀ historySize, P (Workspace.start historySize)

/-- The property `P` of a workspace is kept by all that a visit of a location does: a switch to a
file, and moves of the cursor after it. -/
structure VisitInvariant (P : Workspace → Prop) : Prop where
  editFile : ∀ ws w path, P ws → P (ws.editFile w path).2.2
  setCursor : ∀ ws c, ws.splitPending = false → P ws → P (ws.setCursor c)

/-- The property `P` of a workspace is kept by all that a jump of the window with the identity
`origin` does: a switch to a file, moves of the cursor after it, and changes of histories. -/
structure JumpInvariant (origin : Nat) (P : Workspace → Prop) : Prop where
  editFile : ∀ ws w path, P ws → P (ws.editFile w path).2.2
  setCursor : ∀ ws c, ws.splitPending = false → P ws → P (ws.setCursor c)
  withHistory : ∀ ws h, P ws →
    P { ws with windows := ws.windows.update origin fun w => { w with history := h } }
  share : ∀ ws h, P ws → P (ws.withWindow { ws.window with history := h })

theorem Steady.jumpInvariant {P : Workspace → Prop} (hP : Steady P) (origin : Nat) :
  JumpInvariant origin P
  := by
  constructor
  · exact hP.editFile
  · intro ws c _
    apply hP.setCursor
  · intro ws h
    apply hP.withHistory
  · exact hP.share

theorem JumpInvariant.visitInvariant {P : Workspace → Prop} {origin : Nat}
    (hP : JumpInvariant origin P) :
  VisitInvariant P
  := ⟨hP.editFile, hP.setCursor⟩

theorem editor_keepsGoing {P : Workspace → Prop}
    (hgo : ∀ ws ws' p, P ws → ws.goTo p = .ok ws' → P ws') (id : Nat) :
  (editor id).KeepsGoing fun s => P s.workspace
  := by
  constructor
  · intro p s hs
    simp only [editor]
    split
    next he => exact hgo _ _ _ hs he
    · exact hs
  · intro notice s hs
    exact hs

theorem fst_conclude (origin : Nat) (share : Bool) (m : Moved Session Fault) :
  (conclude origin share m).1 = m.result
  := by
  rw [conclude]
  split
  next he => exact he.symm
  next he => exact he.symm

/-- Without sharing, an operation only replaces the history of its window. -/
theorem conclude_unshared (origin : Nat) (m : Moved Session Fault) :
  conclude origin false m = (m.result, m.state.withHistory origin m.history)
  := by
  rw [conclude]
  split
  next he => rw [he]
  next he => rw [he]; rfl

section

variable {P : Workspace → Prop} (hP : VisitInvariant P)

include hP

theorem VisitInvariant.placeCursor {ws : Workspace} (hws : P ws)
    (hpending : ws.splitPending = false) (o : Options) (l : Location) :
  P (placeCursor o l ws).1
  := by
  rw [Session.placeCursor]
  split
  · dsimp only
    split
    · apply hP.setCursor _ _ hpending hws
    · exact hws
  · dsimp only
    split
    · apply hP.setCursor _ _ hpending hws
    · apply hP.setCursor _ _ hpending hws
    · apply hP.setCursor
      · exact hpending
      · apply hP.setCursor _ _ hpending hws

theorem VisitInvariant.visit (hs : P s.workspace) (l : Location) :
  P (s.visit l).2.workspace
  := by
  have hedit := hP.editFile _ s.world l.path hs
  have hpending := Workspace.splitPending_editFile s.world s.workspace l.path
  rw [Session.visit]
  split
  next he =>
    rw [he] at hedit
    exact hedit
  next he =>
    rw [he] at hedit
    exact hedit
  next ws he =>
    rw [he] at hedit hpending
    have hplace := hP.placeCursor hedit hpending s.options l
    split
    next hp =>
      rw [hp] at hplace
      exact hplace
    next warning hp =>
      rw [hp] at hplace
      cases warning with
      | none => exact hplace
      | some warning => exact hplace

theorem VisitInvariant.resolve (hs : P s.workspace) (name : Text) :
  P (s.resolve name).2.workspace
  := by
  rw [Session.resolve]
  split
  · exact hs
  · dsimp only
    split
    · rw [workspace_notifyAll]
      exact hs
    · apply hP.visit
      rw [workspace_notifyAll]
      exact hs

end

section

variable {P : Workspace → Prop} {origin : Nat} (hP : JumpInvariant origin P)

include hP

/-- The editor of the window keeps what its jumps keep. -/
theorem JumpInvariant.editor_keepsResolving :
  (editor origin).KeepsResolving fun s => P s.workspace
  := by
  constructor
  · intro h name s hs
    apply hP.visitInvariant.resolve
    apply hP.withHistory _ _ hs
  · intro notice s hs
    exact hs

theorem JumpInvariant.shareHistory (hs : P s.workspace) :
  P (s.shareHistory origin).workspace
  := by
  rw [Session.shareHistory]
  split
  · exact hs
  · split
    · exact hs
    · apply hP.share _ _ hs

theorem JumpInvariant.conclude {m : Moved Session Fault} (hm : P m.state.workspace)
    (share : Bool) :
  P (conclude origin share m).2.workspace
  := by
  have hhistory : P (m.state.withHistory origin m.history).workspace := hP.withHistory _ _ hm
  rw [Session.conclude]
  split
  · exact hhistory
  · dsimp only
    split
    · apply hP.shareHistory hhistory
    · exact hhistory

end

section

variable {P : Workspace → Prop} (hP : JumpInvariant s.workspace.window.id P) (hs : P s.workspace)

include hP hs

theorem JumpInvariant.jumpToTag (name : Text) (count : Int) :
  P (s.jumpToTag name count).2.workspace
  := by
  apply hP.conclude
  apply History.keeps_push hP.editor_keepsResolving
  exact hs

theorem JumpInvariant.newer (count : Int) :
  P (s.newer count).2.workspace
  := by
  apply hP.conclude
  apply History.keeps_newer hP.editor_keepsResolving
  exact hs

theorem JumpInvariant.pop (hgo : ∀ ws ws' p, P ws → ws.goTo p = .ok ws' → P ws') (count : Int) :
  P (s.pop count).2.workspace
  := by
  apply hP.conclude
  apply History.keeps_older (editor_keepsGoing hgo _)
  exact hs

end

section

variable {P : Workspace → Prop}

/-- An action keeps what every operation keeps. -/
theorem Steady.run (hP : Steady P) (hs : P s.workspace) (a : Action) :
  P (a.run s).2.workspace
  := by
  cases a with
  | edit path =>
      exact hP.editFile _ s.world path hs
  | goTo p =>
      simp only [Action.run]
      split
      next hgo => exact hP.goTo _ _ _ hs hgo
      · exact hs
  | jump name count => exact (hP.jumpInvariant _).jumpToTag hs name count
  | splitJump name count =>
      apply hP.withPending
      apply (hP.jumpInvariant _).jumpToTag
      apply hP.withPending _ _ hs
  | pop count => exact (hP.jumpInvariant _).pop hs hP.goTo count
  | newer count => exact (hP.jumpInvariant _).newer hs count
  | setCursor c => exact hP.setCursor _ c hs
  | split => exact hP.split _ hs
  | setPending value => exact hP.withPending _ value hs
  | detach => exact hP.detach _ hs
  | close id fallback => exact hP.close _ id fallback hs
  | focus place => exact hP.focus _ place hs
  | setModified number value =>
      exact hP.flag _ (fun b => b.listed && (b.number : Int) = number) value hs
  | wipe number => exact hP.wipe _ number hs
  | changeFiles files => exact hs

end

/-! ### The identities of the windows -/

theorem invariant_distinct :
  Invariant Workspace.Distinct
  := by
  refine ⟨?_, Workspace.distinct_start⟩
  constructor
  · exact fun _ w path h => h.editFile w path
  · exact fun _ _ _ h hgo => h.goTo hgo
  · exact fun _ c h => h.setCursor c
  · intro ws id history h
    apply h.of_ids
    · apply Windows.ids_update
      intro w
      rfl
    · rfl
  · intro ws history h
    apply h.withWindow
    rfl
  · exact fun _ h => h.split
  · exact fun _ value h => h.withPending value
  · exact fun _ h => h.detach
  · exact fun _ id fallback h => h.close id fallback
  · exact fun _ place h => h.focus place
  · intro ws chosen _ value h
    apply h.of_ids <;> rfl
  · intro ws number h
    apply h.of_ids <;> rfl

theorem distinct_withHistory (hs : s.workspace.Distinct) (id : Nat) (h : History) :
  (s.withHistory id h).workspace.Distinct
  := invariant_distinct.withHistory _ id h hs

theorem distinct_pending (hs : s.workspace.Distinct) :
  (s.inWorkspace fun ws => { ws with splitPending := true }).workspace.Distinct
  := hs.withPending true

/-! ### The cursors of the windows -/

theorem invariant_fitting :
  Invariant Workspace.Fitting
  := by
  refine ⟨?_, Workspace.fitting_start⟩
  constructor
  · exact fun _ w path h => h.editFile w path
  · exact fun _ _ _ h hgo => h.goTo hgo
  · exact fun _ c h => h.setCursor c
  · exact fun _ id history h => h.withHistory id history
  · intro ws history h
    apply h.withWindow
    apply h.current.of_same
    · rfl
    · rfl
  · exact fun _ h => h.split
  · exact fun _ value h => h.withPending value
  · exact fun _ h => h.detach
  · exact fun _ id fallback h => h.close id fallback
  · exact fun _ place h => h.focus place
  · intro ws chosen _ value h
    apply h.mapBuffers
    · intro b
      split <;> rfl
    · intro b
      split <;> rfl
  · intro ws number h
    apply h.mapBuffers
    · intro b
      split <;> rfl
    · intro b
      split <;> rfl

end TagNavigator.Session
