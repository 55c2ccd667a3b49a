import TagNavigator.History.Basic

/-!
# Histories over a scripted editor

A scripted editor knows its tags from a table and can be told to refuse positions. Several histories
can be kept side by side; the one in front is in use.
-/

namespace TagNavigator.Scripted

/-- The state of a scripted editor. -/
structure State where
  /-- Where the tags are. -/
  known : List (Text × Position)
  /-- The display names of the buffers. -/
  fileNames : List (Int × Text)
  position : Position
  /-- Why the editor refuses to go to a position, if it does. -/
  refusal : Option Text
  /-- The notices of the current step. -/
  notices : List Text
  deriving Repr

/-- The notice for a tag that is not in the table. -/
def unknownTag : Text := "tag not found".toList

/-- The scripted editor. -/
def editor : Editor State Empty where
  position s := s.position
  resolve _ name s :=
    match s.known.lookup name with
    | some p => (.made, { s with position := p })
    | none => (.refused unknownTag, s)
  goTo p s :=
    match s.refusal with
    | some notice => (some notice, s)
    | none => (none, { s with position := p })
  notify notice s := { s with notices := s.notices ++ [notice] }

/-- What a script does. -/
inductive Step where
  | push (name : Text) (count : Int)
  | older (count : Int)
  | newer (count : Int)
  | list
  /-- Puts the editor at a position. -/
  | place (p : Position)
  | forget (name : Text)
  | learn (name : Text) (p : Position)
  | refuse (notice : Option Text)
  /-- Puts a copy of the history in front. -/
  | copy
  /-- Moves the history in front to the end. -/
  | rotate
  deriving Repr

/-- What a step gives. -/
inductive Result where
  | moved (b : Bool)
  | listed (lines : List Text)
  | done
  deriving Repr

/-- The editor, the history in use and the others. -/
structure Run where
  state : State
  current : History
  others : List History
  deriving Repr

/-- The run after an operation on the history in use. -/
def Run.after (r : Run) (m : Moved State Empty) : Result × Run :=
  let moved :=
    match m.result with
    | .ok b => b
    | .error e => nomatch e
  (.moved moved, { r with state := m.state, current := m.history })

/-- The run after one step. -/
def Run.step (r : Run) (step : Step) : Result × Run :=
  let r := { r with state := { r.state with notices := [] } }
  match step with
  | .push name count => r.after (History.push editor name count r.current r.state)
  | .older count => r.after (History.older editor count r.current r.state)
  | .newer count => r.after (History.newer editor count r.current r.state)
  | .list =>
    (.listed (r.current.listing fun b => b.bind fun n => r.state.fileNames.lookup n), r)
  | .place p => (.done, { r with state := { r.state with position := p } })
  | .forget name =>
    (.done, { r with state := { r.state with known := r.state.known.filter (·.1 != name) } })
  | .learn name p =>
    (.done, { r with state := { r.state with known := (name, p) :: r.state.known } })
  | .refuse notice => (.done, { r with state := { r.state with refusal := notice } })
  | .copy => (.done, { r with current := r.current.copy, others := r.current :: r.others })
  | .rotate =>
    match r.others with
    | [] => (.done, r)
    | h :: rest => (.done, { r with current := h, others := rest ++ [r.current] })

end TagNavigator.Scripted
