import TagNavigator.Proofs.Session.Action
import TagNavigator.Proofs.Workspace.Soundness

/-!
# Attainable sessions

Actions do not reach everything: whoever holds a buffer may set its flag of unsaved changes, also
after it was wiped.  A session is attainable if it comes about by actions and by such flags.  What
every operation on a workspace keeps holds in every attainable session (`Invariant.of_attainable`);
in particular its workspace is sound (`sound_of_attainable`).
-/

namespace TagNavigator.Session

/-- An action, or the setting of the flag of any buffer, listed or not. -/
inductive Event where
  | act (a : Action)
  | flag (number : Nat) (value : Bool)

/-- The session after an event. -/
def Event.run (e : Event) (s : Session) : Session :=
  match e with
  | act a => (a.run s).2
  | flag number value => s.inWorkspace fun ws =>
    { ws with buffers := ws.buffers.update number fun b => { b with modified := value } }

/-- The session after several events. -/
def runAll (events : List Event) (s : Session) : Session :=
  events.foldl (fun s e => e.run s) s

/-- The sessions that events lead to. -/
inductive Attainable : Session → Prop
  | start (world : World) (options : Options) : Attainable (start world options)
  | step {s : Session} (h : Attainable s) (e : Event) : Attainable (e.run s)

variable {s : Session}

theorem Attainable.runAll (h : Attainable s) (events : List Event) :
  Attainable (s.runAll events)
  := by
  induction events generalizing s with
  | nil => exact h
  | cons e events ih => exact ih (h.step e)

section

variable {P : Workspace → Prop}

theorem Steady.event (hP : Steady P) (hs : P s.workspace) (e : Event) :
  P (e.run s).workspace
  := by
  cases e with
  | act a => exact hP.run hs a
  | flag number value => exact hP.flag _ (fun b => b.number = number) value hs

/-- What every operation keeps, a run keeps. -/
theorem Steady.runAll (hP : Steady P) (hs : P s.workspace) (events : List Event) :
  P (s.runAll events).workspace
  := by
  induction events generalizing s with
  | nil => exact hs
  | cons e events ih => exact ih (hP.event hs e)

/-- What every operation keeps holds in every attainable session. -/
theorem Invariant.of_attainable (hP : Invariant P) (h : Attainable s) :
  P s.workspace
  := by
  induction h with
  | start world options => apply hP.start
  | step _ e ih => exact hP.event ih e

end

/-- In an attainable session the windows have distinct identities. -/
theorem Attainable.distinct (h : Attainable s) :
  s.workspace.Distinct
  := invariant_distinct.of_attainable h

/-- In an attainable session every window has its cursor in the buffer that it shows. -/
theorem Attainable.fitting (h : Attainable s) :
  s.workspace.Fitting
  := invariant_fitting.of_attainable h

/-! ### Sound workspaces -/

theorem invariant_stocked :
  Invariant Workspace.Stocked
  := by
  refine ⟨?_, Workspace.stocked_start⟩
  constructor
  · exact fun _ w path h => h.editFile w path
  · exact fun _ _ _ h hgo => h.goTo hgo
  · exact fun ws c h => ⟨invariant_fitting.setCursor ws c h.toFitting, h.sound⟩
  · exact fun ws id history h => ⟨invariant_fitting.withHistory ws id history h.toFitting, h.sound⟩
  · exact fun ws history h => ⟨invariant_fitting.share ws history h.toFitting, h.sound⟩
  · exact fun ws h => ⟨invariant_fitting.split ws h.toFitting, h.sound⟩
  · exact fun ws value h => ⟨invariant_fitting.withPending ws value h.toFitting, h.sound⟩
  · exact fun ws h => ⟨invariant_fitting.detach ws h.toFitting, h.sound_saveCursor⟩
  · exact fun ws id fallback h =>
      ⟨invariant_fitting.close ws id fallback h.toFitting, h.sound⟩
  · exact fun ws place h => ⟨invariant_fitting.focus ws place h.toFitting, h.sound⟩
  · intro ws chosen _ value h
    constructor
    · exact invariant_fitting.flag ws chosen value h.toFitting
    · exact h.sound.flag chosen value
  · intro ws number h
    constructor
    · exact invariant_fitting.wipe ws number h.toFitting
    · exact h.sound.wipe number

theorem Attainable.stocked (h : Attainable s) :
  s.workspace.Stocked
  := invariant_stocked.of_attainable h

/-- The workspace of every attainable session is sound, whatever files it has met: its current
window is among its windows, which are separate and have their cursors inside the lines that they
show; no two listed buffers hold the same file; and every buffer has a number of its own, at least
one line, and a remembered cursor inside its lines. -/
theorem sound_of_attainable (h : Attainable s) :
  s.workspace.Sound
  := by
  apply h.distinct.sound
  exact h.stocked

/-- A world with an index and the two files of its tags. -/
def twoFiles : World :=
  ⟨⟨[(["tags".toList], .file (Utf8.encode "f\ta\t2\ng\tb\t/^two/\n".toList)),
    (["a".toList], .file (Utf8.encode "x\n  y\n".toList)),
    (["b".toList], .file (Utf8.encode "one\ntwo\n".toList))]⟩, [], [], ⟨.slash, []⟩, {}⟩

/-- A window is split off by a jump, its cursor is sent beyond the file, and its buffer is wiped. -/
theorem sound_of_attainable_wiped :
  let s := (start twoFiles {}).runAll [.act (.splitJump ['g'] 1), .act (.setCursor ⟨100, -7⟩),
    .act (.wipe 1), .flag 1 true]
  s.workspace.windows.all.map (fun w => (w.buffer, w.cursor)) = [(some 1, ⟨2, 0⟩), (none, ⟨1, 0⟩)]
    ∧ s.workspace.buffers.listed = []
    ∧ s.workspace.Sound
  := by
  intro s
  have hattainable : Attainable s := (Attainable.start _ _).runAll _
  refine ⟨?_, ?_, sound_of_attainable hattainable⟩
  · decide +kernel
  · decide +kernel

end TagNavigator.Session
