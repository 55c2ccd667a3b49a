import TagNavigator.Proofs.Session.Attainable
import TagNavigator.Proofs.Text.Lines

/-!
# The lines of buffers

A buffer takes its lines from a text that it breaks at every line boundary, and keeps them.  So no
line that a window of an attainable session shows holds a line boundary, whatever files the session
has met (`not_isLineBoundary_of_attainable`).
-/

namespace TagNavigator

open Text (isLineBoundary)

/-! ### Lines of buffers -/

/-- No line of a buffer holds a line boundary. -/
def Buffers.Cut (bs : Buffers) : Prop :=
  ∀ b ∈ bs.all, ∀ line ∈ b.lines, ∀ c ∈ line, isLineBoundary c = false

namespace Buffers

variable {bs : Buffers}

theorem Cut.map (h : bs.Cut) {change : Buffer → Buffer}
    (hlines : ∀ b, (change b).lines = b.lines) :
  (bs.map change).Cut
  := by
  intro b hb
  obtain ⟨b, hmem, rfl⟩ := List.mem_map.mp hb
  rw [hlines]
  exact h b hmem

theorem Cut.add (h : bs.Cut) (path : Path) (t : Text) :
  (bs.add path (Text.bufferLines t)).2.Cut
  := by
  intro b hb
  rw [all_add] at hb
  rcases List.mem_append.mp hb with hb | hb
  · exact h b hb
  · obtain rfl := List.mem_singleton.mp hb
    intro line hline
    exact Text.unbroken_of_mem_bufferLines hline

end Buffers

/-! ### Operations on a workspace -/

namespace Workspace

variable {ws : Workspace}

theorem cut_saveCursor (h : ws.buffers.Cut) :
  ws.saveCursor.buffers.Cut
  := by
  rw [saveCursor]
  split
  · exact h
  · apply h.map
    intro b
    split <;> rfl

theorem cut_showBuffer (h : ws.buffers.Cut) (number : Nat) :
  (ws.showBuffer number).buffers.Cut
  := by
  rw [showBuffer]
  split
  · exact h
  · exact cut_saveCursor h

theorem cut_load (h : ws.buffers.Cut) {w : World} {path resolved : Path} {number : Nat}
    {ws' : Workspace} (hload : ws.load w path resolved = .ok (number, ws')) :
  ws'.buffers.Cut
  := by
  rcases load_eq_ok_iff.mp hload with ⟨b, -, -, rfl⟩ | ⟨-, t, -, -, rfl⟩
  · exact h
  · apply h.add

theorem cut_editFile (h : ws.buffers.Cut) (w : World) (path : Path) :
  (ws.editFile w path).2.2.buffers.Cut
  := by
  rcases editFile_cases w ws path with
    ⟨e, -, he⟩ | ⟨why, log, he⟩ | ⟨resolved, number, ws', -, hload, he⟩
  · rw [he, buffers_opened]
    exact h
  · rw [he, buffers_closed]
    exact h
  · rw [he]
    rw [← buffers_opened] at h
    apply cut_showBuffer (cut_load h hload)

theorem cut_goTo (h : ws.buffers.Cut) {p : Position} {ws' : Workspace}
    (hgo : ws.goTo p = .ok ws') :
  ws'.buffers.Cut
  := by
  obtain ⟨shown, rfl, ⟨-, rfl⟩ | ⟨-, -, rfl⟩ | ⟨number, b, -, -, -, rfl⟩⟩ := goTo_cases hgo
  · exact h
  · exact cut_saveCursor h
  · exact cut_showBuffer h b.number

theorem not_isLineBoundary_of_cut (h : ws.buffers.Cut) (w : Window) :
  ∀ line ∈ ws.linesOf w, ∀ c ∈ line, isLineBoundary c = false
  := by
  rw [linesOf]
  split
  next b hb =>
    obtain ⟨number, -, hget⟩ := Option.bind_eq_some_iff.mp hb
    exact h b (Buffers.mem_of_get? hget)
  next => simp

end Workspace

/-! ### Sessions -/

namespace Session

variable {s : Session}

theorem invariant_cut :
  Invariant fun ws => ws.buffers.Cut
  := by
  refine ⟨?_, fun _ _ hb => absurd hb List.not_mem_nil⟩
  constructor
  · exact fun _ w path h => Workspace.cut_editFile h w path
  · exact fun _ _ _ h hgo => Workspace.cut_goTo h hgo
  · exact fun _ _ h => h
  · exact fun _ _ _ h => h
  · exact fun _ _ h => h
  · exact fun _ h => h
  · exact fun _ _ h => h
  · exact fun _ h => Workspace.cut_saveCursor h
  · exact fun _ _ _ h => h
  · exact fun _ _ h => h
  · intro ws chosen _ value h
    apply h.map
    intro b
    split <;> rfl
  · intro ws number h
    apply h.map
    intro b
    split <;> rfl

theorem Attainable.cut (h : Attainable s) :
  s.workspace.buffers.Cut
  := invariant_cut.of_attainable h

/-- No line that a window of an attainable session shows holds a line boundary. -/
theorem not_isLineBoundary_of_attainable (h : Attainable s) (w : Window) :
  ∀ line ∈ s.workspace.linesOf w, ∀ c ∈ line, isLineBoundary c = false
  := Workspace.not_isLineBoundary_of_cut h.cut w

/-- No line that is searched after a switch to a file holds a line feed. -/
theorem Attainable.lineFeed_notMem (h : Attainable s) (path : Path) :
  ∀ line ∈ (s.workspace.editFile s.world path).2.2.lines, '\n' ∉ line
  := by
  intro line hline hmem
  have hcut := Workspace.cut_editFile h.cut s.world path
  have hfalse := Workspace.not_isLineBoundary_of_cut hcut _ line hline '\n' hmem
  contradiction

end Session

end TagNavigator
