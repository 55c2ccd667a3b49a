import TagNavigator.Proofs.Session.AllOrNothing
import TagNavigator.Proofs.Session.Provenance
import TagNavigator.Proofs.Workspace.Succession

/-!
# Saved positions

A saved position names a buffer by its number.  Whatever is done in a session, the number goes on
meaning the same buffer.  So who gets back to a saved position gets back to the buffer that was
shown there (`ReturnsTo`); and if that buffer was wiped, no other one is shown in its place
(`Lost`), even if the same file was read again.
-/

namespace TagNavigator

/-- The buffer that the current window shows. -/
def Workspace.shownBuffer (ws : Workspace) : Option Buffer := ws.bufferOf ws.window

namespace Session

variable {s : Session}

/-- Going to a position with the given number, by itself or by a step back, succeeds only in showing
the given buffer, or none. -/
structure ReturnsTo (s : Session) (number : Option Int) (shown : Option Buffer) : Prop where
  goTo : ∀ p ws, p.buffer = number → s.workspace.goTo p = .ok ws →
    Option.Rel Buffer.Same shown ws.shownBuffer
  pop : ∀ count x, s.workspace.window.history.olderEntry? count = some x →
    x.origin.buffer = number → (s.pop count).1 = .ok true →
    Option.Rel Buffer.Same shown (s.pop count).2.workspace.shownBuffer

/-- Going to a position with the given number, by itself or by a step back, fails, with a notice
that there is no such buffer, and changes nothing about windows, buffers and histories. -/
structure Lost (s : Session) (number : Nat) : Prop where
  goTo : ∀ p : Position, p.buffer = some (number : Int) →
    s.workspace.goTo p = .error (.noBuffer number) ∧ ((Action.goTo p).run s).2 = s
  pop : ∀ count x, s.workspace.window.history.olderEntry? count = some x →
    x.origin.buffer = some (number : Int) →
    (s.pop count).1 = .ok false ∧ (s.pop count).2.workspace = s.workspace
      ∧ (s.pop count).2.status = "buffer ".toList ++ Text.ofNat number ++ " not found".toList

/-! ### Runs -/

theorem steady_later (bs : Buffers) :
  Steady fun ws => bs.Later ws.buffers
  := by
  constructor
  · exact fun ws w path h => h.trans (ws.later_editFile w path)
  · exact fun ws ws' p h hgo => h.trans (Workspace.later_goTo hgo)
  · exact fun ws c h => h
  · exact fun ws id history h => h
  · exact fun ws history h => h
  · exact fun ws h => h
  · exact fun ws value h => h
  · exact fun ws h => h.trans ws.later_saveCursor
  · exact fun ws id fallback h => h
  · exact fun ws place h => h
  · exact fun ws chosen _ value h => h.trans (Buffers.later_flag chosen value)
  · exact fun ws number h => h.trans (Buffers.later_wipe number)

/-- Through any run, the buffers stay the same, and new ones have new numbers. -/
theorem later_runAll (s : Session) (events : List Event) :
  s.workspace.buffers.Later (s.runAll events).workspace.buffers
  := (steady_later s.workspace.buffers).runAll (.refl _) events

/-- A buffer that was wiped stays wiped. -/
theorem exists_wiped (h : Attainable s) {number : Nat} {b : Buffer}
    (hb : s.workspace.buffers.get? number = some b) (after : List Event) :
  ∃ b', (s.runAll (.act (.wipe number) :: after)).workspace.buffers.get? number = some b'
    ∧ b'.listed = false
  := by
  have hwipe : Attainable (Event.run (.act (.wipe number)) s) := h.step _
  obtain ⟨wiped, hwiped, -, -⟩ :=
    (Buffers.later_wipe (number : Int)).get? hwipe.stocked.sound hb
  obtain ⟨b', hb', -, hlisted⟩ :=
    (later_runAll (Event.run (.act (.wipe number)) s) after).get? (hwipe.runAll after).stocked.sound
      hwiped
  refine ⟨b', hb', ?_⟩
  apply eq_false_of_ne_true
  intro hl
  have hgone := Buffers.wiped_of_wipe hwiped
  rw [hlisted hl] at hgone
  cases hgone

/-! ### Getting back -/

theorem shownBuffer_withHistory (s : Session) (id : Nat) (h : History) :
  (s.withHistory id h).workspace.shownBuffer = s.workspace.shownBuffer
  := by
  rw [Workspace.shownBuffer, Workspace.bufferOf, window_withHistory]
  split <;> rfl

/-- At a later time, whoever gets back to the buffer number of a window gets back to its buffer. -/
theorem returnsTo_of_later {ws₀ : Workspace} (h : ws₀.buffers.Later s.workspace.buffers)
    (hstocked₀ : ws₀.Stocked) (hstocked : s.workspace.Stocked) {w : Window}
    (hw : w ∈ ws₀.windows.all) :
  s.ReturnsTo (Workspace.positionOf w).buffer (ws₀.bufferOf w)
  := by
  have hshown {p : Position} {ws : Workspace} (hp : p.buffer = (Workspace.positionOf w).buffer)
      (hgo : s.workspace.goTo p = .ok ws) :
      Option.Rel Buffer.Same (ws₀.bufferOf w) ws.shownBuffer := by
    have hsame : ws.window.buffer = w.buffer := by
      apply Workspace.map_cast_inj
      rw [Workspace.buffer_of_goTo hgo, hp, Workspace.buffer_positionOf]
    exact Workspace.rel_bufferOf (h.trans (Workspace.later_goTo hgo)) hstocked₀ (hstocked.goTo hgo)
      hw hsame
  constructor
  · exact fun p ws hp hgo => hshown hp hgo
  · intro count x hx horigin hpop
    cases hgo : s.workspace.goTo x.origin with
    | ok ws =>
        obtain ⟨number, s', rfl, hmade⟩ := pop_of_ok hx hgo
        rw [hmade, shownBuffer_withHistory]
        exact hshown horigin hgo
    | error why =>
        obtain ⟨s', -, -, hrefused⟩ := pop_of_error hx hgo
        rw [hrefused] at hpop
        cases hpop

/-- A buffer that was wiped, and is not shown in the current window, is lost. -/
theorem lost_of_wiped (hdistinct : s.workspace.Distinct) (hstocked : s.workspace.Stocked)
    {number : Nat} {b : Buffer} (hb : s.workspace.buffers.get? number = some b)
    (hwiped : b.listed = false) (hshown : s.workspace.window.buffer ≠ some number) :
  s.Lost number
  := by
  have hgo {p : Position} (hp : p.buffer = some (number : Int)) :
      s.workspace.goTo p = .error (.noBuffer number) :=
    Workspace.goTo_of_wiped hstocked hb hwiped hshown hp
  constructor
  · intro p hp
    refine ⟨hgo hp, ?_⟩
    simp only [Action.run, hgo hp]
  · intro count x hx horigin
    obtain ⟨s', hs', hstatus, hpop⟩ := pop_of_error hx (hgo horigin)
    rw [hpop]
    refine ⟨rfl, ?_, hstatus⟩
    have hsame : (s'.withHistory s.workspace.window.id s.workspace.window.history).workspace
        = (s.withHistory s.workspace.window.id s.workspace.window.history).workspace :=
      congrArg (fun ws : Workspace => { ws with
        windows := ws.windows.update s.workspace.window.id fun w =>
          { w with history := s.workspace.window.history } }) hs'
    exact hsame.trans (workspace_withHistory_self hdistinct)

/-- A saved buffer number never comes to mean another buffer. In any run, no two buffers get the
same number, and from any moment on the buffers keep their numbers, files and lines, so that getting
back to the buffer number of a window gets back to the buffer that it showed. Once a buffer was
wiped, nobody gets back to it, or to another one in its place, from a window that does not show it.
The position that a step back goes to was saved by an event of the run, and a step back that
succeeds shows the buffer that was shown then. -/
theorem saved_positions_return (world : World) (options : Options) (events : List Event) :
  let first := start world options
  let s := first.runAll events
  (s.workspace.buffers.all.map (·.number)).Nodup
    ∧ (∀ earlier later, events = earlier ++ later →
      (first.runAll earlier).workspace.buffers.Later s.workspace.buffers
      ∧ ∀ w ∈ (first.runAll earlier).workspace.windows.all,
        s.ReturnsTo (Workspace.positionOf w).buffer ((first.runAll earlier).workspace.bufferOf w))
    ∧ (∀ before after number b, events = before ++ .act (.wipe number) :: after →
      (first.runAll before).workspace.buffers.get? number = some b →
      s.workspace.window.buffer ≠ some number → s.Lost number)
    ∧ ∀ count, ((s.pop count).1 = .ok true →
        ∃ x, s.workspace.window.history.olderEntry? count = some x)
      ∧ ∀ x, s.workspace.window.history.olderEntry? count = some x →
        ∃ earlier e later, events = earlier ++ e :: later ∧ e.Saves (first.runAll earlier) x
          ∧ ((s.pop count).1 = .ok true →
            Option.Rel Buffer.Same (first.runAll earlier).workspace.shownBuffer
              (s.pop count).2.workspace.shownBuffer)
  := by
  intro first s
  have hrun (events) : Attainable (first.runAll events) :=
    (Attainable.start world options).runAll events
  have hreturns {earlier later : List Event} (hevents : events = earlier ++ later) :
      (first.runAll earlier).workspace.buffers.Later s.workspace.buffers
      ∧ ∀ w ∈ (first.runAll earlier).workspace.windows.all,
        s.ReturnsTo (Workspace.positionOf w).buffer
          ((first.runAll earlier).workspace.bufferOf w) := by
    have hlater : (first.runAll earlier).workspace.buffers.Later s.workspace.buffers := by
      subst hevents
      dsimp only [s]
      rw [runAll_append]
      exact later_runAll _ later
    exact ⟨hlater, fun w hw =>
      returnsTo_of_later hlater (hrun earlier).stocked (hrun events).stocked hw⟩
  refine ⟨(hrun events).stocked.sound.numbers_nodup, fun _ _ => hreturns, ?_, ?_⟩
  · intro before after number b hevents hb hshown
    obtain ⟨b', hb', hwiped⟩ := exists_wiped (hrun before) hb after
    rw [← runAll_append, ← hevents] at hb'
    exact lost_of_wiped (hrun events).distinct (hrun events).stocked hb' hwiped hshown
  · intro count
    refine ⟨exists_olderEntry?_of_pop, ?_⟩
    intro x hx
    have hremembers : s.workspace.Remembers x :=
      ⟨_, Windows.current_mem_all _, History.olderEntry?_mem hx⟩
    obtain ⟨earlier, e, later, hevents, hsaves⟩ := exists_saves world options hremembers
    refine ⟨earlier, e, later, hevents, hsaves, ?_⟩
    exact ((hreturns hevents).2 _ (Windows.current_mem_all _)).pop count x hx
      (congrArg (·.buffer) hsaves.origin)

/-- The session after the events in the world with two files. -/
def inTwoFiles (events : List Event) : Session := (start twoFiles {}).runAll events

/-- A jump from the first file to the second one, and a step back.  If the first file is wiped in
between and read again, it is shown from another buffer, and the step back fails. -/
theorem saved_positions_return_reloaded :
  let edit : Event := .act (.edit ⟨.here, ["a".toList]⟩)
  let there : List Event := [edit, .act (.jump ['g'] 1)]
  let again : List Event := there ++ [.act (.wipe 1), edit]
  ((inTwoFiles there).pop 1).1 = .ok true
    ∧ Option.Rel Buffer.Same (inTwoFiles [edit]).workspace.shownBuffer
      ((inTwoFiles there).pop 1).2.workspace.shownBuffer
    ∧ (inTwoFiles again).workspace.currentFile = (inTwoFiles [edit]).workspace.currentFile
    ∧ (inTwoFiles again).workspace.window.buffer = some 3
    ∧ (inTwoFiles again).Lost 1
    ∧ (inTwoFiles again).workspace.window.history.olderEntry? 1 = some ⟨['g'], ⟨some 1, 1, 0⟩⟩
    ∧ ((inTwoFiles again).pop 1).1 = .ok false
    ∧ ((inTwoFiles again).pop 1).2.status = "buffer 1 not found".toList
  := by
  intro edit there again
  have hpop : ((inTwoFiles there).pop 1).1 = .ok true := by decide +kernel
  have hentry : (inTwoFiles there).workspace.window.history.olderEntry? 1
      = some ⟨['g'], ⟨some 1, 1, 0⟩⟩ := by decide +kernel
  have hentry' : (inTwoFiles again).workspace.window.history.olderEntry? 1
      = some ⟨['g'], ⟨some 1, 1, 0⟩⟩ := by decide +kernel
  have hfile : (inTwoFiles again).workspace.currentFile
      = (inTwoFiles [edit]).workspace.currentFile := by decide +kernel
  have hbuffer : (inTwoFiles again).workspace.window.buffer = some 3 := by decide +kernel
  have hshown : (inTwoFiles again).workspace.window.buffer ≠ some 1 := by
    rw [hbuffer]
    decide
  have hfirst : (inTwoFiles [edit]).workspace.window.buffer = some 1 := by decide +kernel
  obtain ⟨b, hb⟩ : ∃ b, (inTwoFiles there).workspace.buffers.get? 1 = some b := by
    apply Option.isSome_iff_exists.mp
    decide +kernel
  unfold inTwoFiles at *
  obtain ⟨-, hreturns, -, -⟩ := saved_positions_return twoFiles {} there
  obtain ⟨-, -, hlost, -⟩ := saved_positions_return twoFiles {} again
  have hgone := hlost there [edit] 1 b rfl hb hshown
  have hback := (hreturns [edit] [.act (.jump ['g'] 1)] rfl).2 _ (Windows.current_mem_all _)
  obtain ⟨hfails, -, hstatus⟩ := hgone.pop 1 _ hentry' rfl
  refine ⟨hpop, ?_, hfile, hbuffer, hgone, hentry', hfails, hstatus⟩
  apply hback.pop 1 _ hentry _ hpop
  change _ = (Workspace.positionOf ((start twoFiles {}).runAll [edit]).workspace.window).buffer
  rw [Workspace.buffer_positionOf, hfirst]
  rfl

end Session

end TagNavigator
