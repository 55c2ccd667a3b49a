import TagNavigator.Proofs.Workspace.Buffers
import TagNavigator.Proofs.Workspace.Switch

/-!
# Cursors inside what is shown

A window fits the buffers if the buffer that it shows is one of them and its cursor is in that
buffer.  Every operation of a workspace keeps all windows fitting, because buffers never lose lines
and a window is only given a buffer that there is.
-/

namespace TagNavigator

theorem Cursor.clamp_clamp (lines : List Text) (c : Cursor) :
  (c.clamp lines).clamp lines = c.clamp lines
  := by
  have hline : min (max 1 (c.clamp lines).line) (max 1 (lines.length : Int))
      = (c.clamp lines).line := by
    simp only [clamp]
    omega
  rw [clamp, hline]
  simp only [clamp]
  congr 1
  omega

theorem Cursor.clamp_start (lines : List Text) :
  Cursor.start.clamp lines = Cursor.start
  := by
  simp only [clamp, start]
  congr 1 <;> omega

/-- In the lines of a window that shows nothing, a cursor can only be at the start. -/
theorem Cursor.clamp_blank (c : Cursor) :
  c.clamp [[]] = Cursor.start
  := by
  have hline : min (max 1 c.line) (max 1 (([[]] : List Text).length : Int)) = 1 := by
    rw [List.length_singleton]
    omega
  have hwidth : (lineText [[]] 1).length = 0 := by decide
  simp only [clamp, start, hline, hwidth]
  congr 1
  omega

/-- The buffers `bs'` have all buffers of `bs`, with the same lines. -/
def Buffers.Keeps (bs bs' : Buffers) : Prop :=
  ∀ number b, bs.get? number = some b → ∃ b', bs'.get? number = some b' ∧ b'.lines = b.lines

/-- The cursor is in the buffer, or it is at the start and there is no buffer. -/
def Buffers.Holds (bs : Buffers) (buffer : Option Nat) (c : Cursor) : Prop :=
  (buffer = none ∧ c = Cursor.start)
    ∨ ∃ number b, buffer = some number ∧ bs.get? number = some b ∧ c.clamp b.lines = c

/-- The window shows a buffer and has its cursor in it, or it shows nothing and has its cursor at
the start. -/
def Window.Fits (bs : Buffers) (w : Window) : Prop := bs.Holds w.buffer w.cursor

/-- All windows fit the buffers, and the numbers of the buffers are below that of the next one. -/
structure Workspace.Fitting (ws : Workspace) : Prop where
  numbered : ws.buffers.Numbered
  fits : ∀ w ∈ ws.windows.all, w.Fits ws.buffers

/-! ### Buffers -/

namespace Buffers

variable {bs : Buffers}

theorem Keeps.refl (bs : Buffers) :
  bs.Keeps bs
  := by
  intro number b h
  exact ⟨b, h, rfl⟩

theorem Keeps.map {change : Buffer → Buffer} (hnumber : ∀ b, (change b).number = b.number)
    (hlines : ∀ b, (change b).lines = b.lines) :
  bs.Keeps (bs.map change)
  := by
  intro number b h
  refine ⟨change b, ?_, hlines b⟩
  rw [get?_map hnumber, h]
  rfl

theorem Keeps.add (path : Path) (lines : List Text) :
  bs.Keeps (bs.add path lines).2
  := by
  intro number b h
  exact ⟨b, get?_add h path lines, rfl⟩

/-- A buffer that is among the buffers is found under its number, or one with the same number is. -/
theorem exists_get?_of_mem_listed {b : Buffer} (h : b ∈ bs.listed) :
  ∃ b', bs.get? b.number = some b'
  := by
  apply Option.isSome_iff_exists.mp
  apply List.find?_isSome.mpr
  refine ⟨b, List.mem_of_mem_filter h, ?_⟩
  simp

end Buffers

theorem Window.Fits.keeps {bs bs' : Buffers} {w : Window} (h : w.Fits bs) (hkeeps : bs.Keeps bs') :
  w.Fits bs'
  := by
  rcases h with hnone | ⟨number, b, hbuffer, hb, hcursor⟩
  · left
    exact hnone
  · right
    obtain ⟨b', hb', hlines⟩ := hkeeps number b hb
    rw [← hlines] at hcursor
    exact ⟨number, b', hbuffer, hb', hcursor⟩

/-- Only the buffer and the cursor decide whether a window fits. -/
theorem Window.Fits.of_same {bs : Buffers} {w w' : Window} (h : w.Fits bs)
    (hbuffer : w'.buffer = w.buffer) (hcursor : w'.cursor = w.cursor) :
  w'.Fits bs
  := by
  rw [Fits, hbuffer, hcursor]
  exact h

namespace Workspace

variable {ws : Workspace}

/-! ### Operations that keep the windows fitting -/

theorem fitting_start (historySize : Int) :
  (start historySize).Fitting
  := by
  constructor
  · intro b hb
    contradiction
  · intro w hw
    obtain rfl := List.mem_singleton.mp hw
    left
    exact ⟨rfl, rfl⟩

theorem Fitting.current (h : ws.Fitting) :
  ws.window.Fits ws.buffers
  := by
  apply h.fits
  apply Windows.current_mem_all

theorem Fitting.withBuffers (h : ws.Fitting) {bs : Buffers} (hnumbered : bs.Numbered)
    (hkeeps : ws.buffers.Keeps bs) :
  { ws with buffers := bs }.Fitting
  := by
  constructor
  · exact hnumbered
  · intro w hw
    apply (h.fits w hw).keeps hkeeps

theorem Fitting.mapBuffers (h : ws.Fitting) {change : Buffer → Buffer}
    (hnumber : ∀ b, (change b).number = b.number) (hlines : ∀ b, (change b).lines = b.lines) :
  { ws with buffers := ws.buffers.map change }.Fitting
  := by
  apply h.withBuffers
  · apply h.numbered.map hnumber
  · apply Buffers.Keeps.map hnumber hlines

/-- If every window is one of the old ones, up to identity and history, all windows fit. -/
theorem Fitting.withWindows (h : ws.Fitting) {windows : Windows} {nextWindow : Nat} {pending : Bool}
    (hwindows : ∀ w' ∈ windows.all, ∃ w ∈ ws.windows.all,
      w'.buffer = w.buffer ∧ w'.cursor = w.cursor) :
  Fitting ⟨ws.buffers, windows, nextWindow, pending⟩
  := by
  constructor
  · exact h.numbered
  · intro w' hw'
    obtain ⟨w, hw, hbuffer, hcursor⟩ := hwindows w' hw'
    apply (h.fits w hw).of_same hbuffer hcursor

theorem Fitting.withWindow (h : ws.Fitting) {w : Window} (hw : w.Fits ws.buffers) :
  (ws.withWindow w).Fitting
  := by
  constructor
  · exact h.numbered
  · intro w' hw'
    rcases List.mem_append.mp hw' with habove | hrest
    · apply h.fits
      apply List.mem_append_left _ habove
    · rcases List.mem_cons.mp hrest with rfl | hbelow
      · exact hw
      · apply h.fits
        apply List.mem_append_right
        apply List.mem_cons_of_mem _ hbelow

theorem linesOf_of_get? {w : Window} {number : Nat} {b : Buffer} (hbuffer : w.buffer = some number)
    (hb : ws.buffers.get? number = some b) :
  ws.linesOf w = b.lines
  := by
  have hbufferOf : ws.bufferOf w = some b := by
    rw [bufferOf, hbuffer]
    exact hb
  rw [linesOf, hbufferOf]

theorem linesOf_of_none {w : Window} (hbuffer : w.buffer = none) :
  ws.linesOf w = [[]]
  := by
  have hbufferOf : ws.bufferOf w = none := by
    rw [bufferOf, hbuffer]
    rfl
  rw [linesOf, hbufferOf]

theorem Fitting.setCursor (h : ws.Fitting) (c : Cursor) :
  (ws.setCursor c).Fitting
  := by
  apply h.withWindow
  rcases h.current with ⟨hbuffer, -⟩ | ⟨number, b, hbuffer, hb, -⟩
  · left
    refine ⟨hbuffer, ?_⟩
    rw [lines, linesOf_of_none hbuffer]
    apply Cursor.clamp_blank
  · right
    refine ⟨number, b, hbuffer, hb, ?_⟩
    rw [lines, linesOf_of_get? hbuffer hb]
    apply Cursor.clamp_clamp

theorem Fitting.saveCursor (h : ws.Fitting) :
  ws.saveCursor.Fitting
  := by
  rw [Workspace.saveCursor]
  split
  · exact h
  · apply h.mapBuffers
    · intro b
      split <;> rfl
    · intro b
      split <;> rfl

theorem keeps_saveCursor (ws : Workspace) :
  ws.buffers.Keeps ws.saveCursor.buffers
  := by
  rw [Workspace.saveCursor]
  split
  · apply Buffers.Keeps.refl
  · apply Buffers.Keeps.map
    · intro b
      split <;> rfl
    · intro b
      split <;> rfl

theorem Fitting.showBuffer (h : ws.Fitting) {number : Nat} {b : Buffer}
    (hb : ws.buffers.get? number = some b) :
  (ws.showBuffer number).Fitting
  := by
  rw [Workspace.showBuffer]
  split
  · exact h
  · obtain ⟨b', hb', -⟩ := keeps_saveCursor ws number b hb
    apply h.saveCursor.withWindow
    right
    refine ⟨number, b', rfl, hb', ?_⟩
    simp only [hb']
    apply Cursor.clamp_clamp

theorem Fitting.detach (h : ws.Fitting) :
  ws.detach.Fitting
  := by
  apply h.saveCursor.withWindow
  left
  exact ⟨rfl, rfl⟩

theorem Fitting.withPending (h : ws.Fitting) (value : Bool) :
  { ws with splitPending := value }.Fitting
  := by
  constructor
  · exact h.numbered
  · exact h.fits

theorem Fitting.withHistory (h : ws.Fitting) (id : Nat) (history : History) :
  { ws with windows := ws.windows.update id fun w => { w with history := history } }.Fitting
  := by
  apply h.withWindows
  intro w' hw'
  rw [Windows.update, Windows.all_map] at hw'
  obtain ⟨w, hw, rfl⟩ := List.mem_map.mp hw'
  refine ⟨w, hw, ?_⟩
  split
  · exact ⟨rfl, rfl⟩
  · exact ⟨rfl, rfl⟩

theorem Fitting.split (h : ws.Fitting) :
  ws.split.Fitting
  := by
  apply h.withWindows
  intro w' hw'
  rcases List.mem_append.mp hw' with habove | hrest
  · exact ⟨w', List.mem_append_left _ habove, rfl, rfl⟩
  · rcases List.mem_cons.mp hrest with rfl | hold
    · exact ⟨ws.windows.current, Windows.current_mem_all _, rfl, rfl⟩
    · exact ⟨w', List.mem_append_right _ hold, rfl, rfl⟩

theorem Fitting.close (h : ws.Fitting) (id : Nat) (fallback : Option Nat) :
  (ws.close id fallback).Fitting
  := by
  apply h.withWindows
  intro w hw
  exact ⟨w, (Windows.all_close_sublist ws.windows id fallback).mem hw, rfl, rfl⟩

theorem Fitting.focus (h : ws.Fitting) (i : Nat) :
  { ws with windows := ws.windows.focus i }.Fitting
  := by
  apply h.withWindows
  intro w hw
  rw [Windows.all_focus] at hw
  exact ⟨w, hw, rfl, rfl⟩

/-! ### Switches -/

/-- The buffer of a file that was loaded is there. -/
theorem Fitting.load (h : ws.Fitting) {w : World} {path resolved : Path} {number : Nat}
    {ws' : Workspace} (hload : ws.load w path resolved = .ok (number, ws')) :
  ws'.Fitting ∧ ∃ b, ws'.buffers.get? number = some b
  := by
  rcases load_eq_ok_iff.mp hload with ⟨b, hfind, rfl, rfl⟩ | ⟨-, t, -, rfl, rfl⟩
  · refine ⟨h, ?_⟩
    apply Buffers.exists_get?_of_mem_listed
    apply List.mem_of_find?_eq_some hfind
  · constructor
    · apply h.withBuffers
      · apply h.numbered.add
      · apply Buffers.Keeps.add
    · exact ⟨_, Buffers.get?_add_next h.numbered _ _⟩

theorem Fitting.opened (h : ws.Fitting) :
  ws.opened.Fitting
  := by
  rw [Workspace.opened]
  split
  · exact (h.withPending false).split
  · apply h.withPending false

theorem Fitting.closed (h : ws.Fitting) :
  ws.closed.Fitting
  := by
  rw [Workspace.closed]
  split
  · apply h.opened.close
  · exact h.opened

theorem Fitting.editFile (h : ws.Fitting) (w : World) (path : Path) :
  (ws.editFile w path).2.2.Fitting
  := by
  rcases editFile_cases w ws path with
    ⟨e, -, he⟩ | ⟨why, log, he⟩ | ⟨resolved, number, ws', -, hload, he⟩
  · rw [he]
    exact h.opened
  · rw [he]
    exact h.closed
  · rw [he]
    obtain ⟨hfitting, b, hb⟩ := h.opened.load hload
    apply hfitting.showBuffer hb

theorem Fitting.goTo (h : ws.Fitting) {p : Position} {ws' : Workspace}
    (hgo : ws.goTo p = .ok ws') :
  ws'.Fitting
  := by
  obtain ⟨shown, rfl, ⟨-, rfl⟩ | ⟨-, -, rfl⟩ | ⟨number, b, -, hlisted, -, rfl⟩⟩ := goTo_cases hgo
  · apply h.setCursor
  · apply h.detach.setCursor
  · obtain ⟨b', hb'⟩ := Buffers.exists_get?_of_mem_listed (List.mem_of_find?_eq_some hlisted)
    apply (h.showBuffer hb').setCursor

end Workspace

end TagNavigator
