import Mathlib.Data.List.Nodup
import TagNavigator.Proofs.Text.Lines
import TagNavigator.Proofs.Workspace.Fitting

/-!
# Sound workspaces

The buffers of a workspace are sound if their numbers are distinct and below that of the next one,
no two listed ones hold the same file, and each has lines and remembers a cursor in them.  Every
operation of a workspace whose windows fit the buffers keeps the buffers sound: a window leaves to a
buffer the cursor that it had in it, and a buffer is made only for a file that no listed one holds.
With windows that are distinct and fit, the workspace is sound (`Sound`).
-/

namespace TagNavigator

/-! ### Cursors inside lines -/

/-- The cursor is on a character of one of the lines, or at the start of an empty line. -/
structure Cursor.Inside (lines : List Text) (c : Cursor) : Prop where
  line_pos : 1 ≤ c.line
  line_le : c.line ≤ lines.length
  column_nonneg : 0 ≤ c.column
  column_le : c.column ≤ max 0 (((lineText lines c.line).length : Int) - 1)

theorem Cursor.inside_clamp {lines : List Text} (hne : lines ≠ []) (c : Cursor) :
  (c.clamp lines).Inside lines
  := by
  have hpos := List.length_pos_iff.mpr hne
  constructor
  · simp only [clamp]
    omega
  · simp only [clamp]
    omega
  · simp only [clamp]
    omega
  · simp only [clamp]
    omega

theorem Cursor.inside_start {lines : List Text} (hne : lines ≠ []) :
  start.Inside lines
  := by
  have hinside := inside_clamp hne start
  rw [clamp_start] at hinside
  exact hinside

/-- A cursor inside the lines stays where it is. -/
theorem Cursor.Inside.clamp_eq {lines : List Text} {c : Cursor} (h : c.Inside lines) :
  c.clamp lines = c
  := by
  obtain ⟨hline, hline', hcolumn, hcolumn'⟩ := h
  have heq : min (max 1 c.line) (max 1 lines.length) = c.line := by omega
  simp only [clamp, heq]
  rw [Int.max_eq_right hcolumn, Int.min_eq_left hcolumn']

theorem Cursor.lineText_of_getElem? {lines : List Text} {t : Text} {i : Nat}
    (h : lines[i]? = some t) :
  lineText lines (i + 1) = t
  := by
  rw [lineText, if_neg (by omega), Int.add_sub_cancel, Int.toNat_natCast, h]
  rfl

/-! ### Sound buffers -/

namespace Buffers

variable {bs : Buffers}

/-- The buffers, listed or wiped, can be told by their numbers, and the listed ones by their files;
each has lines, and remembers a cursor that is inside them. -/
structure Sound (bs : Buffers) : Prop where
  numbered : bs.Numbered
  numbers_nodup : (bs.all.map (·.number)).Nodup
  paths_nodup : (bs.listed.map (·.path)).Nodup
  lines_ne_nil : ∀ b ∈ bs.all, b.lines ≠ []
  inside : ∀ b ∈ bs.all, b.cursor.Inside b.lines

theorem sound_empty :
  empty.Sound
  := by
  constructor
  · intro b hb
    contradiction
  · exact List.nodup_nil
  · exact List.nodup_nil
  · intro b hb
    contradiction
  · intro b hb
    contradiction

theorem paths_map_sublist {change : Buffer → Buffer} (hpath : ∀ b, (change b).path = b.path)
    (hlisted : ∀ b, (change b).listed = true → b.listed = true) :
  ((bs.map change).listed.map (·.path)).Sublist (bs.listed.map (·.path))
  := by
  have hsame : (·.path) ∘ change = Buffer.path := funext hpath
  rw [listed, map, List.filter_map, List.map_map, hsame]
  apply List.Sublist.map
  apply List.monotone_filter_right
  exact hlisted

/-- A change that lists no buffer anew and puts the cursors inside the lines keeps the buffers
sound. -/
theorem Sound.map (h : bs.Sound) {change : Buffer → Buffer}
    (hsame : ∀ b, (change b).number = b.number ∧ (change b).path = b.path
      ∧ (change b).lines = b.lines)
    (hlisted : ∀ b, (change b).listed = true → b.listed = true)
    (hinside : ∀ b ∈ bs.all, (change b).cursor.Inside b.lines) :
  (bs.map change).Sound
  := by
  have hnumbers : (·.number) ∘ change = Buffer.number := funext fun b => (hsame b).1
  constructor
  · apply h.numbered.map fun b => (hsame b).1
  · rw [Buffers.map, List.map_map, hnumbers]
    exact h.numbers_nodup
  · apply (paths_map_sublist (fun b => (hsame b).2.1) hlisted).nodup h.paths_nodup
  · intro b hb
    obtain ⟨b, hmem, rfl⟩ := List.mem_map.mp hb
    rw [(hsame b).2.2]
    exact h.lines_ne_nil b hmem
  · intro b hb
    obtain ⟨b, hmem, rfl⟩ := List.mem_map.mp hb
    rw [(hsame b).2.2]
    exact hinside b hmem

/-- Wiping a buffer leaves the others as they are. -/
theorem Sound.wipe (h : bs.Sound) (number : Int) :
  (bs.wipe number).Sound
  := by
  apply h.map
  · intro b
    split <;> exact ⟨rfl, rfl, rfl⟩
  · intro b hlisted
    split at hlisted
    · cases hlisted
    · exact hlisted
  · intro b hb
    split
    · exact h.inside b hb
    · exact h.inside b hb

/-- The flags of unsaved changes are of no account. -/
theorem Sound.flag (h : bs.Sound) (chosen : Buffer → Prop) [DecidablePred chosen] (value : Bool) :
  (bs.map fun b => if chosen b then { b with modified := value } else b).Sound
  := by
  apply h.map
  · intro b
    split <;> exact ⟨rfl, rfl, rfl⟩
  · intro b hlisted
    split at hlisted
    · exact hlisted
    · exact hlisted
  · intro b hb
    split
    · exact h.inside b hb
    · exact h.inside b hb

theorem Sound.add (h : bs.Sound) {path : Path} (hpath : bs.find? path = none) {lines : List Text}
    (hlines : lines ≠ []) :
  (bs.add path lines).2.Sound
  := by
  constructor
  · apply h.numbered.add
  · rw [all_add, List.map_append]
    apply h.numbers_nodup.append (List.nodup_singleton _)
    intro number hmem hnew
    obtain ⟨b, hb, rfl⟩ := List.mem_map.mp hmem
    have hlt := h.numbered b hb
    have heq := List.mem_singleton.mp hnew
    change b.number = bs.next at heq
    omega
  · rw [listed_add, List.map_append]
    apply h.paths_nodup.append (List.nodup_singleton _)
    intro p hmem hnew
    obtain ⟨b, hb, rfl⟩ := List.mem_map.mp hmem
    have hne := List.find?_eq_none.mp hpath b hb
    have heq := List.mem_singleton.mp hnew
    change b.path = path at heq
    rw [heq] at hne
    simp at hne
  · intro b hb
    rw [all_add] at hb
    rcases List.mem_append.mp hb with hb | hb
    · exact h.lines_ne_nil b hb
    · obtain rfl := List.mem_singleton.mp hb
      exact hlines
  · intro b hb
    rw [all_add] at hb
    rcases List.mem_append.mp hb with hb | hb
    · exact h.inside b hb
    · obtain rfl := List.mem_singleton.mp hb
      exact Cursor.inside_start hlines

theorem mem_of_get? {number : Nat} {b : Buffer} (h : bs.get? number = some b) :
  b ∈ bs.all
  := List.mem_of_find?_eq_some h

/-- A buffer is the one that is found by its number. -/
theorem Sound.eq_of_get? (h : bs.Sound) {number : Nat} {b b' : Buffer} (hb : bs.get? number = some b)
    (hmem : b' ∈ bs.all) (hnumber : b'.number = number) :
  b' = b
  := by
  apply List.inj_on_of_nodup_map h.numbers_nodup hmem (mem_of_get? hb)
  rw [hnumber, number_of_get? hb]

/-- A cursor that the buffers hold is inside the lines of its buffer. -/
theorem Sound.inside_of_holds (h : bs.Sound) {number : Nat} {c : Cursor}
    (hc : bs.Holds (some number) c) {b : Buffer} (hmem : b ∈ bs.all) (hnumber : b.number = number) :
  c.Inside b.lines
  := by
  rcases hc with ⟨hnone, -⟩ | ⟨number', b', hsome, hb', hclamp⟩
  · cases hnone
  · obtain rfl := Option.some.inj hsome
    obtain rfl := h.eq_of_get? hb' hmem hnumber
    rw [← hclamp]
    apply Cursor.inside_clamp
    exact h.lines_ne_nil b hmem

end Buffers

/-! ### Operations that keep the buffers sound -/

namespace Workspace

variable {ws : Workspace}

/-- The windows fit the buffers, and the buffers are sound. -/
structure Stocked (ws : Workspace) : Prop extends ws.Fitting where
  sound : ws.buffers.Sound

theorem stocked_start (historySize : Int) :
  (start historySize).Stocked
  := ⟨fitting_start historySize, Buffers.sound_empty⟩

theorem Stocked.sound_saveCursor (h : ws.Stocked) :
  ws.saveCursor.buffers.Sound
  := by
  have hcurrent := h.current
  rw [saveCursor]
  split
  · exact h.sound
  next number hbuffer =>
    rw [Window.Fits, hbuffer] at hcurrent
    apply h.sound.map
    · intro b
      split <;> exact ⟨rfl, rfl, rfl⟩
    · intro b hlisted
      split at hlisted
      · exact hlisted
      · exact hlisted
    · intro b hb
      split
      next hnumber => exact h.sound.inside_of_holds hcurrent hb hnumber
      · exact h.sound.inside b hb

theorem Stocked.sound_showBuffer (h : ws.Stocked) (number : Nat) :
  (ws.showBuffer number).buffers.Sound
  := by
  rw [showBuffer]
  split
  · exact h.sound
  · exact h.sound_saveCursor

theorem Stocked.opened (h : ws.Stocked) :
  ws.opened.Stocked
  := by
  constructor
  · exact h.toFitting.opened
  · rw [buffers_opened]
    exact h.sound

theorem Stocked.closed (h : ws.Stocked) :
  ws.closed.Stocked
  := by
  constructor
  · exact h.toFitting.closed
  · rw [buffers_closed]
    exact h.sound

theorem Stocked.load (h : ws.Stocked) {w : World} {path resolved : Path} {number : Nat}
    {ws' : Workspace} (hload : ws.load w path resolved = .ok (number, ws')) :
  ws'.Stocked
  := by
  constructor
  · exact (h.toFitting.load hload).1
  · rcases load_eq_ok_iff.mp hload with ⟨b, -, -, rfl⟩ | ⟨hfind, t, -, -, rfl⟩
    · exact h.sound
    · apply h.sound.add hfind
      apply Text.bufferLines_ne_nil

theorem Stocked.editFile (h : ws.Stocked) (w : World) (path : Path) :
  (ws.editFile w path).2.2.Stocked
  := by
  have hfitting := h.toFitting.editFile w path
  rcases editFile_cases w ws path with
    ⟨e, -, he⟩ | ⟨why, log, he⟩ | ⟨resolved, number, ws', -, hload, he⟩
  · rw [he]
    exact h.opened
  · rw [he]
    exact h.closed
  · rw [he] at hfitting ⊢
    constructor
    · exact hfitting
    · exact (h.opened.load hload).sound_showBuffer number

theorem Stocked.goTo (h : ws.Stocked) {p : Position} {ws' : Workspace}
    (hgo : ws.goTo p = .ok ws') :
  ws'.Stocked
  := by
  constructor
  · exact h.toFitting.goTo hgo
  · obtain ⟨shown, rfl, ⟨-, rfl⟩ | ⟨-, -, rfl⟩ | ⟨number, b, -, -, -, rfl⟩⟩ := goTo_cases hgo
    · exact h.sound
    · exact h.sound_saveCursor
    · exact h.sound_showBuffer b.number

/-! ### Sound workspaces -/

/-- There is a current window among the windows; the windows and their histories are separate; each
window shows one of the buffers, or none, with its cursor inside the lines that it shows; and the
buffers are sound. -/
structure Sound (ws : Workspace) : Prop where
  current_mem : ws.window ∈ ws.windows.all
  ids_nodup : ws.windows.ids.Nodup
  /-- What becomes of the history of one window is nothing to the others. -/
  separate : ∀ w ∈ ws.windows.all, ∀ w' ∈ ws.windows.all, w' ≠ w → ∀ h : History,
    w' ∈ (ws.windows.update w.id fun w => { w with history := h }).all
  shown : ∀ w ∈ ws.windows.all, ∀ number, w.buffer = some number →
    ∃ b ∈ ws.buffers.all, b.number = number ∧ ws.linesOf w = b.lines
  inside : ∀ w ∈ ws.windows.all, w.cursor.Inside (ws.linesOf w)
  buffers : ws.buffers.Sound

/-- A change of one window leaves every other one among the windows. -/
theorem Distinct.mem_update (h : ws.Distinct) {w w' : Window} (hw : w ∈ ws.windows.all)
    (hw' : w' ∈ ws.windows.all) (hne : w' ≠ w) (change : Window → Window) :
  w' ∈ (ws.windows.update w.id change).all
  := by
  rw [Windows.update, Windows.all_map]
  apply List.mem_map.mpr
  refine ⟨w', hw', if_neg ?_⟩
  intro hid
  exact hne (Windows.eq_of_id_eq h.nodup hw' hw hid)

theorem Stocked.inside (h : ws.Stocked) {w : Window} (hw : w ∈ ws.windows.all) :
  w.cursor.Inside (ws.linesOf w)
  := by
  rcases h.fits w hw with ⟨hbuffer, hcursor⟩ | ⟨number, b, hbuffer, hb, hclamp⟩
  · rw [linesOf_of_none hbuffer, hcursor]
    apply Cursor.inside_start
    exact List.cons_ne_nil _ _
  · rw [linesOf_of_get? hbuffer hb, ← hclamp]
    apply Cursor.inside_clamp
    exact h.sound.lines_ne_nil b (Buffers.mem_of_get? hb)

theorem Stocked.shown (h : ws.Stocked) {w : Window} (hw : w ∈ ws.windows.all) {number : Nat}
    (hbuffer : w.buffer = some number) :
  ∃ b ∈ ws.buffers.all, b.number = number ∧ ws.linesOf w = b.lines
  := by
  rcases h.fits w hw with ⟨hnone, -⟩ | ⟨number', b, hsome, hb, -⟩
  · rw [hnone] at hbuffer
    cases hbuffer
  · obtain rfl := Option.some.inj (hsome.symm.trans hbuffer)
    exact ⟨b, Buffers.mem_of_get? hb, Buffers.number_of_get? hb, linesOf_of_get? hsome hb⟩

theorem Distinct.sound (h : ws.Distinct) (hs : ws.Stocked) :
  ws.Sound
  := by
  constructor
  · apply Windows.current_mem_all
  · exact h.nodup
  · intro w hw w' hw' hne history
    exact h.mem_update hw hw' hne _
  · intro w hw number hbuffer
    exact hs.shown hw hbuffer
  · intro w hw
    exact hs.inside hw
  · exact hs.sound

end Workspace

end TagNavigator
