import TagNavigator.Proofs.Workspace.Switch

/-!
# What becomes of the other windows

What a command of the current window can make of the windows (`Windows.Frame`): it changes that
window alone, or it opens a window above it, which is current from then on, and leaves the old one
what it shows.  Switches to files and to positions change what a window shows and nothing else
(`OnlyShows`), and a switch to a file opens a window first if a split is pending.
-/

namespace TagNavigator

namespace Windows

variable {ws ws' : Windows}

/-- The windows `ws'` are those of `ws`, but for the current one; or a window was opened above that
one, and took its place as the current one. -/
inductive Frame (ws ws' : Windows) : Prop
  | stay (w : Window) (hid : w.id = ws.current.id) (h : ws' = { ws with current := w })
  | part (new : Window) (history : History)
      (h : ws' = ⟨ws.above, new, { ws.current with history := history } :: ws.below⟩)

/-- Every other window is still there, as it was. -/
theorem Frame.mem {w : Window} (h : ws.Frame ws') (hw : w ∈ ws.all) (hne : w.id ≠ ws.current.id) :
  w ∈ ws'.all
  := by
  have hother : w ∈ ws.above ∨ w ∈ ws.below := by
    rcases List.mem_append.mp hw with habove | hrest
    · left
      exact habove
    · rcases List.mem_cons.mp hrest with rfl | hbelow
      · exact absurd rfl hne
      · right
        exact hbelow
  cases h with
  | stay new hid h =>
      subst h
      rcases hother with habove | hbelow
      · apply List.mem_append_left _ habove
      · apply List.mem_append_right
        apply List.mem_cons_of_mem _ hbelow
  | part new history h =>
      subst h
      rcases hother with habove | hbelow
      · apply List.mem_append_left _ habove
      · apply List.mem_append_right
        apply List.mem_cons_of_mem
        apply List.mem_cons_of_mem _ hbelow

theorem mem_openAbove {w : Window} (hw : w ∈ ws.all) (new : Window) :
  w ∈ (ws.openAbove new).all
  := by
  rcases List.mem_append.mp hw with habove | hrest
  · apply List.mem_append_left _ habove
  · apply List.mem_append_right
    apply List.mem_cons_of_mem _ hrest

/-- Closing one window leaves the others. -/
theorem mem_close {w : Window} (hw : w ∈ ws.all) {id : Nat} (hne : w.id ≠ id)
    (fallback : Option Nat) :
  w ∈ (ws.close id fallback).all
  := by
  rw [close]
  split
  next hcurrent =>
    have hrest : w ∈ ws.above ++ ws.below := by
      rcases List.mem_append.mp hw with habove | hrest
      · apply List.mem_append_left _ habove
      · rcases List.mem_cons.mp hrest with rfl | hbelow
        · exact absurd hcurrent hne
        · apply List.mem_append_right _ hbelow
    dsimp only
    split
    · exact hw
    next hothers =>
      rw [hothers] at hrest
      split
      · rw [all_focus]
        exact hrest
      · exact hrest
  · have hkept : (w.id != id) = true := bne_iff_ne.mpr hne
    rcases List.mem_append.mp hw with habove | hrest
    · apply List.mem_append_left
      exact List.mem_filter.mpr ⟨habove, hkept⟩
    · apply List.mem_append_right
      rcases List.mem_cons.mp hrest with rfl | hbelow
      · apply List.mem_cons_self
      · apply List.mem_cons_of_mem
        exact List.mem_filter.mpr ⟨hbelow, hkept⟩

/-! ### Windows with distinct identities -/

theorem find?_of_mem (h : ws.ids.Nodup) {w : Window} (hw : w ∈ ws.all) :
  ws.find? w.id = some w
  := by
  obtain ⟨w', hw'⟩ : ∃ w', ws.find? w.id = some w' := by
    apply Option.isSome_iff_exists.mp
    apply List.find?_isSome.mpr
    refine ⟨w, hw, ?_⟩
    simp
  have hid : w'.id = w.id := by
    have hfound := List.find?_some hw'
    simpa using hfound
  rw [hw', eq_of_id_eq h (List.mem_of_find?_eq_some hw') hw hid]

theorem map_ite_eq_self {l : List Window} {id : Nat} (h : id ∉ l.map (·.id))
    (change : Window → Window) :
  (l.map fun w => if w.id = id then change w else w) = l
  := by
  conv_rhs => rw [← List.map_id l]
  apply List.map_congr_left
  intro w hw
  apply if_neg
  rintro rfl
  exact h (List.mem_map_of_mem hw)

theorem notMem_ids_of_nodup (h : ws.ids.Nodup) :
  ws.current.id ∉ ws.above.map (·.id) ∧ ws.current.id ∉ ws.below.map (·.id)
  := by
  rw [ids, all, List.map_append, List.map_cons, List.nodup_middle, List.nodup_cons,
    List.mem_append, not_or] at h
  exact h.1

/-- A change of the windows with the identity of the current one changes that one. -/
theorem update_current (h : ws.ids.Nodup) (change : Window → Window) :
  ws.update ws.current.id change = { ws with current := change ws.current }
  := by
  obtain ⟨habove, hbelow⟩ := notMem_ids_of_nodup h
  rw [update, map, map_ite_eq_self habove, map_ite_eq_self hbelow, if_pos rfl]

section

variable {above below : List Window} {new old : Window}

theorem old_mem_all (above below : List Window) (new old : Window) :
  old ∈ (mk above new (old :: below)).all
  := by
  apply List.mem_append_right
  apply List.mem_cons_of_mem
  apply List.mem_cons_self

theorem ids_current_below (above below : List Window) (new old : Window) :
  (mk above new (old :: below)).ids = (mk (above ++ [new]) old below).ids
  := by
  simp [ids, all]

/-- A change of the windows with the identity of the one below the current one changes that one. -/
theorem update_below (h : (mk above new (old :: below)).ids.Nodup) (change : Window → Window) :
  (mk above new (old :: below)).update old.id change = ⟨above, new, change old :: below⟩
  := by
  have hne : new.id ≠ old.id := by
    rintro hid
    have hcurrent := (notMem_ids_of_nodup h).2
    apply hcurrent
    rw [hid]
    apply List.mem_cons_self
  rw [ids_current_below] at h
  obtain ⟨habove, hbelow⟩ := notMem_ids_of_nodup h
  have habove' : old.id ∉ above.map (·.id) := by
    intro hmem
    apply habove
    rw [List.map_append]
    apply List.mem_append_left _ hmem
  rw [update, map, List.map_cons, map_ite_eq_self habove', map_ite_eq_self hbelow, if_neg hne,
    if_pos rfl]

/-- The current window is not one of those there were when the one below it was current. -/
theorem notMem_ids_of_part (h : (mk above new (old :: below)).ids.Nodup) {old' : Window}
    (hid : old'.id = old.id) :
  new.id ∉ (mk above old' below).ids
  := by
  obtain ⟨habove, hbelow⟩ := notMem_ids_of_nodup h
  rw [ids, all, List.map_append, List.mem_append, not_or, List.map_cons, hid]
  exact ⟨habove, hbelow⟩

end

end Windows

namespace Workspace

variable {ws ws' ws'' : Workspace}

/-! ### Switches -/

/-- The windows of `ws'` are those of `ws`, but for what the current one shows. -/
def OnlyShows (ws ws' : Workspace) : Prop :=
  ∃ buffer cursor, ws'.windows
    = { ws.windows with current := { ws.window with buffer := buffer, cursor := cursor } }

theorem onlyShows_of_windows (h : ws'.windows = ws.windows) :
  ws.OnlyShows ws'
  := ⟨ws.window.buffer, ws.window.cursor, h⟩

theorem OnlyShows.trans (h : ws.OnlyShows ws') (h' : ws'.OnlyShows ws'') :
  ws.OnlyShows ws''
  := by
  obtain ⟨buffer, cursor, hwindows⟩ := h
  obtain ⟨buffer', cursor', hwindows'⟩ := h'
  use buffer', cursor'
  rw [hwindows', window, hwindows]

theorem OnlyShows.setCursor (h : ws.OnlyShows ws') (c : Cursor) :
  ws.OnlyShows (ws'.setCursor c)
  := h.trans ⟨_, _, rfl⟩

theorem onlyShows_detach (ws : Workspace) :
  ws.OnlyShows ws.detach
  := by
  rw [detach, withWindow, window, windows_saveCursor]
  exact ⟨_, _, rfl⟩

theorem onlyShows_showBuffer (ws : Workspace) (number : Nat) :
  ws.OnlyShows (ws.showBuffer number)
  := by
  rw [showBuffer]
  split
  · apply onlyShows_of_windows rfl
  · have hwindows := windows_saveCursor ws
    dsimp only [withWindow, window]
    rw [hwindows]
    exact ⟨_, _, rfl⟩

theorem onlyShows_goTo {p : Position} (hgo : ws.goTo p = .ok ws') :
  ws.OnlyShows ws'
  := by
  obtain ⟨shown, rfl, ⟨-, rfl⟩ | ⟨-, -, rfl⟩ | ⟨number, b, -, -, -, rfl⟩⟩ := goTo_cases hgo
  · apply OnlyShows.setCursor
    apply onlyShows_of_windows rfl
  · apply (onlyShows_detach ws).setCursor
  · apply (onlyShows_showBuffer ws b.number).setCursor

/-- A switch to a file leaves the windows as they were, or changes what is shown after the window
for it was opened. -/
theorem onlyShows_editFile (h : ws.Distinct) (w : World) (path : Path) :
  (ws.editFile w path).2.2.windows = ws.windows ∨ ws.opened.OnlyShows (ws.editFile w path).2.2
  := by
  rcases editFile_cases w ws path with
    ⟨e, -, he⟩ | ⟨why, log, he⟩ | ⟨resolved, number, ws', -, hload, he⟩
  · right
    rw [he]
    apply onlyShows_of_windows rfl
  · left
    rw [he]
    exact windows_closed h
  · right
    rw [he]
    apply (onlyShows_of_windows (windows_load hload).1).trans
    apply onlyShows_showBuffer

/-! ### Jumps -/

/-- Since the windows were `ws₀`, the current one has got another history at most; or no split is
pending any more, and only the current window has changed, or a window was opened. -/
inductive Framed (ws₀ : Windows) (ws : Workspace) : Prop
  | still (history : History)
      (h : ws.windows = { ws₀ with current := { ws₀.current with history := history } })
  | settled (hpending : ws.splitPending = false) (h : ws₀.Frame ws.windows)

variable {ws₀ : Windows}

theorem framed_self (ws : Workspace) :
  Framed ws.windows ws
  := .still ws.window.history rfl

theorem Framed.frame (h : Framed ws₀ ws) :
  ws₀.Frame ws.windows
  := by
  cases h with
  | still history h => exact .stay { ws₀.current with history := history } rfl h
  | settled hpending h => exact h

theorem Framed.of_windows (h : Framed ws₀ ws) (hwindows : ws'.windows = ws.windows)
    (hpending : ws'.splitPending = false) :
  Framed ws₀ ws'
  := by
  apply Framed.settled hpending
  rw [hwindows]
  exact h.frame

theorem Framed.of_onlyShows (h : Framed ws₀ ws) (hshows : ws.OnlyShows ws')
    (hpending : ws'.splitPending = false) :
  Framed ws₀ ws'
  := by
  obtain ⟨buffer, cursor, hwindows⟩ := hshows
  apply Framed.settled hpending
  rw [hwindows, window]
  cases h.frame with
  | stay w hid h =>
      rw [h]
      exact .stay { w with buffer := buffer, cursor := cursor } hid rfl
  | part new history h =>
      rw [h]
      exact .part { new with buffer := buffer, cursor := cursor } history rfl

theorem Framed.opened (h : Framed ws₀ ws) :
  Framed ws₀ ws.opened
  := by
  cases hsplit : ws.splitPending with
  | false =>
      rw [opened_of_not_pending hsplit]
      apply h.of_windows
      · rfl
      · rfl
  | true =>
      cases h with
      | still history h =>
          rw [opened_of_pending hsplit]
          apply Framed.settled rfl
          apply Windows.Frame.part _ history
          change ws.windows.openAbove _ = _
          rw [h]
          rfl
      | settled hpending h =>
          rw [hpending] at hsplit
          cases hsplit

theorem Framed.editFile (h : Framed ws₀ ws) (hdistinct : ws.Distinct) (w : World) (path : Path) :
  Framed ws₀ (ws.editFile w path).2.2
  := by
  have hpending := splitPending_editFile w ws path
  rcases onlyShows_editFile hdistinct w path with hwindows | hshows
  · apply h.of_windows hwindows hpending
  · apply h.opened.of_onlyShows hshows hpending

/-- The window that was current, and still is or was parted from, gets another history. -/
theorem Framed.withHistory (h : Framed ws₀ ws) (hdistinct : ws.Distinct) (history : History) :
  Framed ws₀ { ws with
    windows := ws.windows.update ws₀.current.id fun w => { w with history := history } }
  := by
  have hnodup := hdistinct.nodup
  cases h with
  | still old h =>
      rw [h] at hnodup
      apply Framed.still history
      dsimp only
      rw [h]
      apply Windows.update_current hnodup
  | settled hpending h =>
      refine .settled hpending ?_
      cases h with
      | stay w hid h =>
          rw [h] at hnodup
          rw [← hid]
          apply Windows.Frame.stay { w with history := history } hid
          dsimp only
          rw [h]
          apply Windows.update_current hnodup
      | part new old h =>
          rw [h] at hnodup
          apply Windows.Frame.part new history
          dsimp only
          rw [h]
          apply Windows.update_below hnodup

theorem Framed.share (h : Framed ws₀ ws) (history : History) :
  Framed ws₀ (ws.withWindow { ws.window with history := history })
  := by
  cases h with
  | still old h =>
      apply Framed.still history
      rw [withWindow, window, h]
  | settled hpending h =>
      refine .settled hpending ?_
      rw [withWindow, window]
      cases h with
      | stay w hid h =>
          rw [h]
          exact .stay { w with history := history } hid rfl
      | part new old h =>
          rw [h]
          exact .part { new with history := history } old rfl

end Workspace

end TagNavigator
