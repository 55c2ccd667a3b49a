import TagNavigator.Proofs.Workspace.Windows
import TagNavigator.Workspace.Basic

/-!
# Switches of the current window

What a switch to a file can come to, and that the identities of the windows stay distinct whatever
the workspace does.  A refused switch gives back the windows and the buffers, also when it has
opened a window on the way (`editFile_of_refused`).
-/

namespace TagNavigator.Workspace

/-- No two windows have the same identity, and the identity of the next window is a new one. -/
structure Distinct (ws : Workspace) : Prop where
  nodup : ws.windows.ids.Nodup
  fresh : ∀ id ∈ ws.windows.ids, id < ws.nextWindow

variable {ws : Workspace}

/-! ### Operations that keep the identities -/

theorem distinct_start (historySize : Int) :
  (start historySize).Distinct
  := by
  constructor
  · apply List.nodup_singleton
  · intro id hid
    obtain rfl := List.mem_singleton.mp hid
    exact Nat.zero_lt_one

theorem Distinct.of_ids (h : ws.Distinct) {ws' : Workspace}
    (hids : ws'.windows.ids = ws.windows.ids) (hnext : ws'.nextWindow = ws.nextWindow) :
  ws'.Distinct
  := by
  constructor
  · rw [hids]
    exact h.nodup
  · rw [hids, hnext]
    exact h.fresh

/-- A window that is asked for, or not any more, changes nothing about the windows there are. -/
theorem Distinct.withPending (h : ws.Distinct) (value : Bool) :
  { ws with splitPending := value }.Distinct
  := by
  apply h.of_ids <;> rfl

theorem ids_withWindow {w : Window} (hid : w.id = ws.window.id) :
  (ws.withWindow w).windows.ids = ws.windows.ids
  := by
  simp [withWindow, Windows.ids, Windows.all, hid, window]

theorem windows_saveCursor (ws : Workspace) :
  ws.saveCursor.windows = ws.windows
  := by
  rw [saveCursor]
  split <;> rfl

theorem nextWindow_saveCursor (ws : Workspace) :
  ws.saveCursor.nextWindow = ws.nextWindow
  := by
  rw [saveCursor]
  split <;> rfl

theorem Distinct.withWindow (h : ws.Distinct) {w : Window} (hid : w.id = ws.window.id) :
  (ws.withWindow w).Distinct
  := by
  apply h.of_ids (ids_withWindow hid)
  rfl

theorem Distinct.setCursor (h : ws.Distinct) (c : Cursor) :
  (ws.setCursor c).Distinct
  := by
  apply h.withWindow
  rfl

theorem Distinct.saveCursor (h : ws.Distinct) :
  ws.saveCursor.Distinct
  := by
  apply h.of_ids
  · rw [windows_saveCursor]
  · rw [nextWindow_saveCursor]

theorem Distinct.showBuffer (h : ws.Distinct) (number : Nat) :
  (ws.showBuffer number).Distinct
  := by
  rw [Workspace.showBuffer]
  split
  · exact h
  · apply h.saveCursor.withWindow
    rfl

theorem Distinct.detach (h : ws.Distinct) :
  ws.detach.Distinct
  := by
  apply h.saveCursor.withWindow
  rfl

theorem Distinct.split (h : ws.Distinct) :
  ws.split.Distinct
  := by
  have hperm : ws.split.windows.ids.Perm (ws.nextWindow :: ws.windows.ids) :=
    Windows.ids_openAbove_perm _ _
  constructor
  · apply hperm.nodup_iff.mpr
    apply List.nodup_cons.mpr
    constructor
    · intro hmem
      exact absurd (h.fresh _ hmem) (Nat.lt_irrefl _)
    · exact h.nodup
  · intro id hid
    rcases List.mem_cons.mp (hperm.mem_iff.mp hid) with rfl | hid
    · exact Nat.lt_succ_self _
    · exact Nat.lt_succ_of_lt (h.fresh _ hid)

theorem Distinct.close (h : ws.Distinct) (id : Nat) (fallback : Option Nat) :
  (ws.close id fallback).Distinct
  := by
  have hsublist := (Windows.all_close_sublist ws.windows id fallback).map (·.id)
  constructor
  · exact hsublist.nodup h.nodup
  · intro i hi
    apply h.fresh _ (hsublist.mem hi)

theorem Distinct.focus (h : ws.Distinct) (i : Nat) :
  { ws with windows := ws.windows.focus i }.Distinct
  := by
  apply h.of_ids
  · rw [Windows.ids, Windows.all_focus]
    rfl
  · rfl

/-! ### Switches to files -/

/-- The workspace in which a switch to a file is made: with a new window if a split is pending. -/
def opened (ws : Workspace) : Workspace :=
  if ws.splitPending then { ws with splitPending := false }.split
  else { ws with splitPending := false }

theorem editFile_eq (w : World) (ws : Workspace) (path : Path) :
  ws.editFile w path
    = match w.resolve path with
      | .error e => (.broken e, [], ws.opened)
      | .ok resolved =>
        match ws.opened.switchTo w path resolved with
        | (.refused why, log, ws') =>
          (.refused why, log,
            if ws.splitPending then ws'.close ws'.window.id (some ws.window.id) else ws')
        | outcome => outcome
  := rfl

theorem Distinct.opened (h : ws.Distinct) :
  ws.opened.Distinct
  := by
  have hpending : { ws with splitPending := false }.Distinct := by
    apply h.of_ids <;> rfl
  rw [Workspace.opened]
  split
  · exact hpending.split
  · exact hpending

/-- The number of the buffer for a file is that of the listed buffer there is, or a new one. -/
theorem load_eq_ok_iff {w : World} {path resolved : Path} {number : Nat} {ws' : Workspace} :
  ws.load w path resolved = .ok (number, ws')
    ↔ (∃ b, ws.buffers.find? resolved = some b ∧ number = b.number ∧ ws' = ws)
      ∨ (ws.buffers.find? resolved = none ∧ ∃ t, w.readText path = .ok t
        ∧ number = ws.buffers.next
        ∧ ws' = { ws with buffers := (ws.buffers.add resolved (Text.bufferLines t)).2 })
  := by
  rw [load]
  cases hfind : ws.buffers.find? resolved with
  | some b =>
      simp [eq_comm]
  | none =>
      cases hread : w.readText path with
      | error e => simp
      | ok t =>
          simp [Buffers.add, eq_comm]

theorem windows_load {w : World} {path resolved : Path} {number : Nat} {ws' : Workspace}
    (h : ws.load w path resolved = .ok (number, ws')) :
  ws'.windows = ws.windows ∧ ws'.nextWindow = ws.nextWindow
  := by
  rcases load_eq_ok_iff.mp h with ⟨b, -, -, rfl⟩ | ⟨-, t, -, -, rfl⟩
  · exact ⟨rfl, rfl⟩
  · exact ⟨rfl, rfl⟩

/-- A switch is refused and changes nothing, or it shows the buffer of the file. -/
theorem switchTo_cases (w : World) (ws : Workspace) (path resolved : Path) :
  (∃ why log, ws.switchTo w path resolved = (.refused why, log, ws))
    ∨ ∃ number ws', ws.load w path resolved = .ok (number, ws')
      ∧ ws.switchTo w path resolved = (.made, [], ws'.showBuffer number)
  := by
  rw [switchTo]
  split
  · left
    exact ⟨_, _, rfl⟩
  · cases hload : ws.load w path resolved with
    | error e =>
        left
        exact ⟨_, _, rfl⟩
    | ok loaded =>
        right
        exact ⟨_, _, rfl, rfl⟩

theorem opened_of_pending (h : ws.splitPending = true) :
  ws.opened = { ws with splitPending := false }.split
  := by
  rw [opened, if_pos h]

theorem opened_of_not_pending (h : ws.splitPending = false) :
  ws.opened = { ws with splitPending := false }
  := by
  rw [opened, if_neg (by simp [h])]

/-- The workspace after a refused switch: a window that was opened for it is closed again. -/
def closed (ws : Workspace) : Workspace :=
  if ws.splitPending then ws.opened.close ws.opened.window.id (some ws.window.id) else ws.opened

theorem windows_closed (h : ws.Distinct) :
  ws.closed.windows = ws.windows
  := by
  by_cases hpending : ws.splitPending = true
  · rw [closed, if_pos hpending, opened_of_pending hpending]
    apply Windows.close_openAbove h.nodup
  · rw [closed, if_neg hpending, opened_of_not_pending (eq_false_of_ne_true hpending)]

theorem buffers_closed (ws : Workspace) :
  ws.closed.buffers = ws.buffers
  := by
  by_cases hpending : ws.splitPending = true
  · rw [closed, if_pos hpending, opened_of_pending hpending]
    rfl
  · rw [closed, if_neg hpending, opened_of_not_pending (eq_false_of_ne_true hpending)]

theorem Distinct.closed (h : ws.Distinct) :
  ws.closed.Distinct
  := by
  rw [Workspace.closed]
  split
  · apply h.opened.close
  · exact h.opened

/-- A switch to a file breaks off before it shows anything, is refused, or shows the buffer of the
file. -/
theorem editFile_cases (w : World) (ws : Workspace) (path : Path) :
  (∃ e, w.resolve path = .error e ∧ ws.editFile w path = (.broken e, [], ws.opened))
    ∨ (∃ why log, ws.editFile w path = (.refused why, log, ws.closed))
    ∨ ∃ resolved number ws', w.resolve path = .ok resolved
      ∧ ws.opened.load w path resolved = .ok (number, ws')
      ∧ ws.editFile w path = (.made, [], ws'.showBuffer number)
  := by
  rw [editFile_eq]
  cases hresolve : w.resolve path with
  | error e =>
      left
      exact ⟨e, rfl, rfl⟩
  | ok resolved =>
      right
      dsimp only
      rcases switchTo_cases w ws.opened path resolved with
        ⟨why, log, hswitch⟩ | ⟨number, ws', hload, hswitch⟩
      · left
        rw [hswitch]
        exact ⟨why, log, rfl⟩
      · right
        rw [hswitch]
        exact ⟨resolved, number, ws', rfl, hload, rfl⟩

/-- A refused switch leaves the windows and the buffers as they were. -/
theorem editFile_of_refused (h : ws.Distinct) {w : World} {path : Path} {why : SwitchRefusal}
    {log : List LogLine} {ws' : Workspace} (he : ws.editFile w path = (.refused why, log, ws')) :
  ws'.windows = ws.windows ∧ ws'.buffers = ws.buffers
  := by
  rcases editFile_cases w ws path with
    ⟨e, -, hb⟩ | ⟨why', log', hr⟩ | ⟨resolved, number, ws'', -, -, hm⟩
  · rw [hb] at he
    cases he
  · rw [hr] at he
    cases he
    exact ⟨windows_closed h, buffers_closed ws⟩
  · rw [hm] at he
    cases he

theorem Distinct.editFile (h : ws.Distinct) (w : World) (path : Path) :
  (ws.editFile w path).2.2.Distinct
  := by
  rcases editFile_cases w ws path with
    ⟨e, -, he⟩ | ⟨why, log, he⟩ | ⟨resolved, number, ws', -, hload, he⟩
  · rw [he]
    exact h.opened
  · rw [he]
    exact h.closed
  · rw [he]
    obtain ⟨hwindows, hnext⟩ := windows_load hload
    apply Distinct.showBuffer
    apply h.opened.of_ids
    · rw [hwindows]
    · exact hnext

/-! ### The buffer that is shown -/

theorem window_showBuffer (ws : Workspace) (number : Nat) :
  (ws.showBuffer number).window.buffer = some number
    ∧ (ws.showBuffer number).window.id = ws.window.id
  := by
  rw [showBuffer]
  split
  next hbuffer => exact ⟨hbuffer, rfl⟩
  · constructor
    · rfl
    · change ws.saveCursor.windows.current.id = _
      rw [windows_saveCursor]
      rfl

theorem showBuffer_of_shown {ws : Workspace} {number : Nat} (h : ws.window.buffer = some number) :
  ws.showBuffer number = ws
  := if_pos h

theorem splitPending_saveCursor (ws : Workspace) :
  ws.saveCursor.splitPending = ws.splitPending
  := by
  rw [saveCursor]
  split <;> rfl

theorem splitPending_showBuffer (ws : Workspace) (number : Nat) :
  (ws.showBuffer number).splitPending = ws.splitPending
  := by
  rw [showBuffer]
  split
  · rfl
  · apply splitPending_saveCursor

theorem next_showBuffer (ws : Workspace) (number : Nat) :
  (ws.showBuffer number).buffers.next = ws.buffers.next
  := by
  rw [showBuffer]
  split
  · rfl
  · change ws.saveCursor.buffers.next = _
    rw [saveCursor]
    split <;> rfl

/-- The window in which a file is shown is a new one if a split is pending. -/
theorem id_window_opened (ws : Workspace) :
  ws.opened.window.id = if ws.splitPending then ws.nextWindow else ws.window.id
  := by
  rw [opened]
  split <;> rfl

theorem buffers_opened (ws : Workspace) :
  ws.opened.buffers = ws.buffers
  := by
  rw [opened]
  split <;> rfl

theorem splitPending_opened (ws : Workspace) :
  ws.opened.splitPending = false
  := by
  rw [opened]
  split <;> rfl

theorem splitPending_closed (ws : Workspace) :
  ws.closed.splitPending = false
  := by
  rw [closed]
  split
  · apply splitPending_opened
  · apply splitPending_opened

/-- If the current window keeps its identity, then none is opened. -/
theorem Distinct.not_pending (h : ws.Distinct) (hid : ws.opened.window.id = ws.window.id) :
  ws.splitPending = false
  := by
  apply eq_false_of_ne_true
  intro hpending
  rw [id_window_opened, if_pos hpending] at hid
  have hfresh := h.fresh ws.window.id (List.mem_map_of_mem (Windows.current_mem_all ws.windows))
  omega

section

variable {w : World} {path resolved : Path} {number : Nat} {ws' : Workspace}

theorem id_window_showBuffer_of_load (hload : ws.load w path resolved = .ok (number, ws')) :
  (ws'.showBuffer number).window.id = ws.window.id
  := by
  rw [(window_showBuffer ws' number).2, window, (windows_load hload).1]
  rfl

theorem splitPending_load (hload : ws.load w path resolved = .ok (number, ws')) :
  ws'.splitPending = ws.splitPending
  := by
  rcases load_eq_ok_iff.mp hload with ⟨b, -, -, rfl⟩ | ⟨-, t, -, -, rfl⟩
  · rfl
  · rfl

/-- If no buffer was made for a file, then there was one. -/
theorem find?_of_load (hload : ws.load w path resolved = .ok (number, ws'))
    (hnext : ws'.buffers.next = ws.buffers.next) :
  ∃ b, ws.buffers.find? resolved = some b ∧ b.number = number
  := by
  rcases load_eq_ok_iff.mp hload with ⟨b, hfind, rfl, -⟩ | ⟨-, t, -, -, rfl⟩
  · exact ⟨b, hfind, rfl⟩
  · change ws.buffers.next + 1 = _ at hnext
    exact absurd hnext (Nat.succ_ne_self _)

end

/-- After a switch to a file, whatever came of it, no split is pending. -/
theorem splitPending_editFile (w : World) (ws : Workspace) (path : Path) :
  (ws.editFile w path).2.2.splitPending = false
  := by
  rcases editFile_cases w ws path with
    ⟨e, -, he⟩ | ⟨why, log, he⟩ | ⟨resolved, number, ws', -, hload, he⟩
  · rw [he]
    apply splitPending_opened
  · rw [he]
    apply splitPending_closed
  · rw [he]
    dsimp only
    rw [splitPending_showBuffer, splitPending_load hload]
    apply splitPending_opened

/-! ### Saved positions -/

/-- Going to a saved position moves the cursor after the window has kept its buffer, has left it for
none, or has left it for the listed buffer of the position. -/
theorem goTo_cases {p : Position} {ws' : Workspace} (h : ws.goTo p = .ok ws') :
  ∃ shown, ws' = shown.setCursor ⟨p.line, p.column⟩
    ∧ ((ws.window.buffer.map (fun n : Nat => (n : Int)) = p.buffer ∧ shown = ws)
      ∨ (p.buffer = none ∧ ws.mayShow none = true ∧ shown = ws.detach)
      ∨ ∃ number b, p.buffer = some number ∧ ws.buffers.listed? number = some b
        ∧ ws.mayShow (some b.number) = true ∧ shown = ws.showBuffer b.number)
  := by
  rw [goTo] at h
  cases hswitch : ws.switchBuffer p.buffer with
  | error why =>
      rw [hswitch] at h
      cases h
  | ok shown =>
      rw [hswitch] at h
      cases h
      refine ⟨shown, rfl, ?_⟩
      cases hbuffer : p.buffer with
      | none =>
          simp only [hbuffer, switchBuffer] at hswitch
          split at hswitch
          next hnone =>
            cases hswitch
            left
            rw [Option.isNone_iff_eq_none.mp hnone]
            exact ⟨rfl, rfl⟩
          · split at hswitch
            next hmay =>
              cases hswitch
              right
              left
              exact ⟨rfl, hmay, rfl⟩
            · cases hswitch
      | some number =>
          simp only [hbuffer, switchBuffer] at hswitch
          split at hswitch
          next hsame =>
            cases hswitch
            left
            rw [← hsame]
            cases ws.window.buffer <;> exact ⟨rfl, rfl⟩
          · split at hswitch
            · cases hswitch
            next b hlisted =>
              split at hswitch
              next hmay =>
                cases hswitch
                right
                right
                exact ⟨number, b, rfl, hlisted, hmay, rfl⟩
              · cases hswitch

theorem Distinct.goTo (h : ws.Distinct) {p : Position} {ws' : Workspace}
    (hgo : ws.goTo p = .ok ws') :
  ws'.Distinct
  := by
  obtain ⟨shown, rfl, ⟨-, rfl⟩ | ⟨-, -, rfl⟩ | ⟨number, b, -, -, -, rfl⟩⟩ := goTo_cases hgo
  · apply h.setCursor
  · apply h.detach.setCursor
  · apply (h.showBuffer _).setCursor

end TagNavigator.Workspace
