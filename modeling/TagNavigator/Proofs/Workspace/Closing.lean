import TagNavigator.Proofs.Workspace.Switch

/-!
# Closing a window

Right after a split, two windows show the same buffer at the same cursor and have equal histories.
A comparison still tells them apart, since the history that a window owns is one of its own and goes
with its identity (`Window.equals`).  So closing a window, which looks for it among all windows and
takes the first one that compares equal out of the list, takes out that window (`all_close`).
-/

namespace TagNavigator

/-- The windows look alike: they show the same buffer at the same cursor, and their histories have
the same entries. -/
def Window.LooksLike (w w' : Window) : Prop :=
  w.buffer = w'.buffer ∧ w.cursor = w'.cursor ∧ w.history = w'.history

/-- The windows compare equal: they show the same buffer at the same cursor, and they own the same
history.  No two windows own one history, so that the owner's identity stands for it. -/
def Window.equals (w w' : Window) : Bool :=
  w.buffer == w'.buffer && w.cursor == w'.cursor && w.id == w'.id

theorem Window.equals_self (w : Window) :
  w.equals w = true
  := by
  simp [equals]

theorem Window.id_of_equals {w w' : Window} (h : w.equals w' = true) :
  w.id = w'.id
  := by
  simp only [equals, Bool.and_eq_true, beq_iff_eq] at h
  exact h.2

namespace Windows

variable {ws : Windows} {w : Window}

/-- With distinct identities, a window compares equal to itself only. -/
theorem equals_iff (h : ws.ids.Nodup) (hw : w ∈ ws.all) {w' : Window} (hw' : w' ∈ ws.all) :
  w'.equals w = true ↔ w' = w
  := by
  constructor
  · intro he
    exact eq_of_id_eq h hw' hw (Window.id_of_equals he)
  · rintro rfl
    exact w'.equals_self

/-- The first window that compares equal to a window is that window. -/
theorem find?_equals (h : ws.ids.Nodup) (hw : w ∈ ws.all) :
  ws.all.find? (·.equals w) = some w
  := by
  cases hfind : ws.all.find? (·.equals w) with
  | none =>
      have hself := List.find?_eq_none.mp hfind w hw
      exact absurd w.equals_self hself
  | some w' =>
      have hequal := List.find?_some hfind
      rw [(equals_iff h hw (List.mem_of_find?_eq_some hfind)).mp hequal]

/-- With distinct identities, no window before or after a window has its identity. -/
theorem id_ne_of_nodup {before after : List Window}
    (h : ((before ++ w :: after).map (·.id)).Nodup) :
  (∀ w' ∈ before, w'.id ≠ w.id) ∧ ∀ w' ∈ after, w'.id ≠ w.id
  := by
  rw [List.map_append, List.map_cons, List.nodup_append] at h
  obtain ⟨-, hafter, hbefore⟩ := h
  constructor
  · intro w' hw'
    exact hbefore _ (List.mem_map_of_mem hw') _ List.mem_cons_self
  · intro w' hw' hid
    apply (List.nodup_cons.mp hafter).1
    rw [← hid]
    exact List.mem_map_of_mem hw'

theorem filter_id_ne {before after : List Window}
    (h : ((before ++ w :: after).map (·.id)).Nodup) :
  (before ++ w :: after).filter (·.id != w.id) = before ++ after
  := by
  obtain ⟨hbefore, hafter⟩ := id_ne_of_nodup h
  rw [List.filter_append, List.filter_cons_of_neg (by simp), List.filter_eq_self.mpr,
    List.filter_eq_self.mpr]
  · intro w' hw'
    exact bne_iff_ne.mpr (hafter w' hw')
  · intro w' hw'
    exact bne_iff_ne.mpr (hbefore w' hw')

/-- Taking out the first window that compares equal to a window takes out that window. -/
theorem eraseP_equals {before after : List Window}
    (h : ((before ++ w :: after).map (·.id)).Nodup) :
  (before ++ w :: after).eraseP (·.equals w) = before ++ after
  := by
  have hbefore : ∀ w' ∈ before, ¬ w'.equals w = true :=
    fun w' hw' he => (id_ne_of_nodup h).1 w' hw' (Window.id_of_equals he)
  rw [List.eraseP_append_right _ hbefore, List.eraseP_cons, w.equals_self]
  rfl

/-- Closing a window that is not the only one takes the first window that compares equal to it out
of the list. -/
theorem all_close (h : ws.ids.Nodup) (hw : w ∈ ws.all) (hmore : 1 < ws.all.length)
    (fallback : Option Nat) :
  (ws.close w.id fallback).all = ws.all.eraseP (·.equals w)
  := by
  by_cases hid : ws.current.id = w.id
  · obtain rfl := eq_of_id_eq h (current_mem_all ws) hw hid
    have herase : ws.all.eraseP (·.equals ws.current) = ws.above ++ ws.below := eraseP_equals h
    rw [herase, close, if_pos rfl]
    dsimp only
    split
    next hnone =>
      -- without a window before or after it the current one is the only one
      obtain ⟨habove, hbelow⟩ := List.append_eq_nil_iff.mp hnone
      simp [all, habove, hbelow] at hmore
    next first others hrest =>
      rw [hrest]
      split
      · apply all_focus
      · rfl
  · obtain ⟨before, after, hall⟩ := List.append_of_mem hw
    have hids : ((before ++ w :: after).map (·.id)).Nodup := by
      rw [← hall]
      exact h
    have hkept : (ws.current.id != w.id) = true := bne_iff_ne.mpr hid
    have hfilter : (ws.close w.id fallback).all = ws.all.filter (·.id != w.id) := by
      rw [close, if_neg hid, all, all, List.filter_append, List.filter_cons, if_pos hkept]
    rw [hfilter, hall, filter_id_ne hids, eraseP_equals hids]

end Windows

namespace Workspace

variable {ws : Workspace}

/-- The window that a split opens looks like the one that was split. -/
theorem looksLike_split (ws : Workspace) :
  ws.split.window.LooksLike ws.window
  := ⟨rfl, rfl, rfl⟩

/-- Closing the window that a split has opened takes that window out, and leaves the windows there
were. -/
theorem all_close_split (h : ws.Distinct) (fallback : Option Nat) :
  (ws.split.close ws.split.window.id fallback).windows.all
      = ws.split.windows.all.eraseP (·.equals ws.split.window)
    ∧ (ws.split.close ws.split.window.id fallback).windows.all = ws.windows.all
  := by
  have hmem : ws.split.window ∈ ws.split.windows.all := Windows.current_mem_all _
  have hmore : 1 < ws.split.windows.all.length := by
    simp only [split, Windows.openAbove, Windows.all, List.length_append, List.length_cons]
    omega
  have hclose := Windows.all_close h.split.nodup hmem hmore fallback
  refine ⟨hclose, hclose.trans ?_⟩
  exact Windows.eraseP_equals h.split.nodup

end Workspace

end TagNavigator
