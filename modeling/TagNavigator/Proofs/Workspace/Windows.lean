import Mathlib.Data.List.Nodup
import TagNavigator.Workspace.Window

/-!
# Windows and their identities

Changing a window, making another one current, opening one and closing one, said of the list of all
windows.  When the identities are distinct, a change of the windows with an identity is a change of
one window, and closing a window that was just opened gives back the windows there were.
-/

namespace TagNavigator.Windows

/-- The identities of the windows, in their order. -/
def ids (ws : Windows) : List Nat := ws.all.map (·.id)

variable {ws : Windows}

theorem current_mem_all (ws : Windows) :
  ws.current ∈ ws.all
  := by
  apply List.mem_append_right
  apply List.mem_cons_self

theorem all_focus (ws : Windows) (i : Nat) :
  (ws.focus i).all = ws.all
  := by
  rw [focus]
  split
  · rfl
  next w below hdrop =>
    rw [all, ← hdrop]
    apply List.take_append_drop

theorem all_map (ws : Windows) (change : Window → Window) :
  (ws.map change).all = ws.all.map change
  := by
  simp [all, map]

/-! ### Changing a window -/

theorem map_map (change change' : Window → Window) :
  (ws.map change).map change' = ws.map (change' ∘ change)
  := by
  simp [map]

theorem map_eq_self {change : Window → Window} (h : ∀ w ∈ ws.all, change w = w) :
  ws.map change = ws
  := by
  have hlist {l : List Window} (hl : ∀ w ∈ l, w ∈ ws.all) : l.map change = l := by
    rw [List.map_congr_left (g := id) fun w hw => h w (hl w hw), List.map_id]
  obtain ⟨above, current, below⟩ := ws
  rw [map, hlist, hlist, h current (current_mem_all _)]
  · intro w hw
    apply List.mem_append_right
    apply List.mem_cons_of_mem _ hw
  · intro w hw
    apply List.mem_append_left _ hw

/-- A change that leaves all windows with the identity as they are changes nothing. -/
theorem update_eq_self {id : Nat} {change : Window → Window}
    (h : ∀ w ∈ ws.all, w.id = id → change w = w) :
  ws.update id change = ws
  := by
  apply map_eq_self
  intro w hw
  split
  next hid => exact h w hw hid
  · rfl

theorem update_update {id : Nat} {change change' : Window → Window}
    (h : ∀ w, (change w).id = w.id) :
  (ws.update id change).update id change' = ws.update id (change' ∘ change)
  := by
  rw [update, update, map_map, update]
  congr 1
  funext w
  by_cases hid : w.id = id
  · simp only [Function.comp_apply, if_pos hid, h]
  · simp only [Function.comp_apply, if_neg hid]

theorem ids_update {id : Nat} {change : Window → Window} (h : ∀ w, (change w).id = w.id) :
  (ws.update id change).ids = ws.ids
  := by
  rw [ids, update, all_map, List.map_map]
  apply List.map_congr_left
  intro w _
  rw [Function.comp_apply]
  split
  · exact h w
  · rfl

/-- With distinct identities, windows with the same identity are the same. -/
theorem eq_of_id_eq (h : ws.ids.Nodup) {w w' : Window} (hw : w ∈ ws.all) (hw' : w' ∈ ws.all)
    (hid : w.id = w'.id) :
  w = w'
  := by
  apply List.inj_on_of_nodup_map h hw hw' hid

/-! ### Opening and closing -/

theorem ids_openAbove_perm (ws : Windows) (w : Window) :
  (ws.openAbove w).ids.Perm (w.id :: ws.ids)
  := by
  simp only [ids, openAbove, all, List.map_append, List.map_cons]
  apply List.perm_middle

/-- The first window with the identity of the current one is the current one. -/
theorem findIdx?_current (h : ws.ids.Nodup) :
  ws.all.findIdx? (·.id == ws.current.id) = some ws.above.length
  := by
  have habove : ∀ w ∈ ws.above, (w.id == ws.current.id) = false := by
    intro w hw
    rw [ids, all, List.map_append, List.nodup_append] at h
    obtain ⟨-, -, hne⟩ := h
    apply beq_false_of_ne
    apply hne _ (List.mem_map_of_mem hw)
    exact List.mem_cons_self
  rw [all, List.findIdx?_append, List.findIdx?_eq_none_iff.mpr habove, List.findIdx?_cons]
  simp

/-- Closing a window that was just opened gives back the windows there were. -/
theorem close_openAbove (h : ws.ids.Nodup) (w : Window) :
  (ws.openAbove w).close w.id (some ws.current.id) = ws
  := by
  have hplace := findIdx?_current h
  obtain ⟨above, current, below⟩ := ws
  simp only [openAbove, close, if_true]
  split
  next hnil => simp at hnil
  next first others hrest =>
    have hall : above ++ current :: below = first :: others := hrest
    simp only [all] at hplace
    simp only [Option.bind_some, focus, all, List.nil_append, ← hall, hplace, List.drop_left,
      List.take_left]

theorem all_close_sublist (ws : Windows) (id : Nat) (fallback : Option Nat) :
  (ws.close id fallback).all.Sublist ws.all
  := by
  obtain ⟨above, current, below⟩ := ws
  have hrest : (above ++ below).Sublist (above ++ current :: below) := by
    apply List.Sublist.append_left
    apply List.sublist_cons_self
  rw [close]
  dsimp only
  split
  · split
    · apply List.Sublist.refl
    next first others hothers =>
      rw [hothers] at hrest
      split
      · rw [all_focus]
        exact hrest
      · exact hrest
  · apply List.Sublist.append List.filter_sublist
    apply List.Sublist.cons_cons
    apply List.filter_sublist

end TagNavigator.Windows
