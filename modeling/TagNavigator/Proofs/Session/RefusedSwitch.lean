import TagNavigator.Proofs.Session.Attainable
import TagNavigator.Proofs.Workspace.Closing

/-!
# Refused switches

A switch of the current window to a file or to a saved position is refused for unsaved changes, for
a file that cannot be read, or for a buffer that is not listed.  By then a pending split may have
been made.  It is undone, and the windows and the buffers are what they were: the same windows in
the same order, the same one current, and every buffer with its lines, its flag and its cursor
(`unchanged_of_refused_switch`).
-/

namespace TagNavigator.Session

variable {s : Session}

/-- The editor of a window that is refused a position is left as it is. -/
theorem goTo_of_refused {id : Nat} {p : Position} {notice : Text} {s' : Session}
    (h : (editor id).goTo p s = (some notice, s')) :
  s' = s
  := by
  simp only [editor] at h
  split at h
  · cases h
  · cases h
    rfl

/-- In an attainable session a refused switch to a file leaves the windows and the buffers as they
were, and no split pending; a refused switch to a saved position leaves everything as it was.  A
window that has just been split off looks like the one that was split, and still it is the first one
among all windows that compares equal to itself; closing it takes it out, and makes the one that was
split current again if that one is asked for. -/
theorem unchanged_of_refused_switch (h : Attainable s) :
  (∀ w path why log ws', s.workspace.editFile w path = (.refused why, log, ws') →
      ws'.windows = s.workspace.windows ∧ ws'.buffers = s.workspace.buffers
        ∧ ws'.splitPending = false)
    ∧ (∀ id p notice s', (editor id).goTo p s = (some notice, s') →
      s'.workspace = s.workspace)
    ∧ s.workspace.split.window.LooksLike s.workspace.window
    ∧ s.workspace.split.windows.all.find? (·.equals s.workspace.split.window)
      = some s.workspace.split.window
    ∧ (∀ fallback, (s.workspace.split.close s.workspace.split.window.id fallback).windows.all
      = s.workspace.windows.all)
    ∧ (s.workspace.split.close s.workspace.split.window.id
      (some s.workspace.window.id)).windows = s.workspace.windows
  := by
  have hdistinct := h.distinct
  refine ⟨?_, ?_, Workspace.looksLike_split _, ?_, ?_, ?_⟩
  · intro w path why log ws' hrefused
    obtain ⟨hwindows, hbuffers⟩ := Workspace.editFile_of_refused hdistinct hrefused
    have hpending := Workspace.splitPending_editFile w s.workspace path
    rw [hrefused] at hpending
    exact ⟨hwindows, hbuffers, hpending⟩
  · intro id p notice s' hrefused
    rw [goTo_of_refused hrefused]
  · exact Windows.find?_equals hdistinct.split.nodup (Windows.current_mem_all _)
  · intro fallback
    exact (Workspace.all_close_split hdistinct fallback).2
  · exact Windows.close_openAbove hdistinct.nodup _

/-- A window with unsaved changes and a split pending is refused the other file, the buffer that is
shown nowhere and the one that was never there.  A window without them is refused the file that is
not there. -/
theorem unchanged_of_refused_switch_pending :
  let s := (start twoFiles {}).runAll [.act (.edit ⟨.slash, [['b']]⟩),
    .act (.edit ⟨.slash, [['a']]⟩), .act (.setCursor ⟨2, 1⟩), .act (.setPending true)]
  let s' := s.runAll [.flag 2 true]
  (s'.workspace.editFile twoFiles ⟨.slash, [['b']]⟩).1 = .refused .modified
    ∧ (s'.workspace.editFile twoFiles ⟨.slash, [['b']]⟩).2.2.windows = s'.workspace.windows
    ∧ (s.workspace.editFile twoFiles ⟨.slash, [['c']]⟩).1
      = .refused (.unreadable ⟨.slash, [['c']]⟩)
    ∧ (s.workspace.editFile twoFiles ⟨.slash, [['c']]⟩).2.2.windows = s.workspace.windows
    ∧ ((editor 0).goTo ⟨some 1, 1, 0⟩ s').1 = some SwitchRefusal.modified.message
    ∧ ((editor 0).goTo ⟨some 1, 1, 0⟩ s').2.workspace = s'.workspace
    ∧ ((editor 0).goTo ⟨some 7, 1, 0⟩ s').1 = some (SwitchRefusal.noBuffer 7).message
    ∧ ((editor 0).goTo ⟨some 7, 1, 0⟩ s').2.workspace = s'.workspace
  := by
  intro s s'
  have hs : Attainable s := (Attainable.start _ _).runAll _
  have hs' : Attainable s' := hs.runAll _
  obtain ⟨hedit, -⟩ := unchanged_of_refused_switch hs
  obtain ⟨hedit', hgo, -⟩ := unchanged_of_refused_switch hs'
  have hmodified : (s'.workspace.editFile twoFiles ⟨.slash, [['b']]⟩).1 = .refused .modified := by
    decide +kernel
  have hunreadable : (s.workspace.editFile twoFiles ⟨.slash, [['c']]⟩).1
      = .refused (.unreadable ⟨.slash, [['c']]⟩) := by
    decide +kernel
  have hkept : ((editor 0).goTo ⟨some 1, 1, 0⟩ s').1 = some SwitchRefusal.modified.message := by
    decide +kernel
  have hunknown : ((editor 0).goTo ⟨some 7, 1, 0⟩ s').1
      = some (SwitchRefusal.noBuffer 7).message := by
    decide +kernel
  refine ⟨hmodified, ?_, hunreadable, ?_, hkept, ?_, hunknown, ?_⟩
  · exact (hedit' _ _ _ _ _ (Prod.ext hmodified rfl)).1
  · exact (hedit _ _ _ _ _ (Prod.ext hunreadable rfl)).1
  · exact hgo _ _ _ _ (Prod.ext hkept rfl)
  · exact hgo _ _ _ _ (Prod.ext hunknown rfl)

end TagNavigator.Session
