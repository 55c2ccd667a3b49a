import TagNavigator.Proofs.Session.Attainable
import TagNavigator.Proofs.Tag.Location

/-!
# Jumps that are not made

A jump to a tag that is refused leaves the windows, their histories and the buffers as they were.  A
jump that breaks off does not: the history keeps the entry that was recorded for it, without the
entries that made room for it, and a switch that was made before stays.  `jump_unchanged_iff` says
exactly when nothing of this shows.
-/

namespace TagNavigator.Session

/-- The windows, with their histories, and the buffers are the same in both sessions. -/
structure Unchanged (s s' : Session) : Prop where
  windows : s'.workspace.windows = s.workspace.windows
  buffers : s'.workspace.buffers = s.workspace.buffers

/-- A jump to the tag that breaks off does no harm: the entry that is recorded for it is already the
last one and stands just above the index, and if the lookup gives a location, then no window is
opened for it and the current window shows its file already, with the cursor at the start. -/
structure Harmless (splitting : Bool) (name : Text) (s : Session) : Prop where
  recorded : s.workspace.window.history.record ⟨name, Workspace.positionOf s.workspace.window⟩
    = s.workspace.window.history
  shown : ∀ lookup l, Lookup.find s.world s.options name s.workspace.currentFile = .ok lookup →
    lookup.result = .ok l → splitting = false ∧ s.workspace.window.cursor = Cursor.start
      ∧ ∃ b, s.workspace.buffers.find? (l.path.resolve s.world.cwd) = some b
        ∧ s.workspace.window.buffer = some b.number

variable {s : Session}

/-! ### Stages of a jump -/

theorem placeCursor_of_error {o : Options} {l : Location} {ws ws' : Workspace} {log : List LogLine}
    {e : Fault} (h : placeCursor o l ws = (ws', log, .error e)) :
  ws' = ws.setCursor Cursor.start
  := by
  rw [placeCursor] at h
  split at h
  · cases h
  · dsimp only at h
    split at h
    · cases h
      rfl
    · cases h
    · cases h

/-- A visit is refused and changes nothing, or is made, or breaks off after the file was shown. -/
theorem visit_cases (hs : s.workspace.Distinct) {l : Location} {resolved : Path}
    (hresolve : s.world.resolve l.path = .ok resolved) :
  (∃ notice s', s.visit l = (.refused notice, s') ∧ Unchanged s s')
    ∨ (∃ s', s.visit l = (.made, s'))
    ∨ ∃ e s' number ws, s.visit l = (.broken e, s')
      ∧ s.workspace.opened.load s.world l.path resolved = .ok (number, ws)
      ∧ s'.workspace = (ws.showBuffer number).setCursor Cursor.start
  := by
  rcases Workspace.editFile_cases s.world s.workspace l.path with
    ⟨e, he, -⟩ | ⟨why, log, he⟩ | ⟨resolved', number, ws, hr, hload, he⟩
  · rw [hresolve] at he
    cases he
  · left
    rw [visit, he]
    exact ⟨_, _, rfl, Workspace.windows_closed hs, Workspace.buffers_closed _⟩
  · right
    rw [hresolve] at hr
    cases hr
    rw [visit, he]
    dsimp only
    cases hplace : placeCursor s.options l (ws.showBuffer number) with
    | mk ws' more =>
        obtain ⟨more, outcome⟩ := more
        cases outcome with
        | error e =>
            right
            exact ⟨_, _, _, _, rfl, hload, placeCursor_of_error hplace⟩
        | ok warning =>
            left
            exact ⟨_, rfl⟩

/-- What resolving a tag comes to: the lookup breaks off, something is refused and nothing changes,
the jump is made, or it breaks off after the file was shown. -/
theorem resolve_cases (hs : s.workspace.Distinct) (name : Text) :
  (∃ e, Lookup.find s.world s.options name s.workspace.currentFile = .error e
      ∧ s.resolve name = (.broken e, s))
    ∨ (∃ notice s', s.resolve name = (.refused notice, s') ∧ Unchanged s s')
    ∨ (∃ s', s.resolve name = (.made, s'))
    ∨ ∃ lookup l e s' number ws,
      Lookup.find s.world s.options name s.workspace.currentFile = .ok lookup
      ∧ lookup.result = .ok l
      ∧ s.resolve name = (.broken e, s')
      ∧ s.workspace.opened.load s.world l.path (l.path.resolve s.world.cwd) = .ok (number, ws)
      ∧ s'.workspace = (ws.showBuffer number).setCursor Cursor.start
  := by
  cases hfind : Lookup.find s.world s.options name s.workspace.currentFile with
  | error e =>
      left
      rw [resolve, hfind]
      exact ⟨e, rfl, rfl⟩
  | ok lookup =>
      right
      have hquiet : ((s.logging lookup.log).notifyAll lookup.notices).workspace = s.workspace := by
        rw [workspace_notifyAll]
        rfl
      have hworld : ((s.logging lookup.log).notifyAll lookup.notices).world = s.world := by
        rw [world_notifyAll]
        rfl
      rw [resolve, hfind]
      dsimp only
      cases hresult : lookup.result with
      | error e =>
          left
          refine ⟨_, _, rfl, ?_⟩
          constructor
          · rw [hquiet]
          · rw [hquiet]
      | ok l =>
          have hpath := Lookup.resolve_of_find hfind hresult
          rw [← hworld] at hpath
          rcases visit_cases (hquiet ▸ hs) hpath with
            ⟨notice, s', hv, hunchanged⟩ | ⟨s', hv⟩ | ⟨e, s', number, ws, hv, hload, hws⟩
          · left
            refine ⟨notice, s', hv, ?_⟩
            constructor
            · rw [hunchanged.windows, hquiet]
            · rw [hunchanged.buffers, hquiet]
          · right
            left
            exact ⟨s', hv⟩
          · right
            right
            rw [hquiet, hworld] at hload
            exact ⟨lookup, l, e, s', number, ws, rfl, hresult, hv, hload, hws⟩

/-! ### Histories of the current window -/

theorem windows_withHistory (id : Nat) (h : History) (s : Session) :
  (s.withHistory id h).workspace.windows
    = s.workspace.windows.update id fun w => { w with history := h }
  := rfl

/-- A history that is replaced twice is replaced once. -/
theorem windows_withHistory_withHistory (id : Nat) (h h' : History) (s : Session) :
  ((s.withHistory id h).withHistory id h').workspace.windows
    = (s.withHistory id h').workspace.windows
  := by
  simp only [windows_withHistory]
  apply Windows.update_update
  intro w
  rfl

/-- If nothing has changed since a history was replaced, then nothing shows of that after it is
replaced again. -/
theorem Unchanged.windows_withHistory {id : Nat} {old : History} {s' : Session}
    (h : Unchanged (s.withHistory id old) s') (new : History) :
  (s'.withHistory id new).workspace.windows = (s.withHistory id new).workspace.windows
  := by
  rw [Session.windows_withHistory, h.windows, ← Session.windows_withHistory]
  apply windows_withHistory_withHistory

/-- Replacing the history of the current window shows exactly if it is another one. -/
theorem windows_withHistory_eq_iff (hs : s.workspace.Distinct) (h : History) :
  (s.withHistory s.workspace.window.id h).workspace.windows = s.workspace.windows
    ↔ h = s.workspace.window.history
  := by
  constructor
  · intro heq
    have hcurrent := congrArg (·.current.history) heq
    simpa [windows_withHistory, Windows.update, Windows.map, Workspace.window] using hcurrent
  · rintro rfl
    apply Windows.update_eq_self
    intro w hw hid
    rw [Windows.eq_of_id_eq hs.nodup hw (Windows.current_mem_all _) hid]
    rfl

/-- Replacing the history of the current window by itself changes nothing. -/
theorem workspace_withHistory_self (hs : s.workspace.Distinct) :
  (s.withHistory s.workspace.window.id s.workspace.window.history).workspace = s.workspace
  := by
  have hwindows := (windows_withHistory_eq_iff hs s.workspace.window.history).mpr rfl
  exact congrArg (fun windows => { s.workspace with windows := windows }) hwindows

/-! ### Breaking off after the file was shown -/

theorem windows_setCursor_start {ws : Workspace} (h : ws.window.cursor = Cursor.start) :
  (ws.setCursor Cursor.start).windows = ws.windows
  := by
  rw [Workspace.setCursor, Cursor.clamp_start, ← h]
  rfl

theorem window_withHistory (id : Nat) (h : History) (s : Session) :
  (s.withHistory id h).workspace.window
    = if s.workspace.window.id = id then { s.workspace.window with history := h }
      else s.workspace.window
  := rfl

/-- An operation that leaves the window current only replaces its history. -/
theorem conclude_of_current {origin : Nat} {m : Moved Session Fault}
    (hid : m.state.workspace.window.id = origin) (share : Bool) :
  conclude origin share m = (m.result, m.state.withHistory origin m.history)
  := by
  have hwindow : (m.state.withHistory origin m.history).workspace.window.id = origin := by
    rw [window_withHistory, if_pos hid]
    exact hid
  have hshare : (m.state.withHistory origin m.history).shareHistory origin
      = m.state.withHistory origin m.history := if_pos hwindow
  rw [conclude]
  split
  next he => rw [he]
  next he => rw [he, hshare, ite_self]

section

variable {w : World} {path resolved : Path} {number : Nat} {ws : Workspace} {h : History}
  {s' : Session}

/-- If nothing shows after a jump that broke off, then no window was opened and the current window
had shown the file before, with the cursor at the start and the same history. -/
theorem shown_of_unchanged (hs : s.workspace.Distinct)
    (hload : (s.withHistory s.workspace.window.id h).workspace.opened.load w path resolved
      = .ok (number, ws))
    (hws : s'.workspace = (ws.showBuffer number).setCursor Cursor.start)
    (hunchanged : Unchanged s (s'.withHistory s.workspace.window.id h)) :
  h = s.workspace.window.history ∧ s.workspace.splitPending = false
    ∧ s.workspace.window.cursor = Cursor.start
    ∧ ∃ b, s.workspace.buffers.find? resolved = some b
      ∧ s.workspace.window.buffer = some b.number
  := by
  have hwindow : (s'.withHistory s.workspace.window.id h).workspace.window = s.workspace.window :=
    congrArg (·.current) hunchanged.windows
  have hsame : s'.workspace.window.id = s.workspace.window.id := by
    rw [window_withHistory] at hwindow
    split at hwindow
    next heq => exact heq
    · rw [hwindow]
  rw [window_withHistory, if_pos hsame] at hwindow
  refine ⟨congrArg (·.history) hwindow, ?_, ?_, ?_⟩
  · apply (distinct_withHistory hs s.workspace.window.id h).not_pending
    rw [← Workspace.id_window_showBuffer_of_load hload, window_withHistory, if_pos rfl]
    rw [hws] at hsame
    exact hsame
  · have hcursor : s'.workspace.window.cursor = s.workspace.window.cursor :=
      congrArg (·.cursor) hwindow
    rw [← hcursor, hws]
    apply Cursor.clamp_start
  · have hbuffer : s'.workspace.window.buffer = s.workspace.window.buffer :=
      congrArg (·.buffer) hwindow
    have hnext : ws.buffers.next
        = (s.withHistory s.workspace.window.id h).workspace.opened.buffers.next := by
      rw [Workspace.buffers_opened, ← Workspace.next_showBuffer ws number]
      change _ = s.workspace.buffers.next
      rw [← hunchanged.buffers]
      change _ = s'.workspace.buffers.next
      rw [hws]
      rfl
    obtain ⟨b, hfind, rfl⟩ := Workspace.find?_of_load hload hnext
    rw [Workspace.buffers_opened] at hfind
    refine ⟨b, hfind, ?_⟩
    rw [← hbuffer, hws]
    exact (Workspace.window_showBuffer ws b.number).1

/-- If the current window had shown the file before, with the cursor at the start, then nothing
shows after a jump that broke off and left the history as it was. -/
theorem unchanged_of_shown (hs : s.workspace.Distinct)
    (hload : (s.withHistory s.workspace.window.id h).workspace.opened.load w path resolved
      = .ok (number, ws))
    (hws : s'.workspace = (ws.showBuffer number).setCursor Cursor.start)
    (hhistory : h = s.workspace.window.history) (hpending : s.workspace.splitPending = false)
    (hcursor : s.workspace.window.cursor = Cursor.start) {b : Buffer}
    (hfind : s.workspace.buffers.find? resolved = some b)
    (hbuffer : s.workspace.window.buffer = some b.number) :
  Unchanged s (s'.withHistory s.workspace.window.id h)
  := by
  subst hhistory
  rw [workspace_withHistory_self hs, Workspace.opened_of_not_pending hpending] at hload
  rcases Workspace.load_eq_ok_iff.mp hload with ⟨b', hfind', rfl, rfl⟩ | ⟨hnone, -⟩
  · change s.workspace.buffers.find? resolved = some b' at hfind'
    obtain rfl := Option.some.inj (hfind.symm.trans hfind')
    have hshown : { s.workspace with splitPending := false }.window.buffer = some b.number :=
      hbuffer
    rw [Workspace.showBuffer_of_shown hshown] at hws
    have hwindows : s'.workspace.windows = s.workspace.windows := by
      rw [hws]
      apply windows_setCursor_start hcursor
    constructor
    · rw [windows_withHistory, hwindows, ← windows_withHistory]
      apply (windows_withHistory_eq_iff hs _).mpr rfl
    · change s'.workspace.buffers = _
      rw [hws]
      rfl
  · change s.workspace.buffers.find? resolved = none at hnone
    rw [hfind] at hnone
    cases hnone

theorem unchanged_iff_shown (hs : s.workspace.Distinct)
    (hload : (s.withHistory s.workspace.window.id h).workspace.opened.load w path resolved
      = .ok (number, ws))
    (hws : s'.workspace = (ws.showBuffer number).setCursor Cursor.start) :
  Unchanged s (s'.withHistory s.workspace.window.id h)
    ↔ h = s.workspace.window.history ∧ s.workspace.splitPending = false
      ∧ s.workspace.window.cursor = Cursor.start
      ∧ ∃ b, s.workspace.buffers.find? resolved = some b
        ∧ s.workspace.window.buffer = some b.number
  := by
  constructor
  · apply shown_of_unchanged hs hload hws
  · intro hshown
    obtain ⟨hhistory, hpending, hcursor, b, hfind, hbuffer⟩ := hshown
    apply unchanged_of_shown hs hload hws hhistory hpending hcursor hfind hbuffer

end

/-! ### Harmless jumps -/

section

variable {splitting : Bool} {name : Text}

/-- A jump whose lookup breaks off is harmless if its entry is there already. -/
theorem harmless_iff_of_error {e : Fault}
    (hfind : Lookup.find s.world s.options name s.workspace.currentFile = .error e) :
  Harmless splitting name s
    ↔ s.workspace.window.history.record ⟨name, Workspace.positionOf s.workspace.window⟩
      = s.workspace.window.history
  := by
  constructor
  · apply Harmless.recorded
  · intro hrecorded
    constructor
    · exact hrecorded
    · intro lookup l hok
      rw [hfind] at hok
      cases hok

/-- A jump to a location is harmless if its entry is there already and its file is shown already. -/
theorem harmless_iff_of_location {lookup : Lookup} {l : Location}
    (hfind : Lookup.find s.world s.options name s.workspace.currentFile = .ok lookup)
    (hl : lookup.result = .ok l) :
  Harmless splitting name s
    ↔ s.workspace.window.history.record ⟨name, Workspace.positionOf s.workspace.window⟩
        = s.workspace.window.history
      ∧ splitting = false ∧ s.workspace.window.cursor = Cursor.start
      ∧ ∃ b, s.workspace.buffers.find? (l.path.resolve s.world.cwd) = some b
        ∧ s.workspace.window.buffer = some b.number
  := by
  constructor
  · intro hharmless
    exact ⟨hharmless.recorded, hharmless.shown lookup l hfind hl⟩
  · intro hshown
    constructor
    · exact hshown.1
    · intro lookup' l' hfind' hl'
      rw [hfind] at hfind'
      obtain rfl := Except.ok.inj hfind'
      rw [hl] at hl'
      obtain rfl := Except.ok.inj hl'
      exact hshown.2

end

/-! ### Jumps as a whole -/

theorem jumpToTag_eq {name : Text} (hname : name ≠ []) (count : Int) :
  s.jumpToTag name count
    = conclude s.workspace.window.id true
      (History.jump (editor s.workspace.window.id) s.workspace.window.history
        (s.workspace.window.history.record ⟨name, Workspace.positionOf s.workspace.window⟩)
        ((s.workspace.window.history.record
          ⟨name, Workspace.positionOf s.workspace.window⟩).entries.length - 1)
        name s.clearStatus)
  := by
  simp only [jumpToTag, History.push, List.isEmpty_iff, if_neg hname]
  rfl

/-- The lookup of a tag does not depend on the histories of the windows. -/
theorem find_withHistory (id : Nat) (h : History) (s : Session) (name : Text) :
  Lookup.find (s.withHistory id h).world (s.withHistory id h).options name
      (s.withHistory id h).workspace.currentFile
    = Lookup.find s.world s.options name s.workspace.currentFile
  := by
  have hfile : (s.withHistory id h).workspace.currentFile = s.workspace.currentFile := by
    have hbuffer : (s.withHistory id h).workspace.window.buffer = s.workspace.window.buffer := by
      rw [window_withHistory]
      split <;> rfl
    rw [Workspace.currentFile, Workspace.bufferOf, hbuffer]
    rfl
  rw [hfile]
  rfl

/-- A refused jump gives back the history, and so leaves everything as it was. -/
theorem unchanged_of_refused (hs : s.workspace.Distinct) {h : History} {notice : Text}
    {s' : Session} (hunchanged : Unchanged (s.clearStatus.withHistory s.workspace.window.id h) s') :
  Unchanged s (conclude s.workspace.window.id true
    ⟨.ok false, s.workspace.window.history, notify notice s'⟩).2
  := by
  have hwindows : (withHistory s.workspace.window.id s.workspace.window.history
      (notify notice s')).workspace.windows = s.workspace.windows := by
    apply (hunchanged.windows_withHistory s.workspace.window.history).trans
    apply (windows_withHistory_eq_iff hs _).mpr rfl
  have hshare : (withHistory s.workspace.window.id s.workspace.window.history
      (notify notice s')).workspace.window.id = s.workspace.window.id :=
    congrArg (·.current.id) hwindows
  have hconclude : (conclude s.workspace.window.id true
      ⟨.ok false, s.workspace.window.history, notify notice s'⟩).2
      = withHistory s.workspace.window.id s.workspace.window.history (notify notice s') :=
    if_pos hshare
  rw [hconclude]
  constructor
  · exact hwindows
  · exact hunchanged.buffers

/-- A jump whose lookup breaks off leaves the history with the entry that was recorded. -/
theorem unchanged_of_lookup_broken_iff (hs : s.workspace.Distinct) {h : History} :
  Unchanged s ((s.clearStatus.withHistory s.workspace.window.id h).withHistory
      s.workspace.window.id h)
    ↔ h = s.workspace.window.history
  := by
  constructor
  · intro hunchanged
    apply (windows_withHistory_eq_iff hs h).mp
    rw [← hunchanged.windows, windows_withHistory_withHistory]
    rfl
  · intro hh
    constructor
    · rw [windows_withHistory_withHistory]
      apply (windows_withHistory_eq_iff hs h).mpr hh
    · rfl

/-- A result that has broken off is not a refusal. -/
theorem error_eq_refused_or_iff {e : Fault} {q : Prop} :
  ((.error e : Except Fault Bool) = .ok false ∨ q) ↔ q
  := by
  apply or_iff_right
  intro h
  cases h

theorem jumpToTag_unchanged_iff (hs : s.workspace.Distinct) {name : Text} (hname : name ≠ [])
    {count : Int} (hr : (s.jumpToTag name count).1 ≠ .ok true) :
  Unchanged s (s.jumpToTag name count).2
    ↔ (s.jumpToTag name count).1 = .ok false ∨ Harmless s.workspace.splitPending name s
  := by
  rw [jumpToTag_eq hname] at hr ⊢
  generalize hrecord : s.workspace.window.history.record
    ⟨name, Workspace.positionOf s.workspace.window⟩ = h at hr ⊢
  have hresolve : (editor s.workspace.window.id).resolve h name s.clearStatus
      = (s.clearStatus.withHistory s.workspace.window.id h).resolve name := rfl
  have hdistinct : (s.clearStatus.withHistory s.workspace.window.id h).workspace.Distinct :=
    distinct_withHistory hs _ h
  have hfind : Lookup.find (s.clearStatus.withHistory s.workspace.window.id h).world
      (s.clearStatus.withHistory s.workspace.window.id h).options name
      (s.clearStatus.withHistory s.workspace.window.id h).workspace.currentFile
      = Lookup.find s.world s.options name s.workspace.currentFile :=
    find_withHistory _ h s.clearStatus name
  rcases resolve_cases hdistinct name with
    ⟨e, hlookup, hbroken⟩ | ⟨notice, s', hrefused, hunchanged⟩ | ⟨s', hmade⟩
      | ⟨lookup, l, e, s', number, ws, hlookup, hl, hbroken, hload, hws⟩
  · rw [hfind] at hlookup
    rw [History.jump_of_broken _ _ _ (hresolve.trans hbroken)]
    apply (unchanged_of_lookup_broken_iff hs).trans
    apply Iff.trans _ error_eq_refused_or_iff.symm
    rw [harmless_iff_of_error hlookup, hrecord]
  · rw [History.jump_of_refused _ _ _ (hresolve.trans hrefused)]
    constructor
    · intro _
      left
      rfl
    · intro _
      apply unchanged_of_refused hs hunchanged
  · rw [History.jump_of_made _ _ _ (hresolve.trans hmade)] at hr
    exact absurd rfl hr
  · rw [hfind] at hlookup
    rw [History.jump_of_broken _ _ _ (hresolve.trans hbroken)]
    apply (unchanged_iff_shown hs hload hws).trans
    apply Iff.trans _ error_eq_refused_or_iff.symm
    rw [harmless_iff_of_location hlookup hl, hrecord]
    rfl

/-- A jump to a tag that is not made changes nothing that shows exactly if it is refused, or breaks
off and does no harm. -/
theorem jump_unchanged_iff (h : Attainable s) {name : Text} (hname : name ≠ []) (count : Int) :
  ((s.jumpToTag name count).1 ≠ .ok true →
      (Unchanged s (s.jumpToTag name count).2
        ↔ (s.jumpToTag name count).1 = .ok false ∨ Harmless s.workspace.splitPending name s))
    ∧ ((s.splitAndJump name count).1 ≠ .ok true →
      (Unchanged s (s.splitAndJump name count).2
        ↔ (s.splitAndJump name count).1 = .ok false ∨ Harmless true name s))
  := by
  constructor
  · intro hr
    exact jumpToTag_unchanged_iff h.distinct hname hr
  · intro hr
    have hiff := jumpToTag_unchanged_iff (distinct_pending h.distinct) hname hr
    have hsame : Unchanged s (s.splitAndJump name count).2
        ↔ Unchanged (s.inWorkspace fun ws => { ws with splitPending := true })
          ((s.inWorkspace fun ws => { ws with splitPending := true }).jumpToTag name count).2 :=
      ⟨fun h => ⟨h.windows, h.buffers⟩, fun h => ⟨h.windows, h.buffers⟩⟩
    apply hsame.trans
    apply hiff.trans
    apply or_congr Iff.rfl
    exact ⟨fun h => ⟨h.recorded, h.shown⟩, fun h => ⟨h.recorded, h.shown⟩⟩

/-- A world with an index whose only record names a file by more characters than the file system
takes. -/
def longNamed : World :=
  let record := "f\t".toList ++ List.replicate 256 'a' ++ "\t1\n".toList
  ⟨⟨[(["tags".toList], .file (Utf8.encode record))]⟩, [], [], ⟨.slash, []⟩, {}⟩

/-- The jump to a file whose name is too long is not made, and leaves the entry recorded for it in
the history. -/
theorem jumpToTag_longNamed :
  let s := start longNamed {}
  Attainable s ∧ (s.jumpToTag ['f'] 1).1 ≠ .ok true ∧ ¬ Unchanged s (s.jumpToTag ['f'] 1).2
  := by
  intro s
  have hresult : (s.jumpToTag ['f'] 1).1
      = .error (.file .nameTooLong ⟨.here, [List.replicate 256 'a']⟩) := by
    decide +kernel
  have hhistory : (s.jumpToTag ['f'] 1).2.workspace.windows.current.history.entries.length = 1 := by
    decide +kernel
  refine ⟨Attainable.start _ _, ?_, ?_⟩
  · rw [hresult]
    intro h
    cases h
  · intro hunchanged
    rw [hunchanged.windows] at hhistory
    cases hhistory

/-- The same jump once more changes nothing, for its entry is already there. -/
theorem jump_unchanged_iff_longNamed :
  let s := ((Action.jump ['f'] 1).run (start longNamed {})).2
  Attainable s ∧ ['f'] ≠ ([] : Text)
    ∧ (s.jumpToTag ['f'] 1).1 = .error (.file .nameTooLong ⟨.here, [List.replicate 256 'a']⟩)
    ∧ Unchanged s (s.jumpToTag ['f'] 1).2
  := by
  intro s
  have hattainable : Attainable s := (Attainable.start _ _).step (.act _)
  have hname : ['f'] ≠ ([] : Text) := by decide
  have hresult : (s.jumpToTag ['f'] 1).1
      = .error (.file .nameTooLong ⟨.here, [List.replicate 256 'a']⟩) := by
    decide +kernel
  have hnot : (s.jumpToTag ['f'] 1).1 ≠ .ok true := by
    rw [hresult]
    intro h
    cases h
  refine ⟨hattainable, hname, hresult, ?_⟩
  apply ((jump_unchanged_iff hattainable hname 1).1 hnot).mpr
  right
  constructor
  · decide +kernel
  · intro lookup l hlookup
    have hbroken : (Lookup.find s.world s.options ['f'] s.workspace.currentFile).isOk = false := by
      decide +kernel
    rw [hlookup] at hbroken
    cases hbroken

end TagNavigator.Session
