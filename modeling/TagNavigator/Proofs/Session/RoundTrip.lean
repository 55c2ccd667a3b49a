import TagNavigator.Proofs.Session.AllOrNothing
import TagNavigator.Proofs.Workspace.Return

/-!
# Jumps, back and forth

After a jump to a tag, a step to the older entry brings the current window back to where it was, and
a step to the newer entry from there makes the same jump again (`jump_pop_newer`).  The second jump
looks the tag up in the same index files from the same file.  If its pattern is not found, the
cursor stays where the switch puts it, which is where the first jump left it.
-/

namespace TagNavigator.Session

open Workspace (View Arrival Return)

variable {s s' : Session} {name : Text}

/-! ### The stages of a jump that is made -/

@[simp]
theorem options_notifyAll (notices : List Text) (s : Session) :
  (s.notifyAll notices).options = s.options
  := by
  induction notices generalizing s with
  | nil => rfl
  | cons notice notices ih =>
      change ((s.notify notice).notifyAll notices).options = _
      rw [ih]
      rfl

/-- Log lines and notices change nothing that a visit reads. -/
theorem heard_eq (lines : List LogLine) (notices : List Text) (s : Session) :
  ((s.logging lines).notifyAll notices).workspace = s.workspace
    ∧ ((s.logging lines).notifyAll notices).world = s.world
    ∧ ((s.logging lines).notifyAll notices).options = s.options
  := by
  rw [workspace_notifyAll, world_notifyAll, options_notifyAll]
  exact ⟨rfl, rfl, rfl⟩

section

variable {l : Location} {ws : Workspace} (hpattern : l.command.pattern? = none)

include hpattern

theorem placeCursor_of_line {line : Int}
    (h : LineAddress.resolve l.command.text 1 ws.lines.length = .ok (some line)) (o : Options) :
  placeCursor o l ws
    = (ws.setCursor ⟨line, firstNonblank (Cursor.lineText ws.lines line)⟩, [], .ok none)
  := by
  have hlines : (ws.setCursor Cursor.start).lines = ws.lines := rfl
  simp only [placeCursor, hpattern, hlines, h]
  rfl

theorem placeCursor_of_not_line
    (h : LineAddress.resolve l.command.text 1 ws.lines.length = .ok none) (o : Options) :
  placeCursor o l ws
    = (ws.setCursor Cursor.start, [], .ok (some (.notACommand (Text.trim l.command.text))))
  := by
  have hlines : (ws.setCursor Cursor.start).lines = ws.lines := rfl
  simp only [placeCursor, hpattern, hlines, h]

end

/-- Where the cursor goes in a file depends only on the lines of the file. -/
theorem exists_placeCursor_eq (o : Options) (l : Location) (lines : List Text) :
  ∃ target log outcome, ∀ ws : Workspace, ws.lines = lines →
    placeCursor o l ws = (ws.moveTo target, log, outcome)
  := by
  cases hpattern : l.command.pattern? with
  | some search =>
      obtain ⟨delimiter, pattern⟩ := search
      generalize hplace : placeOf o lines l.tagName delimiter pattern = place
      obtain ⟨found, warning, log⟩ := place
      refine ⟨found.map fun f => ⟨f.line, f.column⟩, log, .ok warning, ?_⟩
      rintro ws rfl
      simp only [placeCursor, hpattern, hplace]
      cases found <;> rfl
  | none =>
      have hlines : ∀ ws : Workspace, (ws.setCursor Cursor.start).lines = ws.lines := fun _ => rfl
      cases hline : LineAddress.resolve l.command.text 1 lines.length with
      | error e =>
          refine ⟨some Cursor.start, [], .error (.longNumeral e), ?_⟩
          rintro ws rfl
          simp only [placeCursor, hpattern, hlines, hline]
          rfl
      | ok line =>
          cases line with
          | none =>
              refine ⟨some Cursor.start, [], .ok (some (.notACommand (Text.trim l.command.text))), ?_⟩
              rintro ws rfl
              exact placeCursor_of_not_line hpattern hline o
          | some line =>
              refine ⟨some ⟨line, firstNonblank (Cursor.lineText lines line)⟩, [], .ok none, ?_⟩
              rintro ws rfl
              exact placeCursor_of_line hpattern hline o

/-- The lookup of the tag leads to the location `l`, the switch to its file to `ws`, and the move of
the cursor to `ws'`. -/
structure Leads (s : Session) (name : Text) (l : Location) (ws ws' : Workspace)
    (warning : Option JumpWarning) : Prop where
  lookup : ∃ lookup, Lookup.find s.world s.options name s.workspace.currentFile = .ok lookup
    ∧ lookup.result = .ok l
  switch : ∃ log, s.workspace.editFile s.world l.path = (.made, log, ws)
  place : ∃ log, placeCursor s.options l ws = (ws', log, .ok warning)

section

variable {l : Location} {ws ws' : Workspace} {warning : Option JumpWarning}

/-- A visit that is made ends where the move of the cursor ends. -/
theorem visit_of_made {log log' : List LogLine}
    (hswitch : s.workspace.editFile s.world l.path = (.made, log, ws))
    (hplace : placeCursor s.options l ws = (ws', log', .ok warning)) :
  ∃ s', s.visit l = (.made, s') ∧ s'.workspace = ws' ∧ s'.world = s.world
    ∧ s'.options = s.options
    ∧ s'.lastJump = some ⟨l, ws'.window.id, ws'.window.cursor, warning⟩
  := by
  simp only [visit, hswitch, hplace]
  cases warning with
  | none => exact ⟨_, rfl, rfl, rfl, rfl, rfl⟩
  | some warning => exact ⟨_, rfl, rfl, rfl, rfl, rfl⟩

theorem exists_of_visit_made (h : s.visit l = (.made, s')) :
  ∃ log ws log' ws' warning, s.workspace.editFile s.world l.path = (.made, log, ws)
    ∧ placeCursor s.options l ws = (ws', log', .ok warning)
  := by
  rw [visit] at h
  split at h
  · cases h
  · cases h
  next log ws hswitch =>
    split at h
    · cases h
    next ws' log' warning hplace => exact ⟨log, ws, log', ws', warning, hswitch, hplace⟩

theorem Leads.resolve (h : Leads s name l ws ws' warning) :
  ∃ s', s.resolve name = (.made, s') ∧ s'.workspace = ws' ∧ s'.world = s.world
    ∧ s'.options = s.options
    ∧ s'.lastJump = some ⟨l, ws'.window.id, ws'.window.cursor, warning⟩
  := by
  obtain ⟨⟨lookup, hfind, hl⟩, ⟨log, hswitch⟩, ⟨log', hplace⟩⟩ := h
  obtain ⟨hworkspace, hworld, hoptions⟩ := heard_eq lookup.log lookup.notices s
  rw [← hworkspace, ← hworld] at hswitch
  rw [← hoptions] at hplace
  have hvisit := visit_of_made hswitch hplace
  rw [hworld, hoptions] at hvisit
  rw [Session.resolve, hfind]
  simp only [hl]
  exact hvisit

end

theorem exists_leads (h : s.resolve name = (.made, s')) :
  ∃ l ws ws' warning, Leads s name l ws ws' warning
  := by
  rw [resolve] at h
  split at h
  · cases h
  next lookup hfind =>
    dsimp only at h
    split at h
    · cases h
    next l hl =>
      obtain ⟨log, ws, log', ws', warning, hswitch, hplace⟩ := exists_of_visit_made h
      obtain ⟨hworkspace, hworld, hoptions⟩ := heard_eq lookup.log lookup.notices s
      rw [hworkspace, hworld] at hswitch
      rw [hoptions] at hplace
      refine ⟨l, ws, ws', warning, ?_⟩
      constructor
      · exact ⟨lookup, hfind, hl⟩
      · exact ⟨log, hswitch⟩
      · exact ⟨log', hplace⟩

/-! ### The stages of a step through the history -/

theorem view_withHistory (id : Nat) (h : History) (s : Session) :
  (s.withHistory id h).workspace.view = s.workspace.view
  := by
  have hwindow := window_withHistory id h s
  rw [Workspace.view, Workspace.view, hwindow]
  split <;> rfl

section

variable {h : History} {entry : HistoryEntry} {n : Nat} {ws : Workspace}

/-- A step to the older entry goes to its position. -/
theorem pop_of_goTo (hhistory : s.workspace.window.history = h) (hindex : h.index = n + 1)
    (hentry : h.entries[n]? = some entry) (hgo : s.workspace.goTo entry.origin = .ok ws)
    (hid : ws.window.id = s.workspace.window.id) :
  s.pop 1 = (.ok true, withHistory s.workspace.window.id { h with index := n }
    { s.clearStatus with workspace := ws })
  := by
  subst hhistory
  have hgo' : (editor s.workspace.window.id).goTo entry.origin s.clearStatus
      = (none, { s.clearStatus with workspace := ws }) := by
    simp only [editor, clearStatus, hgo]
  have hpop : s.pop 1 = conclude s.workspace.window.id false
      (History.older (editor s.workspace.window.id) 1 s.workspace.window.history s.clearStatus) :=
    rfl
  rw [hpop, History.older_one hindex hentry hgo']
  exact conclude_of_current hid _

/-- A step to the newer entry from where its jump started makes the jump again. -/
theorem newer_of_resolve (hhistory : s.workspace.window.history = h)
    (hentry : h.entries[h.index]? = some entry)
    (horigin : entry.origin = Workspace.positionOf s.workspace.window)
    (hresolve : (s.clearStatus.withHistory s.workspace.window.id h).resolve entry.tagName
      = (.made, s'))
    (hid : s'.workspace.window.id = s.workspace.window.id) :
  s.newer 1
    = (.ok true, s'.withHistory s.workspace.window.id { h with index := h.index + 1 })
  := by
  subst hhistory
  have hnewer : s.newer 1 = conclude s.workspace.window.id true
      (History.newer (editor s.workspace.window.id) 1 s.workspace.window.history s.clearStatus) :=
    rfl
  rw [hnewer, History.newer_one _ hentry, History.remember_eq_self hentry horigin,
    History.jump_of_made _ _ _ hresolve]
  exact conclude_of_current hid _

end

/-- A jump that is made has resolved its tag in a session whose history ends with its entry. -/
theorem exists_resolve_of_jump (hname : name ≠ []) {count : Int}
    (hjump : (s.jumpToTag name count).1 = .ok true) :
  ∃ h n s', h.entries[n]? = some ⟨name, Workspace.positionOf s.workspace.window⟩
    ∧ (s.clearStatus.withHistory s.workspace.window.id h).resolve name = (.made, s')
    ∧ s.jumpToTag name count
      = conclude s.workspace.window.id true ⟨.ok true, { h with index := n + 1 }, s'⟩
  := by
  have hentries := History.record_entries s.workspace.window.history
    ⟨name, Workspace.positionOf s.workspace.window⟩
  rw [jumpToTag_eq hname] at hjump ⊢
  rw [fst_conclude] at hjump
  generalize s.workspace.window.history.record
    ⟨name, Workspace.positionOf s.workspace.window⟩ = h at hjump hentries ⊢
  have hlast : h.entries[h.entries.length - 1]?
      = some ⟨name, Workspace.positionOf s.workspace.window⟩ := by
    rw [← List.getLast?_eq_getElem?, hentries, List.getLast?_concat]
  cases hresolve : (s.clearStatus.withHistory s.workspace.window.id h).resolve name with
  | mk resolution s' =>
      cases resolution with
      | made =>
          refine ⟨h, h.entries.length - 1, s', hlast, hresolve, ?_⟩
          rw [History.jump_of_made _ _ _ hresolve]
      | refused notice =>
          rw [History.jump_of_refused _ _ _ hresolve] at hjump
          cases hjump
      | broken e =>
          rw [History.jump_of_broken _ _ _ hresolve] at hjump
          cases hjump

/-! ### Trips -/

/-- The current window is the same in both sessions, and shows the same buffer with the same
cursor. -/
structure SamePlace (s s' : Session) : Prop where
  window : s'.workspace.window.id = s.workspace.window.id
  buffer : s'.workspace.window.buffer = s.workspace.window.buffer
  cursor : s'.workspace.window.cursor = s.workspace.window.cursor

/-- A jump to the tag that was made from the session `s` and led to `s₁`: where the tag was found,
where the cursor went, and what the history of the window keeps of it. -/
structure Trip (s s₁ : Session) (name : Text) (l : Location) (resolved : Path) (number : Nat)
    (target : Option Cursor) (warning : Option JumpWarning) : Prop where
  world : s₁.world = s.world
  options : s₁.options = s.options
  lookup : ∃ lookup, Lookup.find s.world s.options name s.workspace.currentFile = .ok lookup
    ∧ lookup.result = .ok l
  resolve : s.world.resolve l.path = .ok resolved
  arrival : Arrival s.workspace.view s₁.workspace.view resolved number target
  place : ∃ log, ∀ ws : Workspace, ws.lines = s₁.workspace.lines →
    placeCursor s.options l ws = (ws.moveTo target, log, .ok warning)
  lastJump : s₁.lastJump
    = some ⟨l, s₁.workspace.window.id, s₁.workspace.window.cursor, warning⟩
  entry : ∃ n, s₁.workspace.window.history.index = n + 1
    ∧ s₁.workspace.window.history.entries[n]?
      = some ⟨name, Workspace.positionOf s.workspace.window⟩

/-- The trip from the session `s` to `s₁` was taken back to `s₂`: the window is where it was, and its
history has the trip as the newer entry. -/
structure TakenBack (s s₁ s₂ : Session) (name : Text) (number : Nat) : Prop where
  place : Return s.workspace.view s₁.workspace.view s₂.workspace.view number
  history : s₁.workspace.window.history = { s₂.workspace.window.history with
    index := s₂.workspace.window.history.index + 1 }
  entry : s₂.workspace.window.history.entries[s₂.workspace.window.history.index]?
    = some ⟨name, Workspace.positionOf s.workspace.window⟩

theorem lines_withHistory (id : Nat) (h : History) (s : Session) :
  (s.withHistory id h).workspace.lines = s.workspace.lines
  := by
  have hbuffer : (s.withHistory id h).workspace.window.buffer = s.workspace.window.buffer :=
    congrArg View.buffer (view_withHistory id h s)
  rw [Workspace.lines, Workspace.lines, Workspace.linesOf, Workspace.linesOf, Workspace.bufferOf,
    Workspace.bufferOf, hbuffer]
  rfl

/-- Where the cursor goes in the file of a jump that was made. -/
theorem Leads.exists_place {l : Location} {ws ws' : Workspace} {warning : Option JumpWarning}
    (h : Leads s name l ws ws' warning) :
  ∃ target log, ws' = ws.moveTo target ∧ ∀ ws'' : Workspace, ws''.lines = ws'.lines →
    placeCursor s.options l ws'' = (ws''.moveTo target, log, .ok warning)
  := by
  obtain ⟨log, hplace⟩ := h.place
  obtain ⟨target, log', outcome, huniform⟩ := exists_placeCursor_eq s.options l ws.lines
  have hsame := hplace.symm.trans (huniform ws rfl)
  obtain ⟨rfl, rfl, rfl⟩ : ws' = ws.moveTo target ∧ log = log' ∧ .ok warning = outcome := by
    simpa using hsame
  refine ⟨target, log, rfl, ?_⟩
  intro ws'' hlines
  apply huniform
  rw [hlines, Workspace.lines_moveTo]

/-- A tag that leads to a place makes the window arrive there. -/
theorem Leads.exists_arrival {l : Location} {ws ws' : Workspace} {warning : Option JumpWarning}
    (h : Leads s name l ws ws' warning) (hs : s.workspace.Fitting)
    (hpending : s.workspace.splitPending = false) :
  ∃ resolved number target, s.world.resolve l.path = .ok resolved
    ∧ Arrival s.workspace.view ws'.view resolved number target
    ∧ ∃ log, ∀ ws'' : Workspace, ws''.lines = ws'.lines →
      placeCursor s.options l ws'' = (ws''.moveTo target, log, .ok warning)
  := by
  obtain ⟨lookup, hlookup, hl⟩ := h.lookup
  obtain ⟨log, hswitch⟩ := h.switch
  obtain ⟨target, log', hmoved, hplace⟩ := h.exists_place
  have hpath := Lookup.resolve_of_find hlookup hl
  obtain ⟨number, harrival⟩ := Workspace.arrival_of_editFile hs hpending hpath hswitch target
  rw [← hmoved] at harrival
  exact ⟨_, number, target, hpath, harrival, log', hplace⟩

/-- A jump that is made is a trip. -/
theorem exists_trip (hs : s.workspace.Fitting) (hpending : s.workspace.splitPending = false)
    (hname : name ≠ []) {count : Int} (hjump : (s.jumpToTag name count).1 = .ok true) :
  ∃ l resolved number target warning,
    Trip s (s.jumpToTag name count).2 name l resolved number target warning
  := by
  obtain ⟨h, n, s', hentry, hresolve, hconclude⟩ := exists_resolve_of_jump hname hjump
  obtain ⟨l, ws, ws', warning, hleads⟩ := exists_leads hresolve
  obtain ⟨s'', hmade, rfl, hworld, hoptions, hlast⟩ := hleads.resolve
  obtain rfl : s' = s'' := (Prod.mk.inj (hresolve.symm.trans hmade)).2
  obtain ⟨resolved, number, target, hpath, harrival, hplace⟩ :=
    hleads.exists_arrival (hs.withHistory _ _) hpending
  rw [view_withHistory] at harrival
  have hid : s'.workspace.window.id = s.workspace.window.id := harrival.id
  have hwindow := window_withHistory s.workspace.window.id { h with index := n + 1 } s'
  rw [if_pos hid] at hwindow
  rw [hconclude, conclude_of_current hid]
  refine ⟨l, resolved, number, target, warning, ?_⟩
  constructor
  · exact hworld
  · exact hoptions
  · have hlookup := hleads.lookup
    rw [find_withHistory s.workspace.window.id h s.clearStatus name] at hlookup
    exact hlookup
  · exact hpath
  · rw [view_withHistory]
    exact harrival
  · rw [lines_withHistory]
    exact hplace
  · rw [hwindow]
    exact hlast
  · rw [hwindow]
    exact ⟨n, rfl, hentry⟩

section

variable {s₁ s₂ : Session} {l : Location} {resolved : Path} {number : Nat}
  {target : Option Cursor} {warning : Option JumpWarning}

/-- The step to the older entry takes a trip back, whatever has become of the files. -/
theorem Trip.pop (h : Trip s s₁ name l resolved number target warning)
    (hs : s.workspace.Fitting)
    (hlisted : ∀ n : Nat, s.workspace.window.buffer = some n →
      ∃ b, s.workspace.buffers.listed? n = some b)
    (hleave : s₁.workspace.window.buffer = s.workspace.window.buffer
      ∨ ∀ b, s₁.workspace.bufferOf s₁.workspace.window = some b → b.modified = false)
    {s' : Session} (hsame : s'.workspace = s₁.workspace) :
  ∃ s₂, s'.pop 1 = (.ok true, s₂) ∧ TakenBack s s₁ s₂ name number
    ∧ s₂.world = s'.world ∧ s₂.options = s'.options
  := by
  obtain ⟨n, hindex, hentry⟩ := h.entry
  have hshown : s₁.workspace.window.buffer = some number := h.arrival.buffer
  have hclean : s.workspace.view.buffer = some number
      ∨ ∀ b, s₁.workspace.buffers.get? number = some b → b.modified = false := by
    rcases hleave with hstays | hclean
    · left
      apply hstays.symm.trans hshown
    · right
      intro b hb
      apply hclean
      rw [Workspace.bufferOf, hshown]
      exact hb
  obtain ⟨ws, hgo, hreturn⟩ := h.arrival.goTo_back hs.current hlisted hclean
  rw [Workspace.position_view] at hgo
  have hid : ws.window.id = s'.workspace.window.id := by
    rw [hsame]
    exact hreturn.id
  rw [← hsame] at hindex hentry hgo
  have hwindow := window_withHistory s'.workspace.window.id
    { s'.workspace.window.history with index := n } { s'.clearStatus with workspace := ws }
  rw [if_pos hid] at hwindow
  refine ⟨_, pop_of_goTo rfl hindex hentry hgo hid, ?_, rfl, rfl⟩
  constructor
  · rw [view_withHistory]
    exact hreturn
  · rw [hwindow, ← hsame]
    dsimp only
    rw [← hindex]
  · rw [hwindow]
    exact hentry

/-- The tag of a trip that was taken back leads to the same place again. -/
theorem Trip.exists_leads (h : Trip s s₁ name l resolved number target warning)
    (hs : s.workspace.Fitting) (hs₁ : s₁.workspace.Fitting)
    (hreturn : Return s.workspace.view s₁.workspace.view s₂.workspace.view number)
    (hworld : s₂.world = s.world) (hoptions : s₂.options = s.options) :
  ∃ ws ws', Leads s₂ name l ws ws' warning ∧ ws'.window.id = s₁.workspace.window.id
    ∧ ws'.window.buffer = s₁.workspace.window.buffer
    ∧ ws'.window.cursor = s₁.workspace.window.cursor
  := by
  have hshown : s₁.workspace.window.buffer = some number := h.arrival.buffer
  rcases hs₁.current with ⟨hnone, -⟩ | ⟨n, b, hn, hb, hclamp⟩
  · rw [hnone] at hshown
    cases hshown
  obtain rfl : n = number := Option.some.inj (hn.symm.trans hshown)
  obtain ⟨hswitch, hlines, hcursor⟩ :=
    hreturn.editFile h.arrival hs.current hb hclamp h.resolve
  refine ⟨s₂.workspace.showBuffer n, (s₂.workspace.showBuffer n).moveTo target, ?_, ?_, ?_,
    hcursor⟩
  · constructor
    · rw [hworld, hoptions, hreturn.currentFile h.arrival hs.current]
      exact h.lookup
    · rw [hworld]
      exact ⟨[], hswitch⟩
    · obtain ⟨log, hplace⟩ := h.place
      use log
      rw [hoptions]
      apply hplace
      rw [hlines, Workspace.lines, Workspace.linesOf_of_get? hn hb]
  · rw [Workspace.id_moveTo, (Workspace.window_showBuffer _ n).2]
    exact hreturn.id
  · rw [Workspace.buffer_moveTo, (Workspace.window_showBuffer _ n).1, hn]

/-- The step to the newer entry makes a trip again that was taken back. -/
theorem Trip.newer (h : Trip s s₁ name l resolved number target warning)
    (hs : s.workspace.Fitting) (hs₁ : s₁.workspace.Fitting)
    (hback : TakenBack s s₁ s₂ name number)
    (hworld : s₂.world = s.world) (hoptions : s₂.options = s.options) :
  ∃ s₃, s₂.newer 1 = (.ok true, s₃) ∧ SamePlace s₁ s₃ ∧ s₃.lastJump = s₁.lastJump
    ∧ s₃.workspace.window.history = s₁.workspace.window.history
  := by
  have hreturn : Return s.workspace.view s₁.workspace.view (s₂.clearStatus.withHistory
      s₂.workspace.window.id s₂.workspace.window.history).workspace.view number := by
    rw [view_withHistory]
    exact hback.place
  obtain ⟨ws, ws', hleads, hid', hbuffer, hcursor⟩ :=
    h.exists_leads hs hs₁ hreturn hworld hoptions
  obtain ⟨s', hresolve, rfl, -, -, hlast⟩ := hleads.resolve
  -- The position is the one in the entry, so the history does not change by remembering it.
  have horigin : Workspace.positionOf s.workspace.window
      = Workspace.positionOf s₂.workspace.window := by
    rw [← Workspace.position_view, ← Workspace.position_view, View.position, View.position,
      hback.place.buffer, hback.place.cursor]
  have hid : s'.workspace.window.id = s₂.workspace.window.id := hid'.trans hback.place.id.symm
  have hwindow := window_withHistory s₂.workspace.window.id { s₂.workspace.window.history with
    index := s₂.workspace.window.history.index + 1 } s'
  rw [if_pos hid] at hwindow
  refine ⟨_, newer_of_resolve rfl hback.entry horigin hresolve hid, ?_, ?_, ?_⟩
  · constructor
    · rw [hwindow]
      exact hid'
    · rw [hwindow]
      exact hbuffer
    · rw [hwindow]
      exact hcursor
  · rw [h.lastJump, ← hid', ← hcursor]
    exact hlast
  · rw [hwindow, hback.history]

end

/-- From where no split is pending and the current window shows nothing or a listed buffer, a jump
that is made can be taken back, unless it leads to another buffer that is modified: the step to the
older entry brings the window back to where it was, whatever has become of the files.  From there,
with the files as they were, the step to the newer entry makes the same jump. -/
theorem jump_pop_newer (h : Attainable s) (hpending : s.workspace.splitPending = false)
    (hlisted : ∀ n : Nat, s.workspace.window.buffer = some n →
      ∃ b, s.workspace.buffers.listed? n = some b)
    (hname : name ≠ []) (count : Int) (hjump : (s.jumpToTag name count).1 = .ok true)
    (hleave : (s.jumpToTag name count).2.workspace.window.buffer = s.workspace.window.buffer
      ∨ ∀ b, (s.jumpToTag name count).2.workspace.bufferOf
        (s.jumpToTag name count).2.workspace.window = some b → b.modified = false) :
  let s₁ := (s.jumpToTag name count).2
  (∀ files, (((Action.changeFiles files).run s₁).2.pop 1).1 = .ok true
      ∧ SamePlace s (((Action.changeFiles files).run s₁).2.pop 1).2)
    ∧ ((s₁.pop 1).2.newer 1).1 = .ok true
    ∧ SamePlace s₁ ((s₁.pop 1).2.newer 1).2
    ∧ (∃ jump, s₁.lastJump = some jump ∧ ((s₁.pop 1).2.newer 1).2.lastJump = some jump)
    ∧ ((s₁.pop 1).2.newer 1).2.workspace.window.history = s₁.workspace.window.history
  := by
  intro s₁
  have hs₁ : s₁.workspace.Fitting := (h.step (.act (.jump name count))).fitting
  obtain ⟨l, resolved, number, target, warning, htrip⟩ :=
    exists_trip h.fitting hpending hname hjump
  constructor
  · intro files
    have hsame : ((Action.changeFiles files).run s₁).2.workspace = s₁.workspace := rfl
    obtain ⟨s₂, hpop, hback, -⟩ := htrip.pop h.fitting hlisted hleave hsame
    rw [hpop]
    refine ⟨rfl, ?_⟩
    constructor
    · apply hback.place.id.trans htrip.arrival.id
    · exact hback.place.buffer
    · exact hback.place.cursor
  · obtain ⟨s₂, hpop, hback, hworld, hoptions⟩ := htrip.pop h.fitting hlisted hleave rfl
    obtain ⟨s₃, hnewer, hplace, hjump, hsame⟩ := htrip.newer h.fitting hs₁ hback
      (hworld.trans htrip.world) (hoptions.trans htrip.options)
    rw [hpop]
    dsimp only
    rw [hnewer]
    exact ⟨rfl, hplace, ⟨_, htrip.lastJump, hjump.trans htrip.lastJump⟩, hsame⟩

/-- A world with a file whose tag has a pattern that matches nowhere, and another file. -/
def outdated : World :=
  ⟨⟨[(["tags".toList], .file (Utf8.encode "f\ta\t/^f(/\ng\tb\t2\n".toList)),
    (["a".toList], .file (Utf8.encode "x\ny\n".toList)),
    (["b".toList], .file (Utf8.encode "one\n  two\n".toList))]⟩, [], [], ⟨.slash, []⟩, {}⟩

/-- From the second line of one file to a tag of another that is not found, and back. -/
theorem jump_pop_newer_outdated :
  let s := ((Action.jump ['g'] 1).run (start outdated {})).2
  let s₁ := (s.jumpToTag ['f'] 1).2
  s.workspace.window.cursor = ⟨2, 2⟩
    ∧ s₁.lastJump.bind (·.warning) = some .patternNotFound
    ∧ (∀ files, (((Action.changeFiles files).run s₁).2.pop 1).1 = .ok true
      ∧ SamePlace s (((Action.changeFiles files).run s₁).2.pop 1).2)
    ∧ ((s₁.pop 1).2.newer 1).1 = .ok true
    ∧ SamePlace s₁ ((s₁.pop 1).2.newer 1).2
  := by
  intro s s₁
  have hattainable : Attainable s := (Attainable.start _ _).step (.act _)
  have hpending : s.workspace.splitPending = false := by
    decide +kernel
  have hbuffer : s.workspace.window.buffer = some 1 := by
    decide +kernel
  have hlisted : ∀ n : Nat, s.workspace.window.buffer = some n →
      ∃ b, s.workspace.buffers.listed? n = some b := by
    intro n hn
    obtain rfl : 1 = n := Option.some.inj (hbuffer.symm.trans hn)
    apply Option.isSome_iff_exists.mp
    decide +kernel
  have hclean : ∀ b, s₁.workspace.bufferOf s₁.workspace.window = some b → b.modified = false := by
    have hall : (s₁.workspace.bufferOf s₁.workspace.window).all (!·.modified) = true := by
      decide +kernel
    intro b hb
    simpa using (Option.all_eq_true _ _).mp hall b hb
  have hjump : (s.jumpToTag ['f'] 1).1 = .ok true := by
    decide +kernel
  obtain ⟨hpop, hnewer, hplace, -⟩ :=
    jump_pop_newer hattainable hpending hlisted (by decide) 1 hjump (.inr hclean)
  refine ⟨?_, ?_, hpop, hnewer, hplace⟩
  · decide +kernel
  · decide +kernel

end TagNavigator.Session
