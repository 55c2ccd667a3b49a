import TagNavigator.Proofs.History.Refusal
import TagNavigator.Proofs.Session.AllOrNothing
import TagNavigator.Proofs.Session.Independence
import TagNavigator.Proofs.Workspace.Return

/-!
# Unsaved changes

A window that shows a buffer with unsaved changes goes on showing it, whatever is done in it and
whatever comes of that (`unsaved_kept`).  The buffer need not be listed any more, and its file may
have been loaded again.  A refused action changes nothing about any window, except for the index of
a history, which a step to an entry below the first one resets (`windows_of_refused`).
-/

namespace TagNavigator

/-- The windows `ws'` are those of `ws`, but with the index of the current history reset if
`undershoots` holds. -/
def Windows.UpToReset (undershoots : Prop) (ws ws' : Windows) : Prop :=
  (¬ undershoots ∧ ws' = ws)
    ∨ (undershoots ∧ ws' = { ws with
        current := { ws.current with history := { ws.current.history with index := 0 } } })

namespace Workspace

variable {ws ws' : Workspace} {b : Buffer}

theorem bufferOf_eq_some_iff {w : Window} :
  ws.bufferOf w = some b ↔ w.buffer = some b.number ∧ ws.buffers.get? b.number = some b
  := by
  rw [bufferOf, Option.bind_eq_some_iff]
  constructor
  · rintro ⟨number, hbuffer, hget⟩
    obtain rfl := Buffers.number_of_get? hget
    exact ⟨hbuffer, hget⟩
  · rintro ⟨hbuffer, hget⟩
    exact ⟨b.number, hbuffer, hget⟩

theorem bufferOf_window_congr (hbuffer : ws'.window.buffer = ws.window.buffer)
    (hbuffers : ws'.buffers = ws.buffers) :
  ws'.bufferOf ws'.window = ws.bufferOf ws.window
  := by
  rw [bufferOf, bufferOf, hbuffer, hbuffers]

/-! ### A buffer with unsaved changes is not left -/

section

variable (hb : ws.bufferOf ws.window = some b) (hm : b.modified = true)

include hb hm

theorem target_of_modified {target : Option Nat} (hmay : ws.mayShow target = true) :
  target = some b.number
  := by
  simpa [mayShow, hb, hm] using hmay

/-- A switch to a file is refused, unless the file is shown already. -/
theorem switchTo_of_modified (w : World) (path resolved : Path) :
  (ws.switchTo w path resolved).2.2 = ws
  := by
  rcases switchTo_cases w ws path resolved with ⟨why, log, he⟩ | ⟨number, loaded, hload, he⟩
  · rw [he]
  · have htarget := target_of_modified hb hm (mayShow_of_switchTo_made he)
    rw [he]
    rcases load_eq_ok_iff.mp hload with ⟨found, hfind, rfl, rfl⟩ | ⟨hfind, -⟩
    · rw [hfind] at htarget
      apply showBuffer_of_shown
      rw [(bufferOf_eq_some_iff.mp hb).1]
      exact htarget.symm
    · rw [hfind] at htarget
      cases htarget

theorem goTo_of_modified {p : Position} (hgo : ws.goTo p = .ok ws') :
  ws' = ws.setCursor ⟨p.line, p.column⟩
  := by
  obtain ⟨shown, rfl, ⟨-, rfl⟩ | ⟨-, hmay, -⟩ | ⟨number, target, -, -, hmay, rfl⟩⟩ :=
    goTo_cases hgo
  · rfl
  · have htarget := target_of_modified hb hm hmay
    cases htarget
  · have htarget := target_of_modified hb hm hmay
    rw [showBuffer_of_shown]
    rw [(bufferOf_eq_some_iff.mp hb).1]
    exact htarget.symm

end

theorem bufferOf_window_opened (ws : Workspace) :
  ws.opened.bufferOf ws.opened.window = ws.bufferOf ws.window
  := by
  apply bufferOf_window_congr _ (buffers_opened ws)
  rw [opened]
  split <;> rfl

/-- A switch to a file at most opens a window. -/
theorem editFile_of_modified (hb : ws.bufferOf ws.window = some b) (hm : b.modified = true)
    (w : World) (path : Path) :
  (ws.editFile w path).2.2 = ws.opened ∨ (ws.editFile w path).2.2 = ws.closed
  := by
  rw [editFile_eq]
  split
  · left
    rfl
  next resolved _ =>
    rw [← bufferOf_window_opened] at hb
    have hsame := switchTo_of_modified hb hm w path resolved
    split
    next he =>
      rw [he] at hsame
      cases hsame
      right
      rfl
    · left
      exact hsame

end Workspace

namespace Session

variable {s : Session} {b : Buffer}

/-! ### What the current window shows -/

theorem showing_jumpInvariant (hm : b.modified = true) (origin : Nat) :
  JumpInvariant origin fun ws => ws.Distinct ∧ ws.bufferOf ws.window = some b
  := by
  constructor
  · intro ws w path h
    refine ⟨h.1.editFile w path, ?_⟩
    rcases Workspace.editFile_of_modified h.2 hm w path with he | he
    · rw [he, Workspace.bufferOf_window_opened]
      exact h.2
    · rw [he, ← h.2]
      apply Workspace.bufferOf_window_congr _ (Workspace.buffers_closed ws)
      exact congrArg (·.current.buffer) (Workspace.windows_closed h.1)
  · exact fun ws c _ h => ⟨h.1.setCursor c, h.2⟩
  · intro ws history h
    refine ⟨invariant_distinct.withHistory ws origin history h.1, ?_⟩
    rw [← h.2]
    apply Workspace.bufferOf_window_congr
    · change Window.buffer (if ws.window.id = origin then _ else _) = _
      split <;> rfl
    · rfl
  · exact fun ws history h => ⟨invariant_distinct.share ws history h.1, h.2⟩

/-- A window with unsaved changes that is current shows them after every action. -/
theorem bufferOf_window_run (hs : s.workspace.Distinct)
    (hb : s.workspace.bufferOf s.workspace.window = some b) (hm : b.modified = true) {a : Action}
    (ha : a.Steers) :
  (a.run s).2.workspace.bufferOf (a.run s).2.workspace.window = some b
  := by
  have hgo (ws ws' : Workspace) (p : Position)
      (h : ws.Distinct ∧ ws.bufferOf ws.window = some b) (hgo : ws.goTo p = .ok ws') :
      ws'.Distinct ∧ ws'.bufferOf ws'.window = some b := by
    refine ⟨h.1.goTo hgo, ?_⟩
    rw [Workspace.goTo_of_modified h.2 hm hgo]
    exact h.2
  cases a with
  | edit path => exact ((showing_jumpInvariant hm 0).editFile _ s.world path ⟨hs, hb⟩).2
  | goTo p =>
      simp only [Action.run]
      split
      next he => exact (hgo _ _ p ⟨hs, hb⟩ he).2
      · exact hb
  | setCursor c => exact hb
  | jump name count => exact ((showing_jumpInvariant hm _).jumpToTag ⟨hs, hb⟩ name count).2
  | splitJump name count =>
      have hpending := distinct_pending hs
      exact ((showing_jumpInvariant hm _).jumpToTag ⟨hpending, hb⟩ name count).2
  | pop count => exact ((showing_jumpInvariant hm _).pop ⟨hs, hb⟩ hgo count).2
  | newer count => exact ((showing_jumpInvariant hm _).newer ⟨hs, hb⟩ count).2
  | _ => cases ha

/-! ### Refused actions -/

/-- The action is refused: its result says that nothing was done. -/
def Action.Refused (s : Session) : Action → Prop
  | edit path => ∃ why, (s.edit path).1 = .refused why
  | goTo p => ∃ why, s.workspace.goTo p = .error why
  | jump name count => (s.jumpToTag name count).1 = .ok false
  | splitJump name count => (s.splitAndJump name count).1 = .ok false
  | pop count => (s.pop count).1 = .ok false
  | newer count => (s.newer count).1 = .ok false
  | _ => False

/-- The action asks for an entry of the history below the first one, as a step to a newer entry. -/
def Action.Undershoots (s : Session) : Action → Prop
  | jump tagName count | splitJump tagName count =>
    (History.Operation.push tagName count).Undershoots s.workspace.window.history
  | newer count => (History.Operation.newer count).Undershoots s.workspace.window.history
  | _ => False

/-- While the editor of the current window stays, only the history of that window may differ. -/
theorem unchanged_of_stays (hs : s.workspace.Distinct) {s' : Session}
    (h : (editor s.workspace.window.id).Stays s.clearStatus s') :
  s'.workspace.Distinct
    ∧ ∃ history, Unchanged (s.withHistory s.workspace.window.id history) s'
  := by
  -- The identities have to stay distinct on the way, else a refused split might not be undone.
  induction h with
  | refl =>
      refine ⟨hs, s.workspace.window.history, ?_⟩
      constructor
      · rw [workspace_withHistory_self hs]
        rfl
      · rfl
  | notify notice _ ih => exact ⟨ih.1, ih.2.imp fun _ h => ⟨h.windows, h.buffers⟩⟩
  | @resolve history tagName notice s₁ s₂ _ hr ih =>
      obtain ⟨hdistinct, old, hunchanged⟩ := ih
      have hjumps := invariant_distinct.jumpInvariant s.workspace.window.id
      have hresolved := hjumps.editor_keepsResolving.resolve history tagName s₁ hdistinct
      rw [hr] at hresolved
      refine ⟨hresolved, history, ?_⟩
      have hwith := distinct_withHistory hdistinct s.workspace.window.id history
      have hrefused : (s₁.withHistory s.workspace.window.id history).resolve tagName
          = (.refused notice, s₂) := hr
      rcases resolve_cases hwith tagName with
        ⟨e, -, he⟩ | ⟨notice', s', he, hsame⟩ | ⟨s', he⟩ | ⟨lookup, l, e, s', number, ws, -, -, he, -⟩
      all_goals
        rw [hrefused] at he
        cases he
      constructor
      · rw [hsame.windows]
        exact hunchanged.windows_withHistory history
      · rw [hsame.buffers]
        exact hunchanged.buffers
  | @goTo p notice s₁ s₂ _ hg ih =>
      simp only [editor] at hg
      split at hg
      · cases hg
      · cases hg
        exact ih

/-- A refused operation on the history of the current window leaves the windows as they were, but
for an index that it resets. -/
theorem windows_conclude_of_refused (hs : s.workspace.Distinct) {o : History.Operation}
    {m : Moved Session Fault}
    (hm : o.apply (editor s.workspace.window.id) s.workspace.window.history s.clearStatus = m)
    {share : Bool} (hr : (conclude s.workspace.window.id share m).1 = .ok false) :
  s.workspace.windows.UpToReset (o.Undershoots s.workspace.window.history)
    (conclude s.workspace.window.id share m).2.workspace.windows
  := by
  subst hm
  rw [fst_conclude] at hr
  obtain ⟨-, old, hunchanged⟩ :=
    unchanged_of_stays hs (History.Operation.declines_of_not_moved hr).stays
  rw [conclude_of_current, hunchanged.windows_withHistory]
  · by_cases hu : o.Undershoots s.workspace.window.history
    · right
      rw [History.Operation.apply_of_undershoots _ hu]
      refine ⟨hu, ?_⟩
      apply Windows.update_current hs.nodup
    · left
      rw [(History.Operation.apply_of_not_moved hu hr).1]
      refine ⟨hu, ?_⟩
      apply (windows_withHistory_eq_iff hs _).mpr rfl
  · rw [Workspace.window, hunchanged.windows]
    change (s.withHistory _ _).workspace.window.id = _
    rw [window_withHistory, if_pos rfl]

/-- A refused action leaves the windows as they were, but for an index that it resets. -/
theorem windows_of_refused (hs : s.workspace.Distinct) {a : Action} (ha : a.Refused s) :
  s.workspace.windows.UpToReset (a.Undershoots s) (a.run s).2.workspace.windows
  := by
  cases a with
  | edit path =>
      obtain ⟨why, he⟩ := ha
      left
      refine ⟨id, ?_⟩
      exact (Workspace.editFile_of_refused hs (Prod.ext he rfl)).1
  | goTo p =>
      obtain ⟨why, he⟩ := ha
      left
      refine ⟨id, ?_⟩
      simp only [Action.run, he]
  | jump name count => exact windows_conclude_of_refused hs (o := .push name count) rfl ha
  | splitJump name count =>
      exact windows_conclude_of_refused (distinct_pending hs) (o := .push name count) rfl ha
  | pop count => exact windows_conclude_of_refused hs (o := .older count) rfl ha
  | newer count => exact windows_conclude_of_refused hs (o := .newer count) rfl ha
  | _ => cases ha

/-! ### Unsaved changes -/

/-- In an attainable session, let the current window show a buffer with unsaved changes, listed or
not, and let an action switch that window, move its cursor, or step through its history.  Whether
the action returns, is refused, or breaks off, the current window shows the same buffer afterwards,
and so does the window that was current before, which is still there.  If the action is refused, then
it has changed nothing about the windows, but for the index of the history that a step below its
first entry resets. -/
theorem unsaved_kept (h : Attainable s) (hb : s.workspace.bufferOf s.workspace.window = some b)
    (hm : b.modified = true) {a : Action} (ha : a.Steers) :
  (a.run s).2.workspace.bufferOf (a.run s).2.workspace.window = some b
    ∧ (∃ w ∈ (a.run s).2.workspace.windows.all,
      w.id = s.workspace.window.id ∧ (a.run s).2.workspace.bufferOf w = some b)
    ∧ (a.Refused s →
      s.workspace.windows.UpToReset (a.Undershoots s) (a.run s).2.workspace.windows)
  := by
  have hshown := bufferOf_window_run h.distinct hb hm ha
  refine ⟨hshown, ?_, windows_of_refused h.distinct⟩
  cases frame_run h.distinct ha with
  | stay w hid hwindows =>
      refine ⟨_, Windows.current_mem_all _, ?_, hshown⟩
      rw [hwindows]
      exact hid
  | part new history hwindows =>
      refine ⟨{ s.workspace.window with history := history }, ?_, rfl, ?_⟩
      · rw [hwindows]
        apply Windows.old_mem_all
      · apply Workspace.bufferOf_eq_some_iff.mpr
        constructor
        · exact (Workspace.bufferOf_eq_some_iff.mp hb).1
        · exact (Workspace.bufferOf_eq_some_iff.mp hshown).2

/-- The buffer of a window is wiped and gets unsaved changes, after another window has loaded its
file again.  A jump to a tag in that file, in a new window, is refused. -/
theorem unsaved_kept_wiped :
  let s := (start twoFiles {}).runAll [.act (.jump ['f'] 1), .act .split, .act (.wipe 1),
    .act (.edit ⟨.slash, [['a']]⟩), .act (.focus 1), .flag 1 true]
  s.workspace.windows.all.map (·.buffer) = [some 2, some 1]
    ∧ s.workspace.buffers.all.map (fun b => (b.path, b.listed))
      = [(⟨.slash, [['a']]⟩, false), (⟨.slash, [['a']]⟩, true)]
    ∧ (s.splitAndJump ['f'] 1).1 = .ok false
    ∧ ((Action.splitJump ['f'] 1).run s).2.workspace.windows = s.workspace.windows
    ∧ ∃ b, b.number = 1 ∧ b.modified = true
      ∧ ((Action.splitJump ['f'] 1).run s).2.workspace.bufferOf
        ((Action.splitJump ['f'] 1).run s).2.workspace.window = some b
  := by
  intro s
  have hattainable : Attainable s := (Attainable.start _ _).runAll _
  have hsummary : (s.workspace.bufferOf s.workspace.window).map (fun b => (b.number, b.modified))
      = some (1, true) := by
    decide +kernel
  obtain ⟨b, hb, hsummary⟩ := Option.map_eq_some_iff.mp hsummary
  obtain ⟨hnumber, hmodified⟩ := Prod.mk.inj hsummary
  have hrefused : (s.splitAndJump ['f'] 1).1 = .ok false := by decide +kernel
  obtain ⟨hshown, -, hwindows⟩ :=
    unsaved_kept hattainable hb hmodified (a := .splitJump ['f'] 1) trivial
  refine ⟨?_, ?_, hrefused, ?_, b, hnumber, hmodified, hshown⟩
  · decide +kernel
  · decide +kernel
  · rcases hwindows hrefused with ⟨-, hsame⟩ | ⟨⟨hname, -⟩, -⟩
    · exact hsame
    · cases hname

end Session

end TagNavigator
