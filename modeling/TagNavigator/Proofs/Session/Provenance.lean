import Mathlib.Data.List.Induction
import TagNavigator.Proofs.History.Recall
import TagNavigator.Proofs.Session.Attainable
import TagNavigator.Proofs.Workspace.Frame

/-!
# Where remembered positions come from

Every position in a history was that of the current window at the start of the event that put it
there, and stays as it was put there, also in the copies that other windows have of the history.
Only jumps and steps to newer tags put entries into histories; whatever else happens to the windows,
the histories are those there were, or copies of them (`Windows.Repeats`).
-/

namespace TagNavigator

/-- A window remembers the entry. -/
def Workspace.Remembers (ws : Workspace) (x : HistoryEntry) : Prop :=
  ∃ w ∈ ws.windows.all, x ∈ w.history.entries

/-- All histories of the windows `ws'` are histories of the windows `ws`. -/
def Windows.Repeats (ws ws' : Windows) : Prop :=
  ∀ w' ∈ ws'.all, ∃ w ∈ ws.all, w'.history = w.history

/-! ### Histories that are repeated -/

namespace Windows

variable {ws ws' ws'' : Windows}

theorem repeats_of_subset (h : ∀ w ∈ ws'.all, w ∈ ws.all) :
  ws.Repeats ws'
  := fun w hw => ⟨w, h w hw, rfl⟩

theorem Repeats.refl (ws : Windows) :
  ws.Repeats ws
  := repeats_of_subset fun _ hw => hw

theorem Repeats.trans (h : ws.Repeats ws') (h' : ws'.Repeats ws'') :
  ws.Repeats ws''
  := by
  intro w'' hw''
  obtain ⟨w', hw', hhistory'⟩ := h' w'' hw''
  obtain ⟨w, hw, hhistory⟩ := h w' hw'
  exact ⟨w, hw, hhistory'.trans hhistory⟩

theorem repeats_current {w : Window} (h : w.history = ws.current.history) :
  ws.Repeats { ws with current := w }
  := by
  intro w' hw'
  rcases List.mem_append.mp hw' with habove | hrest
  · exact ⟨w', List.mem_append_left _ habove, rfl⟩
  · rcases List.mem_cons.mp hrest with rfl | hbelow
    · exact ⟨ws.current, current_mem_all ws, h⟩
    · exact ⟨w', List.mem_append_right _ (List.mem_cons_of_mem _ hbelow), rfl⟩

theorem repeats_openAbove {w : Window} (h : w.history = ws.current.history) :
  ws.Repeats (ws.openAbove w)
  := by
  intro w' hw'
  rcases List.mem_append.mp hw' with habove | hrest
  · exact ⟨w', List.mem_append_left _ habove, rfl⟩
  · rcases List.mem_cons.mp hrest with rfl | hold
    · exact ⟨ws.current, current_mem_all ws, h⟩
    · exact ⟨w', List.mem_append_right _ hold, rfl⟩

end Windows

namespace Workspace

variable {ws ws' : Workspace}

theorem Remembers.of_repeats {x : HistoryEntry} (h : ws'.Remembers x)
    (hrepeats : ws.windows.Repeats ws'.windows) :
  ws.Remembers x
  := by
  obtain ⟨w', hw', hx⟩ := h
  obtain ⟨w, hw, hhistory⟩ := hrepeats w' hw'
  rw [hhistory] at hx
  exact ⟨w, hw, hx⟩

theorem OnlyShows.repeats (h : ws.OnlyShows ws') :
  ws.windows.Repeats ws'.windows
  := by
  obtain ⟨buffer, cursor, hwindows⟩ := h
  rw [hwindows]
  exact Windows.repeats_current rfl

theorem repeats_setCursor (ws : Workspace) (c : Cursor) :
  ws.windows.Repeats (ws.setCursor c).windows
  :=
  Windows.repeats_current rfl

theorem repeats_split (ws : Workspace) :
  ws.windows.Repeats ws.split.windows
  :=
  Windows.repeats_openAbove rfl

theorem repeats_close (ws : Workspace) (id : Nat) (fallback : Option Nat) :
  ws.windows.Repeats (ws.close id fallback).windows
  :=
  Windows.repeats_of_subset fun _ hw => (Windows.all_close_sublist ws.windows id fallback).mem hw

theorem repeats_focus (ws : Workspace) (place : Nat) :
  ws.windows.Repeats (ws.windows.focus place)
  := by
  apply Windows.repeats_of_subset
  intro w hw
  rw [Windows.all_focus] at hw
  exact hw

theorem repeats_opened (ws : Workspace) :
  ws.windows.Repeats ws.opened.windows
  := by
  rw [opened]
  split
  · exact repeats_split { ws with splitPending := false }
  · exact .refl _

theorem repeats_editFile (w : World) (ws : Workspace) (path : Path) :
  ws.windows.Repeats (ws.editFile w path).2.2.windows
  := by
  rcases editFile_cases w ws path with
    ⟨e, -, he⟩ | ⟨why, log, he⟩ | ⟨resolved, number, ws', -, hload, he⟩
  · rw [he]
    exact repeats_opened ws
  · rw [he]
    dsimp only
    rw [closed]
    split
    · exact (repeats_opened ws).trans (repeats_close ws.opened _ _)
    · exact repeats_opened ws
  · rw [he]
    apply (repeats_opened ws).trans
    rw [← (windows_load hload).1]
    exact (onlyShows_showBuffer ws' number).repeats

end Workspace

/-! ### Histories that are replaced -/

namespace Session

variable {s : Session} {x : HistoryEntry}

theorem remembers_withHistory {id : Nat} {h : History}
    (hx : (s.withHistory id h).workspace.Remembers x) :
  s.workspace.Remembers x ∨ x ∈ h.entries
  := by
  obtain ⟨w', hw', hx⟩ := hx
  change w' ∈ (s.workspace.windows.map _).all at hw'
  rw [Windows.all_map] at hw'
  obtain ⟨w, hw, rfl⟩ := List.mem_map.mp hw'
  split at hx
  · exact .inr hx
  · exact .inl ⟨w, hw, hx⟩

/-- A window that gets the history of another one remembers nothing new. -/
theorem remembers_shareHistory {origin : Nat}
    (hx : (s.shareHistory origin).workspace.Remembers x) :
  s.workspace.Remembers x
  := by
  unfold shareHistory at hx
  split at hx
  · exact hx
  · split at hx
    · exact hx
    next w hfind =>
      obtain ⟨w', hw', hx⟩ := hx
      rcases List.mem_append.mp hw' with habove | hrest
      · exact ⟨w', List.mem_append_left _ habove, hx⟩
      · rcases List.mem_cons.mp hrest with rfl | hbelow
        · exact ⟨w, List.mem_of_find?_eq_some hfind, hx⟩
        · exact ⟨w', List.mem_append_right _ (List.mem_cons_of_mem _ hbelow), hx⟩

theorem remembers_conclude {origin : Nat} {share : Bool} {m : Moved Session Fault}
    (hx : (conclude origin share m).2.workspace.Remembers x) :
  m.state.workspace.Remembers x ∨ x ∈ m.history.entries
  := by
  unfold conclude at hx
  split at hx
  · exact remembers_withHistory hx
  · dsimp only at hx
    split at hx
    · exact remembers_withHistory (remembers_shareHistory hx)
    · exact remembers_withHistory hx

/-! ### Entries that are new -/

/-- The entry is remembered, or its position is that of the current window. -/
def Knows (s : Session) (x : HistoryEntry) : Prop :=
  s.workspace.Remembers x ∨ x.origin = Workspace.positionOf s.workspace.window

theorem knows_history (s : Session) :
  ∀ x ∈ s.workspace.window.history.entries, s.Knows x
  := fun _ hx => .inl ⟨_, Windows.current_mem_all _, hx⟩

theorem visitInvariant_remembers (Q : HistoryEntry → Prop) :
  VisitInvariant fun ws => ∀ x, ws.Remembers x → Q x
  := by
  constructor
  · exact fun ws w path h x hx => h x (hx.of_repeats (ws.repeats_editFile w path))
  · exact fun ws c _ h x hx => h x (hx.of_repeats (ws.repeats_setCursor c))

/-- Until a tag is resolved the editor only shows notices, so it stays where the session was. -/
theorem editor_recalls (s : Session) (id : Nat) :
  (editor id).Recalls (fun s' => s'.workspace = s.workspace)
    (fun s' => ∀ x, s'.workspace.Remembers x → s.Knows x) s.Knows
  := by
  constructor
  · exact fun notice s' hs' => hs'
  · intro tagName s' hs'
    right
    exact congrArg (fun ws : Workspace => Workspace.positionOf ws.window) hs'
  · intro s' hs' x hx
    rw [hs'] at hx
    exact .inl hx
  · intro h tagName s' hs' hh
    apply (visitInvariant_remembers s.Knows).resolve
    intro x hx
    rcases remembers_withHistory hx with hold | hnew
    · rw [hs'] at hold
      exact .inl hold
    · exact hh x hnew
  · exact fun notice s' hs' => hs'

theorem knows_of_conclude {origin : Nat} {share : Bool} {m : Moved Session Fault}
    (hm : (∀ x, m.state.workspace.Remembers x → s.Knows x) ∧ ∀ x ∈ m.history.entries, s.Knows x)
    (hx : (conclude origin share m).2.workspace.Remembers x) :
  s.Knows x
  :=
  (remembers_conclude hx).elim (hm.1 x) (hm.2 x)

theorem knows_of_jumpToTag {name : Text} {count : Int}
    (hx : (s.jumpToTag name count).2.workspace.Remembers x) :
  s.Knows x
  := by
  refine knows_of_conclude ?_ hx
  apply History.recalls_push (editor_recalls s s.workspace.window.id)
  · rfl
  · exact knows_history s

theorem knows_of_newer {count : Int} (hx : (s.newer count).2.workspace.Remembers x) :
  s.Knows x
  := by
  refine knows_of_conclude ?_ hx
  apply History.recalls_newer (editor_recalls s s.workspace.window.id)
  · rfl
  · exact knows_history s

/-! ### Steps back -/

theorem pop_eq (s : Session) (count : Int) :
  s.pop count
    = conclude s.workspace.window.id false
      (History.older (editor s.workspace.window.id) count s.workspace.window.history s.clearStatus)
  := rfl

/-- A step back without an entry to go to fails. -/
theorem pop_of_none {count : Int} (hx : s.workspace.window.history.olderEntry? count = none) :
  ∃ notice, s.pop count = (.ok false,
    (s.clearStatus.notify notice).withHistory s.workspace.window.id s.workspace.window.history)
  := by
  obtain ⟨notice, holder⟩ :=
    History.older_of_none (editor s.workspace.window.id) hx s.clearStatus
  refine ⟨notice, ?_⟩
  rw [pop_eq, holder, conclude_unshared]
  rfl

/-- A step back that succeeds has an entry to go to. -/
theorem exists_olderEntry?_of_pop {count : Int} (h : (s.pop count).1 = .ok true) :
  ∃ x, s.workspace.window.history.olderEntry? count = some x
  := by
  cases hx : s.workspace.window.history.olderEntry? count with
  | some x => exact ⟨x, rfl⟩
  | none =>
      obtain ⟨notice, hpop⟩ := pop_of_none hx
      rw [hpop] at h
      cases h

section

variable {count : Int} (hx : s.workspace.window.history.olderEntry? count = some x)

include hx

/-- A step back comes to going to the position of its entry. -/
theorem exists_returns_of_some :
  ∃ s' m, s'.workspace = s.workspace
    ∧ History.Returns (editor s.workspace.window.id) s.workspace.window.history x s' m
    ∧ s.pop count = (m.result, m.state.withHistory s.workspace.window.id m.history)
  := by
  obtain ⟨s', hs', hreturns⟩ :=
    History.older_of_some (editor s.workspace.window.id) hx s.clearStatus
  refine ⟨s', _, ?_, hreturns, conclude_unshared _ _⟩
  rcases hs' with rfl | rfl
  · rfl
  · rfl

theorem pop_of_ok {ws : Workspace} (hgo : s.workspace.goTo x.origin = .ok ws) :
  ∃ number, ∃ s' : Session, s'.workspace = ws ∧ s.pop count = (.ok true,
    s'.withHistory s.workspace.window.id { s.workspace.window.history with index := number })
  := by
  obtain ⟨s', m, hs', hreturns, hpop⟩ := exists_returns_of_some hx
  rw [hpop]
  cases hreturns with
  | made number hmade =>
      simp only [editor, hs', hgo, Prod.mk.injEq, true_and] at hmade
      exact ⟨number, _, by rw [← hmade], rfl⟩
  | refused hrefused => simp [editor, hs', hgo] at hrefused

theorem pop_of_error {why : SwitchRefusal} (hgo : s.workspace.goTo x.origin = .error why) :
  ∃ s' : Session, s'.workspace = s.workspace ∧ s'.status = why.message ∧ s.pop count = (.ok false,
    s'.withHistory s.workspace.window.id s.workspace.window.history)
  := by
  obtain ⟨s', m, hs', hreturns, hpop⟩ := exists_returns_of_some hx
  rw [hpop]
  cases hreturns with
  | made number hmade => simp [editor, hs', hgo] at hmade
  | refused hrefused =>
      simp only [editor, hs', hgo, Prod.mk.injEq, Option.some.injEq] at hrefused
      obtain ⟨rfl, rfl⟩ := hrefused
      exact ⟨s'.notify why.message, hs', rfl, rfl⟩

end

theorem knows_of_pop {count : Int} (hx : (s.pop count).2.workspace.Remembers x) :
  s.Knows x
  := by
  have hreplaced {s' : Session} {h : History}
      (hx : (s'.withHistory s.workspace.window.id h).workspace.Remembers x)
      (hh : h.entries = s.workspace.window.history.entries)
      (hs' : s.workspace.windows.Repeats s'.workspace.windows) : s.Knows x := by
    rcases remembers_withHistory hx with hold | hnew
    · exact .inl (hold.of_repeats hs')
    · rw [hh] at hnew
      exact knows_history s x hnew
  cases htarget : s.workspace.window.history.olderEntry? count with
  | none =>
      obtain ⟨notice, hpop⟩ := pop_of_none htarget
      rw [hpop] at hx
      exact hreplaced hx rfl (.refl _)
  | some target =>
      cases hgo : s.workspace.goTo target.origin with
      | ok ws =>
          obtain ⟨number, s', rfl, hpop⟩ := pop_of_ok htarget hgo
          rw [hpop] at hx
          exact hreplaced hx rfl (Workspace.onlyShows_goTo hgo).repeats
      | error why =>
          obtain ⟨s', hs', -, hpop⟩ := pop_of_error htarget hgo
          rw [hpop] at hx
          apply hreplaced hx rfl
          rw [hs']
          exact .refl _

/-! ### Runs -/

/-- After an event a window remembers only what one remembered before, and entries with the position
of the window that was current. -/
theorem knows_of_run {e : Event} (hx : (e.run s).workspace.Remembers x) :
  s.Knows x
  := by
  have hrepeats {ws : Workspace} (h : s.workspace.windows.Repeats ws.windows)
      (hx : ws.Remembers x) : s.Knows x := .inl (hx.of_repeats h)
  cases e with
  | flag number value => exact hrepeats (.refl _) hx
  | act a =>
      cases a with
      | edit path => exact hrepeats (s.workspace.repeats_editFile s.world path) hx
      | goTo p =>
          simp only [Event.run, Action.run] at hx
          split at hx
          next hgo => exact hrepeats (Workspace.onlyShows_goTo hgo).repeats hx
          · exact hrepeats (.refl _) hx
      | setCursor c => exact hrepeats (s.workspace.repeats_setCursor c) hx
      | jump name count => exact knows_of_jumpToTag hx
      | splitJump name count =>
          have hpending : (s.inWorkspace fun ws => { ws with splitPending := true }).Knows x :=
            knows_of_jumpToTag hx
          exact hpending
      | pop count => exact knows_of_pop hx
      | newer count => exact knows_of_newer hx
      | split => exact hrepeats s.workspace.repeats_split hx
      | setPending value => exact hrepeats (.refl _) hx
      | detach => exact hrepeats (Workspace.onlyShows_detach s.workspace).repeats hx
      | close id fallback => exact hrepeats (s.workspace.repeats_close id fallback) hx
      | focus place => exact hrepeats (s.workspace.repeats_focus place) hx
      | setModified number value => exact hrepeats (.refl _) hx
      | wipe number => exact hrepeats (.refl _) hx
      | changeFiles files => exact hrepeats (.refl _) hx

/-- The event puts the entry into a history: no window remembered it before, and one does after it.
Its position is that of the current window at the start of the event. -/
structure Event.Saves (e : Event) (s : Session) (x : HistoryEntry) : Prop where
  absent : ¬ s.workspace.Remembers x
  present : (e.run s).workspace.Remembers x
  origin : x.origin = Workspace.positionOf s.workspace.window

theorem runAll_append (events events' : List Event) (s : Session) :
  s.runAll (events ++ events') = (s.runAll events).runAll events'
  :=
  List.foldl_append

/-- Every entry of a history was saved by an event of the run. -/
theorem exists_saves (world : World) (options : Options) {events : List Event}
    (hx : ((start world options).runAll events).workspace.Remembers x) :
  ∃ earlier e later, events = earlier ++ e :: later
    ∧ e.Saves ((start world options).runAll earlier) x
  := by
  induction events using List.reverseRecOn with
  | nil =>
      obtain ⟨w, hw, hx⟩ := hx
      obtain rfl := List.mem_singleton.mp hw
      cases hx
  | append_singleton events e ih =>
      rw [runAll_append] at hx
      by_cases hold : ((start world options).runAll events).workspace.Remembers x
      · obtain ⟨earlier, e', later, rfl, hsaves⟩ := ih hold
        exact ⟨earlier, e', later ++ [e], by simp, hsaves⟩
      · exact ⟨events, e, [], rfl, hold, hx, (knows_of_run hx).resolve_left hold⟩

end Session

end TagNavigator
