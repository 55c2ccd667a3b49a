import TagNavigator.Proofs.Session.Attainable
import TagNavigator.Proofs.Workspace.Frame

/-!
# Independent windows

A command acts on the current window, and leaves every other one as it is.  A window that it opens
stands above the one that was current, and has the same history when the command has returned; from
then on the two go apart (`independent_of_attainable`).  Whatever happens, a window stays as it is
until something is done in it or it is closed (`mem_runAll_of_aside`).
-/

namespace TagNavigator

/-- The windows `ws'` are those of `ws`, but for the current one; or a new window was opened above
that one, is current, and has the same history. -/
def Windows.SharedFrame (ws ws' : Windows) : Prop :=
  (∃ w, w.id = ws.current.id ∧ ws' = { ws with current := w })
    ∨ ∃ new, new.id ∉ ws.ids
      ∧ ws' = ⟨ws.above, new, { ws.current with history := new.history } :: ws.below⟩

theorem Windows.SharedFrame.frame {ws ws' : Windows} (h : ws.SharedFrame ws') :
  ws.Frame ws'
  := by
  rcases h with ⟨w, hid, h⟩ | ⟨new, -, h⟩
  · exact .stay w hid h
  · exact .part new new.history h

theorem Workspace.OnlyShows.sharedFrame {ws ws' : Workspace} (h : ws.OnlyShows ws') :
  ws.windows.SharedFrame ws'.windows
  := by
  obtain ⟨buffer, cursor, hwindows⟩ := h
  left
  exact ⟨{ ws.window with buffer := buffer, cursor := cursor }, rfl, hwindows⟩

theorem Workspace.Distinct.sharedFrame_editFile {ws : Workspace} (h : ws.Distinct) (w : World)
    (path : Path) :
  ws.windows.SharedFrame (ws.editFile w path).2.2.windows
  := by
  rcases onlyShows_editFile h w path with hwindows | hshows
  · apply (onlyShows_of_windows hwindows).sharedFrame
  · cases hpending : ws.splitPending with
    | false =>
        rw [opened_of_not_pending hpending] at hshows
        exact hshows.sharedFrame
    | true =>
        rw [opened_of_pending hpending] at hshows
        obtain ⟨buffer, cursor, hwindows⟩ := hshows
        right
        refine ⟨_, ?_, hwindows⟩
        intro hmem
        exact absurd (h.fresh _ hmem) (Nat.lt_irrefl _)

namespace Session

variable {s : Session}

/-! ### The windows after a command -/

theorem framed_jumpInvariant (ws₀ : Windows) :
  JumpInvariant ws₀.current.id fun ws => ws.Distinct ∧ Workspace.Framed ws₀ ws
  := by
  constructor
  · exact fun ws w path h => ⟨h.1.editFile w path, h.2.editFile h.1 w path⟩
  · intro ws c hpending h
    have hshows : ws.OnlyShows (ws.setCursor c) :=
      (Workspace.onlyShows_of_windows rfl).setCursor c
    exact ⟨h.1.setCursor c, h.2.of_onlyShows hshows hpending⟩
  · exact fun ws history h =>
      ⟨invariant_distinct.withHistory ws _ history h.1, h.2.withHistory h.1 history⟩
  · exact fun ws history h => ⟨invariant_distinct.share ws history h.1, h.2.share history⟩

/-- A window that was opened above another one gets its history. -/
theorem sharedFrame_shareHistory {ws₀ : Windows} (hdistinct : s.workspace.Distinct)
    (hframe : ws₀.Frame s.workspace.windows) :
  ws₀.SharedFrame (s.shareHistory ws₀.current.id).workspace.windows
  := by
  cases hframe with
  | stay w hid h =>
      have hcurrent : s.workspace.window.id = ws₀.current.id := by
        rw [Workspace.window, h]
        exact hid
      rw [shareHistory, if_pos hcurrent]
      left
      exact ⟨w, hid, h⟩
  | part new history h =>
      have hnodup := hdistinct.nodup
      rw [h] at hnodup
      have hnew : new.id ∉ ws₀.ids := Windows.notMem_ids_of_part hnodup rfl
      have hother : s.workspace.window.id ≠ ws₀.current.id := by
        rw [Workspace.window, h]
        intro hid
        apply hnew
        dsimp only at hid
        rw [hid]
        apply List.mem_map_of_mem (Windows.current_mem_all ws₀)
      have hfind : s.workspace.windows.find? ws₀.current.id
          = some { ws₀.current with history := history } := by
        rw [h]
        exact Windows.find?_of_mem hnodup (Windows.old_mem_all _ _ _ _)
      simp only [shareHistory, if_neg hother, hfind]
      right
      refine ⟨{ new with history := history }, hnew, ?_⟩
      rw [inWorkspace, Workspace.withWindow, Workspace.window, h]

theorem sharedFrame_conclude {ws₀ : Windows} {m : Moved Session Fault}
    (hm : m.state.workspace.Distinct ∧ Workspace.Framed ws₀ m.state.workspace)
    (hdone : faultOf (conclude ws₀.current.id true m).1 = none) :
  ws₀.SharedFrame (conclude ws₀.current.id true m).2.workspace.windows
  := by
  obtain ⟨hdistinct, hframed⟩ := (framed_jumpInvariant ws₀).withHistory _ m.history hm
  rw [fst_conclude] at hdone
  rw [conclude]
  split
  next e he =>
    rw [he] at hdone
    cases hdone
  · exact sharedFrame_shareHistory hdistinct hframed.frame

theorem sharedFrame_goTo (p : Position) :
  s.workspace.windows.SharedFrame ((Action.goTo p).run s).2.workspace.windows
  := by
  simp only [Action.run]
  split
  next hgo => exact (Workspace.onlyShows_goTo hgo).sharedFrame
  · exact (Workspace.onlyShows_of_windows rfl).sharedFrame

theorem sharedFrame_setCursor (c : Cursor) :
  s.workspace.windows.SharedFrame (s.workspace.setCursor c).windows
  := by
  apply Workspace.OnlyShows.sharedFrame
  apply Workspace.OnlyShows.setCursor
  exact Workspace.onlyShows_of_windows rfl

section

variable (h : s.workspace.Distinct)

include h

theorem frame_jumpToTag (name : Text) (count : Int) :
  s.workspace.windows.Frame (s.jumpToTag name count).2.workspace.windows
  := by
  have hself : s.workspace.Distinct ∧ Workspace.Framed s.workspace.windows s.workspace :=
    ⟨h, Workspace.framed_self _⟩
  exact ((framed_jumpInvariant _).jumpToTag hself name count).2.frame

theorem sharedFrame_jumpToTag {name : Text} {count : Int}
    (hdone : faultOf (s.jumpToTag name count).1 = none) :
  s.workspace.windows.SharedFrame (s.jumpToTag name count).2.workspace.windows
  := by
  refine sharedFrame_conclude ?_ hdone
  apply History.keeps_push (framed_jumpInvariant _).editor_keepsResolving
  exact ⟨h, Workspace.framed_self _⟩

theorem sharedFrame_newer {count : Int} (hdone : faultOf (s.newer count).1 = none) :
  s.workspace.windows.SharedFrame (s.newer count).2.workspace.windows
  := by
  refine sharedFrame_conclude ?_ hdone
  apply History.keeps_newer (framed_jumpInvariant _).editor_keepsResolving
  exact ⟨h, Workspace.framed_self _⟩

/-- Going back changes what the current window shows, and its history. -/
theorem sharedFrame_pop (count : Int) :
  s.workspace.windows.SharedFrame (s.pop count).2.workspace.windows
  := by
  -- `Framed` is not kept here: going back moves the window while a split may stay pending.
  let origin := s.workspace.window
  let m := History.older (editor origin.id) count origin.history s.clearStatus
  have hkeeps : (editor origin.id).KeepsGoing fun s' =>
      s.workspace.OnlyShows s'.workspace ∧ s'.workspace.Distinct := by
    apply editor_keepsGoing (P := fun ws => s.workspace.OnlyShows ws ∧ ws.Distinct)
    exact fun ws ws' p h hgo => ⟨h.1.trans (Workspace.onlyShows_goTo hgo), h.2.goTo hgo⟩
  obtain ⟨⟨buffer, cursor, hwindows⟩, hdistinct⟩ :=
    History.keeps_older hkeeps (s := s.clearStatus) ⟨Workspace.onlyShows_of_windows rfl, h⟩ count
      origin.history
  have hnodup := hdistinct.nodup
  change s.workspace.windows.SharedFrame (conclude origin.id false m).2.workspace.windows
  rw [conclude_unshared]
  left
  refine ⟨{ origin with buffer := buffer, cursor := cursor, history := m.history }, rfl, ?_⟩
  change m.state.workspace.windows.update origin.id _ = _
  rw [hwindows] at hnodup ⊢
  exact Windows.update_current hnodup _

/-- Whether it returns or breaks off, an action of the current window changes no other window. -/
theorem frame_run {a : Action} (ha : a.Steers) :
  s.workspace.windows.Frame (a.run s).2.workspace.windows
  := by
  cases a with
  | edit path => exact (h.sharedFrame_editFile s.world path).frame
  | goTo p => exact (sharedFrame_goTo p).frame
  | setCursor c => exact (sharedFrame_setCursor c).frame
  | jump name count => exact frame_jumpToTag h name count
  | splitJump name count => exact frame_jumpToTag (distinct_pending h) name count
  | pop count => exact (sharedFrame_pop h count).frame
  | newer count =>
      have hframed := (framed_jumpInvariant _).newer ⟨h, Workspace.framed_self _⟩ count
      exact hframed.2.frame
  | _ => cases ha

/-- When an action of the current window has returned, a window that it has opened has the history
of that window. -/
theorem sharedFrame_run {a : Action} (ha : a.Steers) (hdone : (a.run s).1 = none) :
  s.workspace.windows.SharedFrame (a.run s).2.workspace.windows
  := by
  cases a with
  | edit path => exact h.sharedFrame_editFile s.world path
  | goTo p => exact sharedFrame_goTo p
  | setCursor c => exact sharedFrame_setCursor c
  | jump name count => exact sharedFrame_jumpToTag h hdone
  | splitJump name count => exact sharedFrame_jumpToTag (distinct_pending h) hdone
  | pop count => exact sharedFrame_pop h count
  | newer count => exact sharedFrame_newer h hdone
  | _ => cases ha

end

/-! ### Later events -/

/-- The action is done in the window with the identity `id`, or closes it. -/
def Action.Alters (id : Nat) (s : Session) : Action → Prop
  | close other _ => other = id
  | a => (a.Steers ∨ a = detach) ∧ s.workspace.window.id = id

/-- None of the events is done in the window with the identity `id` or closes it. -/
def Aside (id : Nat) : List Event → Session → Prop
  | [], _ => True
  | .act a :: rest, s => ¬ a.Alters id s ∧ Aside id rest (a.run s).2
  | .flag number value :: rest, s => Aside id rest ((Event.flag number value).run s)

/-- A window stays as it is when an action is done in another one. -/
theorem mem_run (h : s.workspace.Distinct) {w : Window} (hw : w ∈ s.workspace.windows.all)
    {a : Action} (ha : ¬ a.Alters w.id s) :
  w ∈ (a.run s).2.workspace.windows.all
  := by
  have hsteered (hsteers : a.Steers) (hne : w.id ≠ s.workspace.window.id) :
      w ∈ (a.run s).2.workspace.windows.all :=
    (frame_run h hsteers).mem hw hne
  cases a with
  | close id fallback => exact Windows.mem_close hw (Ne.symm ha) fallback
  | detach =>
      apply (Workspace.onlyShows_detach s.workspace).sharedFrame.frame.mem hw
      exact fun hid => ha ⟨.inr rfl, hid.symm⟩
  | split => exact Windows.mem_openAbove hw _
  | focus place =>
      change w ∈ (s.workspace.windows.focus place).all
      rw [Windows.all_focus]
      exact hw
  | setPending value => exact hw
  | setModified number value => exact hw
  | wipe number => exact hw
  | changeFiles files => exact hw
  | _ => exact hsteered trivial fun hid => ha ⟨.inl trivial, hid.symm⟩

/-- A window stays as it is while everything is done in other windows. -/
theorem mem_runAll_of_aside (h : s.workspace.Distinct) {w : Window}
    (hw : w ∈ s.workspace.windows.all) {events : List Event} (haside : Aside w.id events s) :
  w ∈ (s.runAll events).workspace.windows.all
  := by
  induction events generalizing s with
  | nil => exact hw
  | cons e events ih =>
      have hdistinct := invariant_distinct.event h e
      cases e with
      | act a =>
          obtain ⟨ha, haside⟩ := haside
          exact ih hdistinct (mem_run h hw ha) haside
      | flag number value => exact ih hdistinct hw haside

/-- In an attainable session, let an action switch the current window, move its cursor, or step
through its history.  When it has returned, all other windows are what they were, in their order, and
at most one was opened: it stands above the window that was current, is current itself, and has the
history of that window, which shows what it did.  From then on every window stays as it is while
everything is done in other ones.  After a jump in a new window, whatever came of it, no split is
pending. -/
theorem independent_of_attainable (h : Attainable s) {a : Action} (ha : a.Steers) :
  ((a.run s).1 = none → s.workspace.windows.SharedFrame (a.run s).2.workspace.windows)
    ∧ (∀ w ∈ (a.run s).2.workspace.windows.all, ∀ later, Aside w.id later (a.run s).2 →
      w ∈ ((a.run s).2.runAll later).workspace.windows.all)
    ∧ ∀ name count, (s.splitAndJump name count).2.workspace.splitPending = false
  := by
  refine ⟨sharedFrame_run h.distinct ha, ?_, ?_⟩
  · intro w hw later haside
    apply mem_runAll_of_aside _ hw haside
    exact (h.step (.act a)).distinct
  · intro name count
    rfl

/-- A jump in a new window, which then goes back twice: its history is at the start, that of the old
window is not. -/
theorem independent_of_attainable_split :
  let s := (start twoFiles {}).runAll [.act (.jump ['f'] 1)]
  let s' := ((Action.splitJump ['g'] 1).run s).2
  let later : List Event := [.act (.pop 1), .act (.pop 1)]
  let summary (w : Window) := (w.id, w.buffer, w.history.entries.length, w.history.index)
  s'.workspace.windows.all.map summary = [(1, some 2, 2, 2), (0, some 1, 2, 2)]
    ∧ (s'.runAll later).workspace.windows.all.map summary = [(1, none, 2, 0), (0, some 1, 2, 2)]
    ∧ s.workspace.windows.SharedFrame s'.workspace.windows
    ∧ ∀ w ∈ s'.workspace.windows.all, w.id = 0 → w ∈ (s'.runAll later).workspace.windows.all
  := by
  intro s s' later summary
  subst s'
  have hattainable : Attainable s := (Attainable.start _ _).runAll _
  obtain ⟨hshared, hlater, -⟩ :=
    independent_of_attainable hattainable (a := .splitJump ['g'] 1) trivial
  refine ⟨?_, ?_, hshared ?_, ?_⟩
  · decide +kernel
  · decide +kernel
  · decide +kernel
  · intro w hw hid
    have hfirst : ((Action.splitJump ['g'] 1).run s).2.workspace.window.id ≠ 0 := by
      decide +kernel
    have hsecond :
        ((Action.pop 1).run ((Action.splitJump ['g'] 1).run s).2).2.workspace.window.id ≠ 0 := by
      decide +kernel
    apply hlater w hw later
    refine ⟨?_, ?_, trivial⟩
    · exact fun halters => hfirst (halters.2.trans hid)
    · exact fun halters => hsecond (halters.2.trans hid)

end Session

end TagNavigator
