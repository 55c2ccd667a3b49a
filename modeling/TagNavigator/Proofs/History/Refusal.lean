import Mathlib.Tactic.Use
import TagNavigator.Proofs.History.Bounds

/-!
# Refused operations

An operation on a history that is refused shows a notice, leaves the entries as they are, and the
editor where it was: all that the editor does on the way is to show notices and to refuse tags and
positions (`Editor.Stays`).  The index is left as it is too, with one exception: a step to a newer
entry that asks for one below the first entry sets it to zero (`refused_unchanged_iff`).
-/

namespace TagNavigator

variable {σ ε : Type}

/-- The state can be reached from `s` by nothing but notices and refusals. -/
inductive Editor.Stays (ed : Editor σ ε) (s : σ) : σ → Prop
  | refl : ed.Stays s s
  | notify (notice : Text) {s' : σ} (h : ed.Stays s s') : ed.Stays s (ed.notify notice s')
  | resolve {history : History} {tagName notice : Text} {s' s'' : σ} (h : ed.Stays s s')
    (hr : ed.resolve history tagName s' = (.refused notice, s'')) : ed.Stays s s''
  | goTo {p : Position} {notice : Text} {s' s'' : σ} (h : ed.Stays s s')
    (hg : ed.goTo p s' = (some notice, s'')) : ed.Stays s s''

/-- The editor stays, and shows a notice in the end. -/
def Editor.Declines (ed : Editor σ ε) (s s' : σ) : Prop :=
  ∃ notice s'', ed.Stays s s'' ∧ s' = ed.notify notice s''

section

variable {ed : Editor σ ε} {s s' s'' : σ}

theorem Editor.Declines.stays (h : ed.Declines s s') :
  ed.Stays s s'
  := by
  obtain ⟨notice, s'', hstays, rfl⟩ := h
  apply hstays.notify

theorem Editor.declines_notify (h : ed.Stays s s') (notice : Text) :
  ed.Declines s (ed.notify notice s')
  := ⟨notice, s', h, rfl⟩

/-- While the editor stays, notices are added and none is lost. -/
theorem Editor.Stays.notices {s s' : σ × List Text} (h : ed.recording.Stays s s') :
  ∃ shown, s'.2 = s.2 ++ shown
  := by
  induction h with
  | refl =>
      use []
      rw [List.append_nil]
  | notify notice h ih =>
      obtain ⟨shown, hshown⟩ := ih
      use shown ++ [notice]
      rw [← List.append_assoc, ← hshown]
      rfl
  | resolve h hr ih =>
      obtain ⟨-, rfl⟩ := Prod.mk.inj hr
      exact ih
  | goTo h hg ih =>
      obtain ⟨-, rfl⟩ := Prod.mk.inj hg
      exact ih

/-- If the editor declines, a notice is shown. -/
theorem Editor.Declines.notices {s s' : σ × List Text} (h : ed.recording.Declines s s') :
  ∃ shown notice, s'.2 = s.2 ++ shown ++ [notice]
  := by
  obtain ⟨notice, s'', hstays, rfl⟩ := h
  obtain ⟨shown, hshown⟩ := hstays.notices
  use shown, notice
  rw [← hshown]
  rfl

end

namespace History

/-- The operation asks for an entry below the first one, as a step to a newer entry. -/
def Operation.Undershoots (h : History) : Operation → Prop
  | push tagName count => tagName = [] ∧ h.entries ≠ [] ∧ (h.index : Int) + count - 1 < 0
  | older _ => False
  | newer count => h.entries ≠ [] ∧ (h.index : Int) + count - 1 < 0

variable {ed : Editor σ ε} {h : History} {s s' : σ}

/-! ### What a refusal does -/

theorem jump_of_not_moved {before : History} {number : Nat} {tagName : Text}
    (hs : ed.Stays s s') (hr : (jump ed before h number tagName s').result = .ok false) :
  (jump ed before h number tagName s').history = before
    ∧ ed.Declines s (jump ed before h number tagName s').state
  := by
  cases hresolve : ed.resolve h tagName s' with
  | mk resolution s'' =>
      cases resolution with
      | made =>
          rw [jump_of_made _ _ _ hresolve] at hr
          cases hr
      | refused notice =>
          rw [jump_of_refused _ _ _ hresolve]
          exact ⟨rfl, Editor.declines_notify (hs.resolve hresolve) notice⟩
      | broken e =>
          rw [jump_of_broken _ _ _ hresolve] at hr
          cases hr

theorem back_of_not_moved {number : Nat} (hs : ed.Stays s s')
    (hr : (back ed h number s').result = .ok false) :
  (back ed h number s').history = h ∧ ed.Declines s (back ed h number s').state
  := by
  cases hentry : h.entries[number]? with
  | none =>
      rw [back, hentry]
      exact ⟨rfl, Editor.declines_notify hs _⟩
  | some entry =>
      cases hgo : ed.goTo entry.origin s' with
      | mk refusal s'' =>
          simp only [back, hentry, hgo] at hr ⊢
          cases refusal with
          | none => cases hr
          | some notice => exact ⟨rfl, Editor.declines_notify (hs.goTo hgo) notice⟩

theorem older_of_not_moved {count : Int} (hr : (older ed count h s).result = .ok false) :
  (older ed count h s).history = h ∧ ed.Declines s (older ed count h s).state
  := by
  by_cases hne : h.entries = []
  · rw [older_of_nil ed hne]
    exact ⟨rfl, Editor.declines_notify .refl _⟩
  · by_cases hw : 0 ≤ (h.index : Int) - count
    · rw [older_of_nonneg ed hne hw] at hr ⊢
      apply back_of_not_moved .refl hr
    · simp only [older, List.isEmpty_iff, if_neg hne, if_pos (Int.not_le.mp hw)] at hr ⊢
      split
      · exact ⟨rfl, Editor.declines_notify .refl _⟩
      next hindex =>
        rw [if_neg hindex] at hr
        apply back_of_not_moved (Editor.Stays.refl.notify _) hr

/-- A step to a newer entry below the first one sets the index to zero. -/
theorem newer_of_undershoots (ed : Editor σ ε) {count : Int}
    (hu : (Operation.newer count).Undershoots h) (s : σ) :
  newer ed count h s = ⟨.ok false, { h with index := 0 }, ed.notify bottomNotice s⟩
  := by
  obtain ⟨hne, hw⟩ := hu
  simp only [newer, List.getLast?_eq_some_getLast hne, if_pos hw]

theorem newer_of_not_moved {count : Int} (hu : ¬ (Operation.newer count).Undershoots h)
    (hr : (newer ed count h s).result = .ok false) :
  (newer ed count h s).history = h ∧ ed.Declines s (newer ed count h s).state
  := by
  by_cases hne : h.entries = []
  · rw [newer_of_nil ed hne]
    exact ⟨rfl, Editor.declines_notify .refl _⟩
  · have hw : 0 ≤ (h.index : Int) + count - 1 := by
      apply Int.not_lt.mp
      intro hw
      exact hu ⟨hne, hw⟩
    have htop : ed.Stays s (h.atTop ed count s) := by
      rw [atTop]
      split
      · exact Editor.Stays.refl.notify _
      · exact .refl
    rw [newer_of_nonneg ed (List.getLast?_eq_some_getLast hne) hw] at hr ⊢
    apply jump_of_not_moved htop hr

/-! ### Refused operations -/

/-- An operation that undershoots sets the index to zero. -/
theorem Operation.apply_of_undershoots (ed : Editor σ ε) {o : Operation} (hu : o.Undershoots h)
    (s : σ) :
  o.apply ed h s = ⟨.ok false, { h with index := 0 }, ed.notify bottomNotice s⟩
  := by
  cases o with
  | push tagName count =>
      obtain ⟨rfl, hu⟩ := hu
      exact newer_of_undershoots ed hu s
  | older count => cases hu
  | newer count => exact newer_of_undershoots ed hu s

/-- Any other operation that is refused leaves the history as it is. -/
theorem Operation.apply_of_not_moved {o : Operation} (hu : ¬ o.Undershoots h)
    (hr : (o.apply ed h s).result = .ok false) :
  (o.apply ed h s).history = h ∧ ed.Declines s (o.apply ed h s).state
  := by
  cases o with
  | push tagName count =>
      change (History.push ed tagName count h s).result = _ at hr
      change (History.push ed tagName count h s).history = _
        ∧ ed.Declines s (History.push ed tagName count h s).state
      by_cases hname : tagName = []
      · subst hname
        apply newer_of_not_moved _ hr
        intro hnewer
        exact hu ⟨rfl, hnewer⟩
      · simp only [History.push, List.isEmpty_iff, if_neg hname] at hr ⊢
        apply jump_of_not_moved .refl hr
  | older count => exact older_of_not_moved hr
  | newer count => exact newer_of_not_moved hu hr

/-- The editor declines every operation that is refused. -/
theorem Operation.declines_of_not_moved {o : Operation}
    (hr : (o.apply ed h s).result = .ok false) :
  ed.Declines s (o.apply ed h s).state
  := by
  by_cases hu : o.Undershoots h
  · rw [apply_of_undershoots ed hu]
    exact Editor.declines_notify .refl _
  · exact (apply_of_not_moved hu hr).2

/-- A refused operation shows a notice and leaves the entries as they are.  It leaves the index as
it is exactly if it does not ask, by a step to a newer entry, for one below the first entry while
the index is above zero. -/
theorem refused_unchanged_iff (ed : Editor σ ε) (o : Operation) (h : History)
    (s : σ × List Text) (hr : (o.apply ed.recording h s).result = .ok false) :
  (∃ shown notice, (o.apply ed.recording h s).state.2 = s.2 ++ shown ++ [notice])
    ∧ (o.apply ed.recording h s).history.entries = h.entries
    ∧ ((o.apply ed.recording h s).history = h ↔ (o.Undershoots h → h.index = 0))
  := by
  refine ⟨(Operation.declines_of_not_moved hr).notices, ?_⟩
  by_cases hu : o.Undershoots h
  · rw [Operation.apply_of_undershoots _ hu]
    refine ⟨rfl, ?_⟩
    constructor
    · intro hsame _
      exact (congrArg History.index hsame).symm
    · intro hindex
      rw [← hindex hu]
  · have hsame := (Operation.apply_of_not_moved hu hr).1
    rw [hsame]
    refine ⟨rfl, ?_⟩
    constructor
    · intro _ hcontra
      exact absurd hcontra hu
    · intro _
      rfl

/-- In a full history, a jump to a tag that is not found takes back that the oldest entry made
room. -/
theorem refused_unchanged_iff_full :
  let ed := Scripted.editor
  let s : Scripted.State :=
    ⟨[(['a'], ⟨some 1, 4, 0⟩), (['b'], ⟨some 2, 9, 3⟩)], [], ⟨none, 1, 0⟩, none, []⟩
  let jump (tagName : Text) : Step Scripted.State Empty := .operate 0 ed (.push tagName 1)
  let f := (Family.start 2 s).run [jump ['a'], jump ['b']]
  ∃ h, f.histories = [h] ∧ h.index = h.capacity
    ∧ (push ed.recording ['c'] 1 h (f.state, [])).result = .ok false
    ∧ (push ed.recording ['c'] 1 h (f.state, [])).history = h
  := by
  intro ed s jump f
  refine ⟨_, rfl, rfl, rfl, ?_⟩
  apply (refused_unchanged_iff ed (.push ['c'] 1) _ (f.state, []) rfl).2.2.mpr
  rintro ⟨hname, -⟩
  cases hname

/-- A step to a newer entry below the first one is refused and still moves the index. -/
theorem newer_below_first_moves_index :
  let ed := Scripted.editor
  let s : Scripted.State :=
    ⟨[(['a'], ⟨some 1, 4, 0⟩), (['b'], ⟨some 2, 9, 3⟩)], [], ⟨none, 1, 0⟩, none, []⟩
  let jump (tagName : Text) : Step Scripted.State Empty := .operate 0 ed (.push tagName 1)
  let f := (Family.start 20 s).run [jump ['a'], jump ['b']]
  ∃ h, f.histories = [h] ∧ h.index = 2
    ∧ (newer ed (-2) h f.state).result = .ok false
    ∧ (newer ed (-2) h f.state).history.index = 0
  := ⟨_, rfl, rfl, rfl, rfl⟩

end History

end TagNavigator
