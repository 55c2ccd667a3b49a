import TagNavigator.History.Basic

/-!
# Operations on a history

The operations on a history of jumps as data, and the trace of a sequence of them.  An editor is
plain if it resolves tags without regard to the history and never breaks off.  A recording editor
keeps the notices that the history shows.  What an editor keeps by itself, it keeps through every
operation on a history.
-/

namespace TagNavigator

variable {σ ε : Type}

/-- The editor resolves tags without regard to the history, and either makes a jump or refuses
it. -/
structure Editor.Plain (ed : Editor σ ε) : Prop where
  blind : ∀ h h' tagName s, ed.resolve h tagName s = ed.resolve h' tagName s
  whole : ∀ h tagName s e, (ed.resolve h tagName s).1 ≠ .broken e

/-- The editor with a record of the notices that are shown. -/
def Editor.recording (ed : Editor σ ε) : Editor (σ × List Text) ε where
  position s := ed.position s.1
  resolve h tagName s := ((ed.resolve h tagName s.1).1, (ed.resolve h tagName s.1).2, s.2)
  goTo p s := ((ed.goTo p s.1).1, (ed.goTo p s.1).2, s.2)
  notify notice s := (ed.notify notice s.1, s.2 ++ [notice])

/-- Recording notices does not tell the editor about the history. -/
theorem Editor.Plain.recording {ed : Editor σ ε} (h : ed.Plain) :
  ed.recording.Plain
  := by
  constructor
  · intro old new tagName s
    simp only [Editor.recording, h.blind old new]
  · intro old tagName s
    apply h.whole

/-- Whether it gets to positions or not, the property `P` of the editor's states stays true. -/
structure Editor.KeepsGoing (ed : Editor σ ε) (P : σ → Prop) : Prop where
  goTo : ∀ p s, P s → P (ed.goTo p s).2
  notify : ∀ notice s, P s → P (ed.notify notice s)

/-- Whatever comes of the tags that it resolves, the property `P` of the editor's states stays
true. -/
structure Editor.KeepsResolving (ed : Editor σ ε) (P : σ → Prop) : Prop where
  resolve : ∀ h tagName s, P s → P (ed.resolve h tagName s).2
  notify : ∀ notice s, P s → P (ed.notify notice s)

/-- Whatever the editor does, the property `P` of its states stays true. -/
structure Editor.Keeps (ed : Editor σ ε) (P : σ → Prop) : Prop extends
  ed.KeepsGoing P, ed.KeepsResolving P

namespace History

/-- An operation on a history. -/
inductive Operation where
  | push (tagName : Text) (count : Int)
  | older (count : Int)
  | newer (count : Int)
  deriving DecidableEq, Repr

/-- What comes of an operation. -/
def Operation.apply (ed : Editor σ ε) : Operation → History → σ → Moved σ ε
  | push tagName count => History.push ed tagName count
  | older count => History.older ed count
  | newer count => History.newer ed count

/-- What comes of each of the operations, one after the other. -/
def trace (ed : Editor σ ε) : List Operation → History → σ → List (Moved σ ε)
  | [], _, _ => []
  | o :: rest, h, s =>
    let m := o.apply ed h s
    m :: trace ed rest m.history m.state

/-! ### Recording a jump -/

/-- The number of entries that make room when a jump is recorded. -/
def evicted (h : History) : Nat :=
  if h.capacity ≤ (h.entries.take h.index).length then 1 else 0

theorem record_entries (h : History) (e : HistoryEntry) :
  (h.record e).entries = (h.entries.take h.index).drop h.evicted ++ [e]
  := by
  rw [record, evicted]
  split <;> rfl

@[simp]
theorem record_capacity (h : History) (e : HistoryEntry) :
  (h.record e).capacity = h.capacity
  := by
  rw [record]
  split <;> rfl

/-! ### Going to a tag -/

section

variable {ed : Editor σ ε} (before h : History) (number : Nat) {tagName : Text} {s : σ}

theorem jump_of_made {s' : σ} (hr : ed.resolve h tagName s = (.made, s')) :
  jump ed before h number tagName s = ⟨.ok true, { h with index := number + 1 }, s'⟩
  := by
  rw [jump, hr]

theorem jump_of_refused {notice : Text} {s' : σ}
    (hr : ed.resolve h tagName s = (.refused notice, s')) :
  jump ed before h number tagName s = ⟨.ok false, before, ed.notify notice s'⟩
  := by
  rw [jump, hr]

theorem jump_of_broken {e : ε} {s' : σ} (hr : ed.resolve h tagName s = (.broken e, s')) :
  jump ed before h number tagName s = ⟨.error e, h, s'⟩
  := by
  rw [jump, hr]

end

/-! ### Going to a newer entry -/

/-- The number of the entry that is meant by a step to a newer one. -/
def newerNumber (h : History) (count : Int) : Nat :=
  if (h.entries.length : Int) ≤ h.index + count - 1 then h.entries.length - 1
  else ((h.index : Int) + count - 1).toNat

/-- The state of the editor after the notice that a step to a newer entry goes beyond the last
one. -/
def atTop (ed : Editor σ ε) (h : History) (count : Int) (s : σ) : σ :=
  if (h.entries.length : Int) ≤ h.index + count - 1 then ed.notify topNotice s else s

/-- The history with the position of the editor in the entry of the given number. -/
def remember (ed : Editor σ ε) (h : History) (number : Nat) (entry : HistoryEntry) (s : σ) :
    History :=
  { h with entries := h.entries.set number { entry with origin := ed.position s } }

/-- A step to a newer entry that stays above the bottom is a jump to the tag of that entry. -/
theorem newer_of_nonneg (ed : Editor σ ε) {h : History} {count : Int} {last : HistoryEntry}
    (hlast : h.entries.getLast? = some last) (hw : 0 ≤ (h.index : Int) + count - 1) (s : σ) :
  newer ed count h s
    = jump ed h
        (remember ed h (h.newerNumber count) ((h.entries[h.newerNumber count]?).getD last)
          (h.atTop ed count s))
        (h.newerNumber count) ((h.entries[h.newerNumber count]?).getD last).tagName
        (h.atTop ed count s)
  := by
  simp only [newer, hlast, if_neg (Int.not_lt.mpr hw), decide_eq_true_eq]
  rfl

theorem remember_eq_self {ed : Editor σ ε} {h : History} {number : Nat} {entry : HistoryEntry} {s : σ}
    (hentry : h.entries[number]? = some entry) (horigin : entry.origin = ed.position s) :
  remember ed h number entry s = h
  := by
  obtain ⟨hlt, rfl⟩ := List.getElem?_eq_some_iff.mp hentry
  rw [remember, ← horigin, List.set_getElem_self]

/-- A step to the next entry is a jump to the tag of the entry at the index. -/
theorem newer_one (ed : Editor σ ε) {h : History} {entry : HistoryEntry}
    (hentry : h.entries[h.index]? = some entry) (s : σ) :
  newer ed 1 h s = jump ed h (remember ed h h.index entry s) h.index entry.tagName s
  := by
  obtain ⟨hlt, -⟩ := List.getElem?_eq_some_iff.mp hentry
  obtain ⟨last, hlast⟩ : ∃ last, h.entries.getLast? = some last := by
    apply Option.isSome_iff_exists.mp
    rw [List.getLast?_isSome]
    exact List.ne_nil_of_length_pos (by omega)
  have hwithin : ¬ (h.entries.length : Int) ≤ h.index + 1 - 1 := by
    omega
  have hnumber : h.newerNumber 1 = h.index := by
    rw [newerNumber, if_neg hwithin]
    omega
  rw [newer_of_nonneg ed hlast (by omega), atTop, if_neg hwithin, hnumber, hentry]
  rfl

theorem newer_of_nil (ed : Editor σ ε) {h : History} (hnil : h.entries = []) (count : Int) (s : σ) :
  newer ed count h s = ⟨.ok false, h, ed.notify emptyNotice s⟩
  := by
  simp only [newer, hnil, List.getLast?_nil]

/-! ### Going to an older entry -/

theorem older_of_nil (ed : Editor σ ε) {h : History} (hnil : h.entries = []) (count : Int) (s : σ) :
  older ed count h s = ⟨.ok false, h, ed.notify emptyNotice s⟩
  := by
  simp only [older, hnil, List.isEmpty_nil, if_true]

theorem older_of_nonneg (ed : Editor σ ε) {h : History} (hne : h.entries ≠ []) {count : Int}
    (hw : 0 ≤ (h.index : Int) - count) (s : σ) :
  older ed count h s = back ed h ((h.index : Int) - count).toNat s
  := by
  simp only [older, List.isEmpty_iff, if_neg hne, if_neg (Int.not_lt.mpr hw)]

/-- A step to the entry below goes to its position. -/
theorem older_one {ed : Editor σ ε} {h : History} {n : Nat} (hindex : h.index = n + 1)
    {entry : HistoryEntry} (hentry : h.entries[n]? = some entry) {s s' : σ}
    (hgo : ed.goTo entry.origin s = (none, s')) :
  older ed 1 h s = ⟨.ok true, { h with index := n }, s'⟩
  := by
  have hne : h.entries ≠ [] := by
    rintro hnil
    rw [hnil] at hentry
    cases hentry
  have hnumber : ((h.index : Int) - 1).toNat = n := by
    omega
  rw [older_of_nonneg ed hne (by omega), hnumber, back, hentry]
  simp only [hgo]

/-! ### What the editor keeps -/

section

variable {ed : Editor σ ε} {P : σ → Prop} {s : σ}

theorem keeps_jump (hed : ed.KeepsResolving P) (hs : P s) (before h : History) (number : Nat)
    (tagName : Text) :
  P (jump ed before h number tagName s).state
  := by
  have hresolve := hed.resolve h tagName s hs
  rw [jump]
  split
  next he =>
    rw [he] at hresolve
    exact hresolve
  next he =>
    rw [he] at hresolve
    apply hed.notify _ _ hresolve
  next he =>
    rw [he] at hresolve
    exact hresolve

theorem keeps_back (hed : ed.KeepsGoing P) (hs : P s) (h : History) (number : Nat) :
  P (back ed h number s).state
  := by
  rw [back]
  split
  · apply hed.notify _ _ hs
  next entry _ =>
    have hgo := hed.goTo entry.origin s hs
    split
    next he =>
      rw [he] at hgo
      exact hgo
    next he =>
      rw [he] at hgo
      apply hed.notify _ _ hgo

theorem keeps_newer (hed : ed.KeepsResolving P) (hs : P s) (count : Int) (h : History) :
  P (newer ed count h s).state
  := by
  rw [newer]
  split
  · apply hed.notify _ _ hs
  · dsimp only
    split
    · apply hed.notify _ _ hs
    · apply keeps_jump hed
      split
      · apply hed.notify _ _ hs
      · exact hs

theorem keeps_older (hed : ed.KeepsGoing P) (hs : P s) (count : Int) (h : History) :
  P (older ed count h s).state
  := by
  rw [older]
  split
  · apply hed.notify _ _ hs
  · dsimp only
    split
    · split
      · apply hed.notify _ _ hs
      · apply keeps_back hed
        apply hed.notify _ _ hs
    · apply keeps_back hed hs

theorem keeps_push (hed : ed.KeepsResolving P) (hs : P s) (tagName : Text) (count : Int)
    (h : History) :
  P (push ed tagName count h s).state
  := by
  rw [push]
  split
  · apply keeps_newer hed hs
  · apply keeps_jump hed hs

/-- What the editor keeps, every operation keeps. -/
theorem Operation.keeps (hed : ed.Keeps P) (hs : P s) (o : Operation) (h : History) :
  P (o.apply ed h s).state
  := by
  cases o with
  | push tagName count => exact keeps_push hed.toKeepsResolving hs tagName count h
  | older count => exact keeps_older hed.toKeepsGoing hs count h
  | newer count => exact keeps_newer hed.toKeepsResolving hs count h

end

/-! ### The bottom -/

/-- The operation does not ask for an entry below the first one. -/
def Operation.StaysAbove (h : History) : Operation → Prop
  | push tagName count =>
    tagName = [] → h.entries ≠ [] → 0 ≤ (h.index : Int) + count - 1
  | older count => h.entries ≠ [] → 0 ≤ (h.index : Int) - count
  | newer count => h.entries ≠ [] → 0 ≤ (h.index : Int) + count - 1

section

variable {ed : Editor σ ε} {h : History} {s : σ × List Text}

/-- Going back to an entry keeps the notices that were shown before. -/
theorem notices_subset_back (number : Nat) :
  s.2 ⊆ (back ed.recording h number s).state.2
  := by
  intro notice hnotice
  rw [back]
  split
  · apply List.mem_append_left
    exact hnotice
  · split
    next he =>
      obtain ⟨-, rfl⟩ := Prod.mk.inj he
      exact hnotice
    next he =>
      obtain ⟨-, rfl⟩ := Prod.mk.inj he
      apply List.mem_append_left
      exact hnotice

theorem nonneg_of_newer {count : Int}
    (hbottom : bottomNotice ∉ (newer ed.recording count h s).state.2) (hne : h.entries ≠ []) :
  0 ≤ (h.index : Int) + count - 1
  := by
  apply Int.not_lt.mp
  intro hw
  apply hbottom
  simp only [newer, List.getLast?_eq_some_getLast hne, if_pos hw]
  apply List.mem_append_right
  apply List.mem_singleton_self

theorem nonneg_of_older {count : Int}
    (hbottom : bottomNotice ∉ (older ed.recording count h s).state.2) (hne : h.entries ≠ []) :
  0 ≤ (h.index : Int) - count
  := by
  apply Int.not_lt.mp
  intro hw
  apply hbottom
  have hshown : bottomNotice ∈ (ed.recording.notify bottomNotice s).2 := by
    apply List.mem_append_right
    apply List.mem_singleton_self
  simp only [older, List.isEmpty_iff, if_neg hne, if_pos hw]
  split
  · exact hshown
  · exact notices_subset_back 0 hshown

/-- An operation that does not report the bottom stays above it. -/
theorem Operation.staysAbove_of_not_bottom {o : Operation}
    (hbottom : bottomNotice ∉ (o.apply ed.recording h s).state.2) :
  o.StaysAbove h
  := by
  cases o with
  | push tagName count =>
      rintro rfl hne
      exact nonneg_of_newer hbottom hne
  | older count => exact nonneg_of_older hbottom
  | newer count => exact nonneg_of_newer hbottom

end

end History

end TagNavigator
