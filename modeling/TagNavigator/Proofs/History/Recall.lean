import TagNavigator.Proofs.History.Operation

/-!
# What a history recalls

Where the entries of a history come from, and which of them a step back goes to.  A jump adds one
entry, a step to a newer tag renews one, and both put the position of the editor in it; what holds
of that entry and of all others goes on to hold of all entries (`Editor.Recalls`).
-/

namespace TagNavigator

variable {σ ε : Type}

/-- While the property `P` holds of the editor's states, the property `Q` holds of an entry with the
editor's position. Resolving a tag with entries that have the property `Q` leads to a state with the
property `P'`. -/
structure Editor.Recalls (ed : Editor σ ε) (P P' : σ → Prop) (Q : HistoryEntry → Prop) :
    Prop where
  notify : ∀ notice s, P s → P (ed.notify notice s)
  position : ∀ tagName s, P s → Q ⟨tagName, ed.position s⟩
  weaken : ∀ s, P s → P' s
  resolve : ∀ h tagName s, P s → (∀ x ∈ h.entries, Q x) → P' (ed.resolve h tagName s).2
  notify' : ∀ notice s, P' s → P' (ed.notify notice s)

namespace History

/-! ### Entries that are recorded -/

section

variable {ed : Editor σ ε} {P P' : σ → Prop} {Q : HistoryEntry → Prop} {h : History} {s : σ}
  (hed : ed.Recalls P P' Q) (hs : P s) (hh : ∀ x ∈ h.entries, Q x)

include hed hs hh

theorem recalls_jump {h' : History} (hh' : ∀ x ∈ h'.entries, Q x) (number : Nat) (tagName : Text) :
  P' (jump ed h h' number tagName s).state
    ∧ ∀ x ∈ (jump ed h h' number tagName s).history.entries, Q x
  := by
  have hresolve := hed.resolve h' tagName s hs hh'
  rw [jump]
  split
  next he =>
    rw [he] at hresolve
    exact ⟨hresolve, hh'⟩
  next he =>
    rw [he] at hresolve
    exact ⟨hed.notify' _ _ hresolve, hh⟩
  next he =>
    rw [he] at hresolve
    exact ⟨hresolve, hh'⟩

theorem recalls_newer (count : Int) :
  P' (newer ed count h s).state ∧ ∀ x ∈ (newer ed count h s).history.entries, Q x
  := by
  have hnotice (notice : Text) : P' (ed.notify notice s) :=
    hed.weaken _ (hed.notify notice s hs)
  rw [newer]
  split
  · exact ⟨hnotice _, hh⟩
  · dsimp only
    split
    · exact ⟨hnotice _, hh⟩
    · apply recalls_jump hed _ hh
      · intro x hx
        rcases List.mem_or_eq_of_mem_set hx with hold | rfl
        · exact hh x hold
        · apply hed.position
          split
          · exact hed.notify _ _ hs
          · exact hs
      · split
        · exact hed.notify _ _ hs
        · exact hs

theorem recalls_push (tagName : Text) (count : Int) :
  P' (push ed tagName count h s).state ∧ ∀ x ∈ (push ed tagName count h s).history.entries, Q x
  := by
  rw [push]
  split
  · exact recalls_newer hed hs hh count
  · apply recalls_jump hed hs hh
    intro x hx
    rw [record_entries] at hx
    rcases List.mem_append.mp hx with hold | hnew
    · exact hh x (List.mem_of_mem_take (List.mem_of_mem_drop hold))
    · rw [List.mem_singleton.mp hnew]
      exact hed.position _ _ hs

end

/-! ### The entry that a step back goes to -/

/-- The entry that a step back goes to. Below the oldest entry that one is meant, unless the index
is there already. -/
def olderEntry? (h : History) (count : Int) : Option HistoryEntry :=
  if (h.index : Int) - count < 0 then if h.index = 0 then none else h.entries[0]?
  else h.entries[((h.index : Int) - count).toNat]?

theorem olderEntry?_mem {h : History} {count : Int} {x : HistoryEntry}
    (hx : h.olderEntry? count = some x) :
  x ∈ h.entries
  := by
  unfold olderEntry? at hx
  split at hx
  · split at hx
    · cases hx
    · exact List.mem_of_getElem? hx
  · exact List.mem_of_getElem? hx

/-- Going to the position of the entry succeeds, and the history has another index, or fails with a
notice. -/
inductive Returns (ed : Editor σ ε) (h : History) (x : HistoryEntry) (s : σ) : Moved σ ε → Prop
  | made {s' : σ} (number : Nat) (hgo : ed.goTo x.origin s = (none, s')) :
      Returns ed h x s ⟨.ok true, { h with index := number }, s'⟩
  | refused {notice : Text} {s' : σ} (hgo : ed.goTo x.origin s = (some notice, s')) :
      Returns ed h x s ⟨.ok false, h, ed.notify notice s'⟩

theorem returns_back {ed : Editor σ ε} {h : History} {number : Nat} {x : HistoryEntry}
    (hx : h.entries[number]? = some x) (s : σ) :
  Returns ed h x s (back ed h number s)
  := by
  simp only [back, hx]
  split
  next hgo => exact .made number hgo
  next hgo => exact .refused hgo

/-- A step back without an entry to go to shows a notice. -/
theorem older_of_none (ed : Editor σ ε) {count : Int} {h : History}
    (hx : h.olderEntry? count = none) (s : σ) :
  ∃ notice, older ed count h s = ⟨.ok false, h, ed.notify notice s⟩
  := by
  unfold olderEntry? at hx
  by_cases hnil : h.entries = []
  · exact ⟨_, older_of_nil ed hnil count s⟩
  · simp only [older, List.isEmpty_iff, if_neg hnil]
    split at hx
    next hbelow =>
      rw [if_pos hbelow]
      split at hx
      next hzero =>
        rw [if_pos hzero]
        exact ⟨_, rfl⟩
      · have hlength := List.length_pos_iff.mpr hnil
        exact absurd (List.getElem?_eq_none_iff.mp hx) (Nat.not_le.mpr hlength)
    next habove =>
      rw [if_neg habove, back, hx]
      exact ⟨_, rfl⟩

/-- A step back goes to the position of its entry, perhaps after the notice that there are no more
entries below. -/
theorem older_of_some (ed : Editor σ ε) {count : Int} {h : History} {x : HistoryEntry}
    (hx : h.olderEntry? count = some x) (s : σ) :
  ∃ s', (s' = s ∨ s' = ed.notify bottomNotice s) ∧ Returns ed h x s' (older ed count h s)
  := by
  have hne : h.entries ≠ [] := List.ne_nil_of_mem (olderEntry?_mem hx)
  unfold olderEntry? at hx
  simp only [older, List.isEmpty_iff, if_neg hne]
  split at hx
  next hbelow =>
    rw [if_pos hbelow]
    split at hx
    · cases hx
    next hpos =>
      rw [if_neg hpos]
      exact ⟨_, .inr rfl, returns_back hx _⟩
  next habove =>
    rw [if_neg habove]
    exact ⟨s, .inl rfl, returns_back hx s⟩

end History

end TagNavigator
