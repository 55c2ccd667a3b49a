import TagNavigator.Proofs.History.Refusal

/-!
# Steps back and forth

A step of `k` entries back lands on an entry, and a step of `k` entries forth jumps to the tag of
the entry before the index there was at first.  So the one undoes the other: the index and the names
are back as they were, and one tag was resolved on the way.  A jump that is made, be it to a new tag
or to a newer entry, leaves its tag and the position where it started in the entry below the index,
and the next step back goes there (`older_newer_of_run`).  An editor that records what is asked of
it (`Editor.asked`) shows that nothing else was asked.
-/

namespace TagNavigator

variable {σ ε : Type}

/-- What a history asks of an editor. -/
inductive Request where
  | resolve (tagName : Text)
  | goTo (p : Position)
  deriving DecidableEq, Repr

/-- The editor with a record of what is asked of it. -/
def Editor.asked (ed : Editor σ ε) : Editor (σ × List Request) ε where
  position s := ed.position s.1
  resolve h tagName s :=
    ((ed.resolve h tagName s.1).1, (ed.resolve h tagName s.1).2, s.2 ++ [.resolve tagName])
  goTo p s := ((ed.goTo p s.1).1, (ed.goTo p s.1).2, s.2 ++ [.goTo p])
  notify notice s := (ed.notify notice s.1, s.2)

/-- Notices leave the editor where it is. -/
def Editor.Quiet (ed : Editor σ ε) : Prop :=
  ∀ notice s, ed.position (ed.notify notice s) = ed.position s

namespace History

/-- The names of the tags in the entries, the oldest one first. -/
def tagNames (h : History) : List Text := h.entries.map (·.tagName)

/-- The operation is a jump, to a new tag or to a newer entry. -/
def Operation.IsJump : Operation → Prop
  | push _ _ | newer _ => True
  | older _ => False

variable {ed : Editor σ ε} {h : History}

/-! ### Stepping back -/

/-- A step back to one of the entries goes to the position of that entry. -/
theorem older_eq_back {k : Nat} (hindex : h.index ≤ h.entries.length) (hpos : 1 ≤ k)
    (hk : k ≤ h.index) (ed : Editor σ ε) (s : σ) :
  older ed k h s = back ed h (h.index - k) s
  := by
  have hne : h.entries ≠ [] := List.ne_nil_of_length_pos (by omega)
  have hnumber : ((h.index : Int) - k).toNat = h.index - k := by omega
  rw [older_of_nonneg ed hne (by omega), hnumber]

/-- Going back to an entry asks for its position, and for nothing else. -/
theorem asked_back {number : Nat} {entry : HistoryEntry} (hentry : h.entries[number]? = some entry)
    (s : σ × List Request) :
  (back ed.asked h number s).state.2 = s.2 ++ [.goTo entry.origin]
  := by
  rw [back, hentry]
  dsimp only
  split
  all_goals
    rename_i hgo
    obtain ⟨-, rfl⟩ := Prod.mk.inj hgo
    rfl

/-- Going back to an entry is made just if the editor accepts its position. -/
theorem back_made_iff {number : Nat} {entry : HistoryEntry}
    (hentry : h.entries[number]? = some entry) {s s' : σ} :
  (back ed h number s).result = .ok true ∧ (back ed h number s).state = s'
    ↔ ed.goTo entry.origin s = (none, s')
  := by
  rw [back, hentry]
  dsimp only
  split
  next t hgo => simp [hgo]
  next notice t hgo => simp [hgo]

theorem history_back_of_made {number : Nat} {s : σ}
    (hmade : (back ed h number s).result = .ok true) :
  (back ed h number s).history = { h with index := number }
  := by
  rw [back] at hmade ⊢
  split
  next hnone =>
    rw [hnone] at hmade
    cases hmade
  next entry hentry =>
    rw [hentry] at hmade
    dsimp only at hmade ⊢
    split at hmade
    · rfl
    · cases hmade

/-- A step back that is made goes to the position of the entry that it lands on, and asks for
nothing else. -/
theorem older_of_made {k : Nat} (hindex : h.index ≤ h.entries.length) (hpos : 1 ≤ k)
    (hk : k ≤ h.index) {s : σ × List Request} (hmade : (older ed.asked k h s).result = .ok true) :
  (older ed.asked k h s).history = { h with index := h.index - k }
    ∧ ∃ entry, h.entries[h.index - k]? = some entry
      ∧ (older ed.asked k h s).state.2 = s.2 ++ [.goTo entry.origin]
      ∧ ed.goTo entry.origin s.1 = (none, (older ed.asked k h s).state.1)
  := by
  have hlt : h.index - k < h.entries.length := by omega
  have hentry := List.getElem?_eq_getElem hlt
  rw [older_eq_back hindex hpos hk] at hmade ⊢
  obtain ⟨haccepted, hstate⟩ := Prod.mk.inj ((back_made_iff hentry).mp ⟨hmade, rfl⟩)
  refine ⟨history_back_of_made hmade, _, hentry, asked_back hentry s, ?_⟩
  exact Prod.ext haccepted (congrArg Prod.fst hstate)

/-! ### Jumping -/

/-- A jump asks for its tag, and for nothing else. -/
theorem asked_jump (before h : History) (number : Nat) (tagName : Text) (s : σ × List Request) :
  (jump ed.asked before h number tagName s).state.2 = s.2 ++ [.resolve tagName]
  := by
  rw [jump]
  split
  all_goals
    rename_i hresolve
    obtain ⟨-, rfl⟩ := Prod.mk.inj hresolve
    rfl

theorem history_jump_of_made {before h : History} {number : Nat} {tagName : Text} {s : σ}
    (hmade : (jump ed before h number tagName s).result = .ok true) :
  (jump ed before h number tagName s).history = { h with index := number + 1 }
  := by
  rw [jump] at hmade ⊢
  split at hmade
  · rfl
  · cases hmade
  · cases hmade

theorem tagNames_remember {number : Nat} {entry : HistoryEntry}
    (hentry : h.entries[number]? = some entry) (s : σ) :
  (h.remember ed number entry s).tagNames = h.tagNames
  := by
  obtain ⟨hlt, rfl⟩ := List.getElem?_eq_some_iff.mp hentry
  have hlt' : number < (h.entries.map (·.tagName)).length := by
    rw [List.length_map]
    exact hlt
  have hname : h.entries[number].tagName = (h.entries.map (·.tagName))[number] :=
    (List.getElem_map ..).symm
  rw [tagNames, remember, List.map_set, hname, List.set_getElem_self]
  rfl

/-- A step forth of as many entries as a step back was jumps to the tag of the entry below the
index there was before both. -/
theorem newer_back {k : Nat} (hindex : h.index ≤ h.entries.length) (hpos : 1 ≤ k) (hk : k ≤ h.index)
    {below : HistoryEntry} (hbelow : h.entries[h.index - 1]? = some below) (ed : Editor σ ε)
    (s : σ) :
  newer ed k { h with index := h.index - k } s
    = jump ed { h with index := h.index - k }
      (remember ed { h with index := h.index - k } (h.index - 1) below s) (h.index - 1)
      below.tagName s
  := by
  have hne : h.entries ≠ [] := List.ne_nil_of_length_pos (by omega)
  have hwithin : ¬ (h.entries.length : Int) ≤ (h.index - k : Nat) + k - 1 := by omega
  have hnumber : newerNumber { h with index := h.index - k } k = h.index - 1 := by
    rw [newerNumber, if_neg hwithin]
    dsimp only
    omega
  have hlast : ({ h with index := h.index - k } : History).entries.getLast?
      = some (h.entries.getLast hne) := List.getLast?_eq_some_getLast hne
  rw [newer_of_nonneg ed hlast (by dsimp only; omega), hnumber, hbelow, atTop, if_neg hwithin]
  rfl

/-- A step forth of as many entries as a step back was brings the index and the names back. -/
theorem newer_back_of_made {k : Nat} (hindex : h.index ≤ h.entries.length) (hpos : 1 ≤ k)
    (hk : k ≤ h.index) {s : σ × List Request} {forth : Moved (σ × List Request) ε}
    (hforth : newer ed.asked k { h with index := h.index - k } s = forth)
    (hmade : forth.result = .ok true) :
  forth.history.index = h.index ∧ forth.history.tagNames = h.tagNames
    ∧ ∃ below, h.entries[h.index - 1]? = some below
      ∧ forth.state.2 = s.2 ++ [.resolve below.tagName]
  := by
  have hlt : h.index - 1 < h.entries.length := by omega
  have hbelow := List.getElem?_eq_getElem hlt
  rw [newer_back hindex hpos hk hbelow] at hforth
  subst hforth
  have hhistory := history_jump_of_made hmade
  refine ⟨?_, ?_, _, hbelow, ?_⟩
  · rw [hhistory]
    exact Nat.sub_add_cancel (Nat.le_trans hpos hk)
  · rw [hhistory]
    exact tagNames_remember (h := { h with index := h.index - k }) hbelow s
  · apply asked_jump

/-! ### The entry of a jump -/

/-- A jump has asked for a tag, and the entry below the index holds that tag and the position. -/
structure Notes (m : Moved (σ × List Request) ε) (before : List Request) (tagName : Text)
    (p : Position) : Prop where
  asked : m.state.2 = before ++ [.resolve tagName]
  pos : 0 < m.history.index
  entry : m.history.entries[m.history.index - 1]? = some ⟨tagName, p⟩

/-- A jump that is made to the tag of an entry notes that entry. -/
theorem notes_jump {before : History} {number : Nat} {tagName : Text} {p : Position}
    (hentry : h.entries[number]? = some ⟨tagName, p⟩) {s : σ × List Request}
    (hmade : (jump ed.asked before h number tagName s).result = .ok true) :
  Notes (jump ed.asked before h number tagName s) s.2 tagName p
  := by
  constructor
  · apply asked_jump
  · rw [history_jump_of_made hmade]
    apply Nat.succ_pos
  · rw [history_jump_of_made hmade]
    exact hentry

/-- A step to a newer entry that is made notes the entry that is meant, also beyond the last one. -/
theorem notes_newer (hquiet : ed.Quiet) (count : Int) {s : σ × List Request}
    (hmade : (newer ed.asked count h s).result = .ok true) :
  ∃ tagName, Notes (newer ed.asked count h s) s.2 tagName (ed.position s.1)
  := by
  by_cases hne : h.entries = []
  · rw [newer_of_nil ed.asked hne] at hmade
    cases hmade
  · by_cases hw : 0 ≤ (h.index : Int) + count - 1
    · rw [newer_of_nonneg ed.asked (List.getLast?_eq_some_getLast hne) hw] at hmade ⊢
      generalize (h.entries[h.newerNumber count]?).getD _ = entry at hmade ⊢
      have hposition : ed.asked.position (h.atTop ed.asked count s) = ed.position s.1 := by
        rw [atTop]
        split
        · exact hquiet _ _
        · rfl
      have hasked : (h.atTop ed.asked count s).2 = s.2 := by
        rw [atTop]
        split <;> rfl
      have hentry : (h.remember ed.asked (h.newerNumber count) entry
          (h.atTop ed.asked count s)).entries[h.newerNumber count]?
          = some ⟨entry.tagName, ed.position s.1⟩ := by
        rw [remember, hposition]
        apply List.getElem?_set_self (newerNumber_lt hne count)
      have hnotes := notes_jump hentry hmade
      rw [hasked] at hnotes
      exact ⟨entry.tagName, hnotes⟩
    · rw [newer_of_undershoots ed.asked ⟨hne, Int.not_le.mp hw⟩] at hmade
      cases hmade

/-- A jump to a new tag that is made notes that tag. -/
theorem notes_push {tagName : Text} (hname : tagName ≠ []) (count : Int) {s : σ × List Request}
    (hmade : (push ed.asked tagName count h s).result = .ok true) :
  Notes (push ed.asked tagName count h s) s.2 tagName (ed.position s.1)
  := by
  rw [push, if_neg (by simpa using hname)] at hmade ⊢
  apply notes_jump _ hmade
  rw [← List.getLast?_eq_getElem?, record_entries, List.getLast?_concat]
  rfl

/-- A step back right after a jump that was made asks for where the jump started, and goes there if
the editor accepts it. -/
theorem Notes.older {m : Moved (σ × List Request) ε} {before : List Request} {tagName : Text}
    {p : Position} (hnotes : Notes m before tagName p) (s : σ × List Request) :
  (History.older ed.asked 1 m.history s).state.2 = s.2 ++ [.goTo p]
    ∧ ∀ s', ed.goTo p s.1 = (none, s') →
      (History.older ed.asked 1 m.history s).result = .ok true
        ∧ (History.older ed.asked 1 m.history s).state.1 = s'
  := by
  have hpos := hnotes.pos
  have hlt := (List.getElem?_eq_some_iff.mp hnotes.entry).1
  have hback : History.older ed.asked 1 m.history s
      = back ed.asked m.history (m.history.index - 1) s :=
    older_eq_back (by omega) (Nat.le_refl 1) hpos _ s
  rw [hback]
  refine ⟨asked_back hnotes.entry s, ?_⟩
  intro s' hgo
  have hasked : ed.asked.goTo p s = (none, s', s.2 ++ [.goTo p]) := by
    simp only [Editor.asked, hgo]
  obtain ⟨hmade, hstate⟩ := (back_made_iff hnotes.entry).mpr hasked
  exact ⟨hmade, congrArg Prod.fst hstate⟩

/-! ### Histories that are reached -/

theorem bounded_of_mem_run {capacity : Int} {s : σ} {steps : List (Step σ ε)}
    (hh : h ∈ ((Family.start capacity s).run steps).histories) :
  Bounded (max 1 capacity).toNat h
  := by
  apply bounded_run _ steps h hh
  intro first hfirst
  obtain rfl := List.mem_singleton.mp hfirst
  exact bounded_start capacity

/-- Take any history that operations and copies lead to.  A step of `k` entries back that is made
lowers the index by `k` and goes to the position of the entry that it lands on.  A step of `k`
entries forth from there that is made too, wherever the editor is by then, brings the index and the
names back, and resolves the name of the entry below the index only.  If notices leave the editor
where it is, a jump that is made, to a new tag or to a newer entry, leaves the name that it resolves
and the position where it started in the entry below the index, and a step back after it asks for
that position and is made if the editor accepts it. -/
theorem older_newer_of_run (capacity : Int) (s₀ : σ) (steps : List (Step σ ε))
    (hh : h ∈ ((Family.start capacity s₀).run steps).histories) (ed : Editor σ ε) :
  (∀ (k : Nat) (s : σ × List Request) (back : Moved (σ × List Request) ε),
      1 ≤ k → k ≤ h.index → older ed.asked k h s = back → back.result = .ok true →
      back.history.index + k = h.index ∧ back.history.entries = h.entries
        ∧ (∃ entry, h.entries[back.history.index]? = some entry
          ∧ back.state.2 = s.2 ++ [.goTo entry.origin]
          ∧ ed.goTo entry.origin s.1 = (none, back.state.1))
        ∧ ∀ (t : σ × List Request) (forth : Moved (σ × List Request) ε),
          newer ed.asked k back.history t = forth → forth.result = .ok true →
          forth.history.index = h.index ∧ forth.history.tagNames = h.tagNames
            ∧ ∃ below, h.entries[h.index - 1]? = some below
              ∧ forth.state.2 = t.2 ++ [.resolve below.tagName])
    ∧ (ed.Quiet → ∀ (o : Operation) (s : σ × List Request) (made : Moved (σ × List Request) ε),
      o.IsJump → o.apply ed.asked h s = made → made.result = .ok true →
      ∃ tagName, (∀ name count, o = .push name count → name ≠ [] → tagName = name)
        ∧ Notes made s.2 tagName (ed.position s.1)
        ∧ ∀ (t : σ × List Request) (back : Moved (σ × List Request) ε),
          older ed.asked 1 made.history t = back →
          back.state.2 = t.2 ++ [.goTo (ed.position s.1)]
            ∧ ∀ t', ed.goTo (ed.position s.1) t.1 = (none, t') →
              back.result = .ok true ∧ back.state.1 = t')
  := by
  have hindex : h.index ≤ h.entries.length := (bounded_of_mem_run hh).index_le
  constructor
  · rintro k s _ hpos hk rfl hmade
    obtain ⟨hback, entry, hentry, hasked, hgo⟩ := older_of_made hindex hpos hk hmade
    rw [hback]
    refine ⟨Nat.sub_add_cancel hk, rfl, ⟨entry, hentry, hasked, hgo⟩, ?_⟩
    intro t forth hforth hmade'
    exact newer_back_of_made hindex hpos hk hforth hmade'
  · rintro hquiet o s _ hjump rfl hmade
    cases o with
    | older count => cases hjump
    | newer count =>
        obtain ⟨tagName, hnotes⟩ := notes_newer hquiet count hmade
        refine ⟨tagName, nofun, hnotes, ?_⟩
        rintro t _ rfl
        exact hnotes.older t
    | push name count =>
        by_cases hname : name = []
        · subst hname
          obtain ⟨tagName, hnotes⟩ := notes_newer hquiet count hmade
          refine ⟨tagName, ?_, hnotes, ?_⟩
          · intro name' count' heq hne
            cases heq
            exact absurd rfl hne
          · rintro t _ rfl
            exact hnotes.older t
        · have hnotes := notes_push hname count hmade
          refine ⟨name, ?_, hnotes, ?_⟩
          · intro name' count' heq _
            cases heq
            rfl
          · rintro t _ rfl
            exact hnotes.older t

/-- In a history of two entries, a third jump makes the oldest entry make room.  Two steps back and
two steps forth resolve the latest name only, and a step forth beyond the last entry notes the
position where it was made. -/
theorem older_newer_of_run_evicted :
  let ed := Scripted.editor
  let known := [(['a'], ⟨some 1, 4, 0⟩), (['b'], ⟨some 2, 9, 3⟩), (['c'], ⟨some 1, 7, 1⟩)]
  let jump (tagName : Text) : Step Scripted.State Empty := .operate 0 ed (.push tagName 1)
  let h : History := ⟨2, [⟨['b'], ⟨some 1, 4, 0⟩⟩, ⟨['c'], ⟨some 2, 9, 3⟩⟩], 2⟩
  let s : Scripted.State × List Request := (⟨known, [], ⟨some 1, 7, 1⟩, none, []⟩, [])
  ed.Quiet
    ∧ h ∈ ((Family.start 2 ⟨known, [], ⟨none, 1, 0⟩, none, []⟩).run
      [jump ['a'], jump ['b'], jump ['c']]).histories
    ∧ (older ed.asked 2 h s).result = .ok true
    ∧ (older ed.asked 2 h s).history.index = 0
    ∧ (newer ed.asked 2 (older ed.asked 2 h s).history s).result = .ok true
    ∧ (newer ed.asked 2 (older ed.asked 2 h s).history s).state.2 = [.resolve ['c']]
    ∧ (newer ed.asked 5 h s).result = .ok true
    ∧ ∃ tagName, Notes (newer ed.asked 5 h s) [] tagName ⟨some 1, 7, 1⟩
  := by
  intro ed known jump h s
  have hquiet : ed.Quiet := fun _ _ => rfl
  have hh : h ∈ ((Family.start 2 ⟨known, [], ⟨none, 1, 0⟩, none, []⟩).run
      [jump ['a'], jump ['b'], jump ['c']]).histories := by
    decide
  have hback : (older ed.asked 2 h s).result = .ok true := by rfl
  have hforth : (newer ed.asked 2 (older ed.asked 2 h s).history s).result = .ok true := by rfl
  have hbeyond : (newer ed.asked 5 h s).result = .ok true := by rfl
  obtain ⟨hsteps, hjumps⟩ := older_newer_of_run 2 _ _ hh ed
  obtain ⟨hindex, -, -, hnewer⟩ := hsteps 2 s _ (by decide) (by decide) rfl hback
  obtain ⟨-, -, below, hbelow, hasked⟩ := hnewer s _ rfl hforth
  obtain ⟨tagName, -, hnotes, -⟩ := hjumps hquiet (.newer 5) s _ trivial rfl hbeyond
  refine ⟨hquiet, hh, hback, ?_, hforth, ?_, hbeyond, tagName, hnotes⟩
  · exact Nat.add_right_cancel (k := 0) hindex
  · obtain rfl := Option.some.inj hbelow
    exact hasked

end History

end TagNavigator
