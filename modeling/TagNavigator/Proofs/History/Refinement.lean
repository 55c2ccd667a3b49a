import Mathlib.Data.List.Forall2
import TagNavigator.History.Scripted
import TagNavigator.Proofs.History.Operation

/-!
# A bounded history refines a longer one

Two histories of different capacities take part in the same operations of an editor.  The entries of
the smaller one are the last entries of the larger one, and the two indexes are equally far from the
end (`Follows`).  Every operation keeps this and shows the same to the editor, unless it asks the
smaller history for an entry below its first one.  So eviction loses the oldest entries, and nothing
else.
-/

namespace TagNavigator.History

variable {σ ε : Type}

/-- The smaller history is the larger one without its oldest entries, which are `lost`. -/
structure Follows (lost : List HistoryEntry) (small large : History) : Prop where
  entries : large.entries = lost ++ small.entries
  index : large.index = lost.length + small.index
  capacity : small.capacity ≤ large.capacity
  nil : small.entries = [] → lost = []

/-- What comes of an operation on the smaller history agrees with what comes of it on the larger
one. -/
structure Agrees (m m' : Moved σ ε) : Prop where
  result : m.result = m'.result
  state : m.state = m'.state
  history : ∃ lost, Follows lost m.history m'.history

section

variable {ed : Editor σ ε} {lost : List HistoryEntry} {small large : History}

theorem Follows.length (h : Follows lost small large) :
  large.entries.length = lost.length + small.entries.length
  := by
  rw [h.entries, List.length_append]

theorem Follows.take (h : Follows lost small large) :
  large.entries.take large.index = lost ++ small.entries.take small.index
  := by
  rw [h.entries, h.index, List.take_length_add_append]

theorem Follows.getElem? (h : Follows lost small large) (number : Nat) :
  large.entries[lost.length + number]? = small.entries[number]?
  := by
  rw [h.entries, List.getElem?_append_right (Nat.le_add_right _ _), Nat.add_sub_cancel_left]

/-- Recording the same jump leaves the entries of the smaller history at the end of the larger
one, whichever of the two has to make room. -/
theorem Follows.record (h : Follows lost small large) (e : HistoryEntry) :
  (small.record e).entries <:+ (large.record e).entries
  := by
  rw [record_entries, record_entries]
  apply List.suffix_append_self_iff.mpr
  have hkept := h.take
  have hsmall : small.entries.take small.index <:+ large.entries.take large.index := by
    rw [hkept]
    apply List.suffix_append
  apply List.suffix_of_suffix_length_le
  · apply List.IsSuffix.trans (List.drop_suffix _ _) hsmall
  · apply List.drop_suffix
  · have hcapacity := h.capacity
    simp only [List.length_drop, evicted, hkept, List.length_append]
    split <;> split <;> omega

/-- After the jump the indexes point past the entry that was recorded. -/
theorem Follows.record_made (h : Follows lost small large) (e : HistoryEntry) :
  ∃ lost, Follows lost
    { small.record e with index := (small.record e).entries.length - 1 + 1 }
    { large.record e with index := (large.record e).entries.length - 1 + 1 }
  := by
  obtain ⟨lost', hentries⟩ := h.record e
  have hsmall : 0 < (small.record e).entries.length := by
    rw [record_entries, List.length_append]
    exact Nat.lt_add_left _ (Nat.zero_lt_one)
  have hlength := congrArg List.length hentries
  rw [List.length_append] at hlength
  use lost'
  constructor
  · exact hentries.symm
  · dsimp only
    omega
  · simpa using h.capacity
  · intro hnil
    rw [show (small.record e).entries = [] from hnil] at hsmall
    exact absurd hsmall (Nat.lt_irrefl 0)

/-! ### Jumps -/

/-- If the histories follow each other both with the jump and without it, the jump agrees. -/
theorem Follows.jump (hed : ed.Plain) (h : Follows lost small large) {during during' : History}
    {number number' : Nat}
    (hmade : ∃ lost, Follows lost { during with index := number + 1 }
      { during' with index := number' + 1 }) (tagName : Text) (s : σ) :
  Agrees (jump ed small during number tagName s) (jump ed large during' number' tagName s)
  := by
  cases hr : ed.resolve during tagName s with
  | mk resolution s' =>
      have hr' : ed.resolve during' tagName s = (resolution, s') := by
        rw [hed.blind during' during, hr]
      cases resolution with
      | made =>
          rw [jump_of_made _ _ _ hr, jump_of_made _ _ _ hr']
          exact ⟨rfl, rfl, hmade⟩
      | refused notice =>
          rw [jump_of_refused _ _ _ hr, jump_of_refused _ _ _ hr']
          exact ⟨rfl, rfl, lost, h⟩
      | broken e =>
          apply absurd (congrArg Prod.fst hr)
          apply hed.whole

/-! ### Steps to newer and older entries -/

theorem Follows.nil_iff (h : Follows lost small large) :
  large.entries = [] ↔ small.entries = []
  := by
  rw [h.entries, List.append_eq_nil_iff]
  constructor
  · exact And.right
  · intro hnil
    exact ⟨h.nil hnil, hnil⟩

theorem Follows.getLast? (h : Follows lost small large) (hne : small.entries ≠ []) :
  large.entries.getLast? = small.entries.getLast?
  := by
  rw [h.entries, List.getLast?_append_of_ne_nil _ hne]

theorem Follows.newerNumber (h : Follows lost small large) (hne : small.entries ≠ []) {count : Int}
    (hw : 0 ≤ (small.index : Int) + count - 1) :
  large.newerNumber count = lost.length + small.newerNumber count
  := by
  have hlength := h.length
  have hindex := h.index
  have hpos := List.length_pos_iff.mpr hne
  unfold History.newerNumber
  split <;> split <;> omega

theorem Follows.atTop (h : Follows lost small large) (count : Int) (s : σ) :
  large.atTop ed count s = small.atTop ed count s
  := by
  have hlength := h.length
  have hindex := h.index
  unfold History.atTop
  split <;> split <;> first | rfl | omega

/-- Remembering a position in the same entry keeps the histories together. -/
theorem Follows.remember (h : Follows lost small large) (number : Nat) (entry : HistoryEntry)
    (s : σ) :
  Follows lost { small.remember ed number entry s with index := number + 1 }
    { large.remember ed (lost.length + number) entry s with index := lost.length + number + 1 }
  := by
  constructor
  · simp [History.remember, h.entries]
  · exact Nat.add_assoc _ _ _
  · exact h.capacity
  · simp [History.remember]
    exact h.nil

/-- Steps to newer entries agree. -/
theorem Follows.newer (hed : ed.Plain) (h : Follows lost small large) {count : Int}
    (hw : small.entries ≠ [] → 0 ≤ (small.index : Int) + count - 1) (s : σ) :
  Agrees (newer ed count small s) (newer ed count large s)
  := by
  by_cases hne : small.entries = []
  · rw [newer_of_nil ed hne, newer_of_nil ed (h.nil_iff.mpr hne)]
    exact ⟨rfl, rfl, lost, h⟩
  · have hsmall := hw hne
    have hlarge : 0 ≤ (large.index : Int) + count - 1 := by
      rw [h.index]
      omega
    have hlast := List.getLast?_eq_some_getLast hne
    rw [newer_of_nonneg ed hlast hsmall, newer_of_nonneg ed ((h.getLast? hne).trans hlast) hlarge,
      h.newerNumber hne hsmall, h.getElem?, h.atTop]
    apply h.jump hed
    use lost
    apply h.remember

/-- Going back to the same entry agrees. -/
theorem Follows.back (h : Follows lost small large) (number : Nat) (s : σ) :
  Agrees (back ed small number s) (back ed large (lost.length + number) s)
  := by
  rw [History.back, History.back, h.getElem?]
  cases small.entries[number]? with
  | none => exact ⟨rfl, rfl, lost, h⟩
  | some entry =>
      dsimp only
      split
      · refine ⟨rfl, rfl, lost, ?_⟩
        constructor
        · exact h.entries
        · rfl
        · exact h.capacity
        · exact h.nil
      · exact ⟨rfl, rfl, lost, h⟩

/-- Steps to older entries agree. -/
theorem Follows.older (h : Follows lost small large) {count : Int}
    (hw : small.entries ≠ [] → 0 ≤ (small.index : Int) - count) (s : σ) :
  Agrees (older ed count small s) (older ed count large s)
  := by
  by_cases hne : small.entries = []
  · rw [older_of_nil ed hne, older_of_nil ed (h.nil_iff.mpr hne)]
    exact ⟨rfl, rfl, lost, h⟩
  · have hsmall := hw hne
    have hindex := h.index
    have hlarge : 0 ≤ (large.index : Int) - count := by
      omega
    have hnumber : ((large.index : Int) - count).toNat
        = lost.length + ((small.index : Int) - count).toNat := by
      omega
    rw [older_of_nonneg ed hne hsmall, older_of_nonneg ed (mt h.nil_iff.mp hne) hlarge, hnumber]
    apply h.back

/-! ### Runs -/

/-- An operation agrees as long as it stays above the bottom of the smaller history. -/
theorem Follows.apply (hed : ed.Plain) (h : Follows lost small large) {o : Operation}
    (ho : o.StaysAbove small) (s : σ) :
  Agrees (o.apply ed small s) (o.apply ed large s)
  := by
  cases o with
  | push tagName count =>
      cases tagName with
      | nil => exact h.newer hed (ho rfl) s
      | cons c tagName =>
          apply h.jump hed
          apply h.record_made
  | older count => exact h.older ho s
  | newer count => exact h.newer hed ho s

/-- The operations on the smaller history agree with the operations on the larger one as long as no
bottom is reported. -/
theorem Follows.trace (hed : ed.Plain) (h : Follows lost small large) (s : σ × List Text)
    {operations : List Operation}
    (hbottom : ∀ m ∈ trace ed.recording operations small s, bottomNotice ∉ m.state.2) :
  List.Forall₂ Agrees (trace ed.recording operations small s)
    (trace ed.recording operations large s)
  := by
  induction operations generalizing lost small large s with
  | nil => exact List.Forall₂.nil
  | cons o operations ih =>
      obtain ⟨hfirst, hrest⟩ := List.forall_mem_cons.mp hbottom
      have hagrees := h.apply hed.recording (Operation.staysAbove_of_not_bottom hfirst) s
      obtain ⟨lost', hhistory⟩ := hagrees.history
      apply List.Forall₂.cons hagrees
      rw [← hagrees.state]
      apply ih hhistory _ hrest

theorem follows_start {small large : Int} (h : small ≤ large) :
  Follows [] (start small) (start large)
  := by
  constructor
  · rfl
  · rfl
  · simp only [start]
    omega
  · intro _
    rfl

/-- Operations on a bounded history give the same results, notices and states of the editor as the
same operations on a longer history, as long as no bottom is reported.  The entries of the bounded
history are the last entries of the longer one, and the indexes are equally far from the end. -/
theorem trace_start_agrees (hed : ed.Plain) {small large : Int} (h : small ≤ large) (s : σ)
    (operations : List Operation)
    (hbottom : ∀ m ∈ trace ed.recording operations (start small) (s, []),
      bottomNotice ∉ m.state.2) :
  List.Forall₂
    (fun m m' => m.result = m'.result ∧ m.state = m'.state
      ∧ m.history.entries <:+ m'.history.entries
      ∧ (m.history.entries.length : Int) - m.history.index
        = m'.history.entries.length - m'.history.index)
    (trace ed.recording operations (start small) (s, []))
    (trace ed.recording operations (start large) (s, []))
  := by
  apply List.Forall₂.imp _ ((follows_start h).trace hed (s, []) hbottom)
  intro m m' hagrees
  obtain ⟨hresult, hstate, lost, hhistory⟩ := hagrees
  refine ⟨hresult, hstate, ⟨lost, hhistory.entries.symm⟩, ?_⟩
  have hlength := hhistory.length
  have hindex := hhistory.index
  omega

/-- A scripted editor makes three jumps, of which the second is refused, and one step back; a
history of one entry and one of twenty agree. -/
theorem trace_start_agrees_scripted :
  let ed := Scripted.editor
  let s : Scripted.State :=
    ⟨[(['a'], ⟨some 1, 4, 0⟩), (['b'], ⟨some 2, 9, 3⟩)], [], ⟨none, 1, 0⟩, none, []⟩
  let operations : List Operation := [.push ['a'] 1, .push ['c'] 1, .push ['b'] 1, .older 1]
  ed.Plain ∧ (1 : Int) ≤ 20
    ∧ (∀ m ∈ trace ed.recording operations (start 1) (s, []), bottomNotice ∉ m.state.2)
    ∧ List.Forall₂
      (fun m m' => m.result = m'.result ∧ m.state = m'.state
        ∧ m.history.entries <:+ m'.history.entries
        ∧ (m.history.entries.length : Int) - m.history.index
          = m'.history.entries.length - m'.history.index)
      (trace ed.recording operations (start 1) (s, []))
      (trace ed.recording operations (start 20) (s, []))
  := by
  intro ed s operations
  have hplain : ed.Plain := by
    constructor
    · intro h h' tagName s
      rfl
    · intro h tagName s e
      exact e.elim
  have hle : (1 : Int) ≤ 20 := by decide
  have hbottom : ∀ m ∈ trace ed.recording operations (start 1) (s, []),
      bottomNotice ∉ m.state.2 := by
    decide
  exact ⟨hplain, hle, hbottom, trace_start_agrees hplain hle s operations hbottom⟩

end

end TagNavigator.History
