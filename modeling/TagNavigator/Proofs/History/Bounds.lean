import TagNavigator.History.Scripted
import TagNavigator.Proofs.History.Operation

/-!
# Bounds of a history

The index of a history is at most the number of its entries, and that number is at most the
capacity (`Bounded`).  Every operation keeps the bounds, whatever the editor answers and also if it
breaks off, so they hold after any run of operations on several histories and their copies
(`bounded_run`).  An operation on one history, and so on a copy, leaves the others as they are
(`getElem?_run`).
-/

namespace TagNavigator.History

variable {σ ε : Type}

/-- A history of the given capacity whose index and entries are within it. -/
structure Bounded (capacity : Nat) (h : History) : Prop where
  index_le : h.index ≤ h.entries.length
  length_le : h.entries.length ≤ capacity
  capacity_eq : h.capacity = capacity
  pos : 0 < capacity

variable {capacity : Nat} {h : History}

theorem bounded_start (capacity : Int) :
  Bounded (max 1 capacity).toNat (start capacity)
  := by
  constructor
  · apply Nat.le_refl 0
  · apply Nat.zero_le _
  · rfl
  · omega

/-- A copy of a history that remembers at least one jump is the history. -/
theorem copy_eq_self (hpos : 0 < h.capacity) :
  h.copy = h
  := by
  have hcapacity : (max 1 (h.capacity : Int)).toNat = h.capacity := by
    omega
  rw [copy, start, hcapacity]

theorem Bounded.copy_eq (hb : Bounded capacity h) :
  h.copy = h
  := by
  apply copy_eq_self
  rw [hb.capacity_eq]
  exact hb.pos

/-! ### Operations -/

theorem Bounded.length_kept (hb : Bounded capacity h) :
  (h.entries.take h.index).length = h.index
  := by
  rw [List.length_take, Nat.min_eq_left hb.index_le]

/-- An entry that makes room stands below the index, so the index can follow it down. -/
theorem Bounded.evicted_le (hb : Bounded capacity h) :
  h.evicted ≤ h.index
  := by
  have hcapacity := hb.capacity_eq
  have hpos := hb.pos
  rw [evicted, hb.length_kept]
  split <;> omega

theorem record_index (h : History) (e : HistoryEntry) :
  (h.record e).index = h.index - h.evicted
  := by
  rw [record, evicted]
  split <;> rfl

theorem Bounded.length_record (hb : Bounded capacity h) (e : HistoryEntry) :
  (h.record e).entries.length = (h.record e).index + 1
  := by
  rw [record_entries, record_index, List.length_append, List.length_drop, hb.length_kept]
  rfl

/-- Recording a jump keeps the bounds: the oldest entry makes room if there is none. -/
theorem Bounded.record (hb : Bounded capacity h) (e : HistoryEntry) :
  Bounded capacity (h.record e)
  := by
  have hlength := hb.length_record e
  constructor
  · rw [hlength]
    apply Nat.le_succ _
  · have hcapacity := hb.capacity_eq
    have hindex := hb.index_le
    have hentries := hb.length_le
    have hpos := hb.pos
    -- An entry makes room only if the index is the capacity, and then there is one below it.
    rw [hlength, record_index, evicted, hb.length_kept]
    split <;> omega
  · rw [record_capacity]
    exact hb.capacity_eq
  · exact hb.pos

theorem Bounded.withIndex (hb : Bounded capacity h) {index : Nat} (hi : index ≤ h.entries.length) :
  Bounded capacity { h with index := index }
  := by
  constructor
  · exact hi
  · exact hb.length_le
  · exact hb.capacity_eq
  · exact hb.pos

/-- After a jump the index points past the entry that is jumped to, or the history is what it was
before or during the jump. -/
theorem Bounded.jump {before : History} (hbefore : Bounded capacity before)
    (hb : Bounded capacity h) {number : Nat} (hnumber : number < h.entries.length)
    (ed : Editor σ ε) (tagName : Text) (s : σ) :
  Bounded capacity (History.jump ed before h number tagName s).history
  := by
  rw [History.jump]
  split
  · apply hb.withIndex hnumber
  · exact hbefore
  · exact hb

theorem Bounded.back (hb : Bounded capacity h) (ed : Editor σ ε) (number : Nat) (s : σ) :
  Bounded capacity (History.back ed h number s).history
  := by
  rw [History.back]
  split
  · exact hb
  next entry hentry =>
    have hnumber := (List.getElem?_eq_some_iff.mp hentry).1
    split
    · apply hb.withIndex (Nat.le_of_lt hnumber)
    · exact hb

theorem Bounded.remember (hb : Bounded capacity h) (ed : Editor σ ε) (number : Nat)
    (entry : HistoryEntry) (s : σ) :
  Bounded capacity (h.remember ed number entry s)
  := by
  have hlength : (h.remember ed number entry s).entries.length = h.entries.length :=
    List.length_set
  constructor
  · rw [hlength]
    exact hb.index_le
  · rw [hlength]
    exact hb.length_le
  · exact hb.capacity_eq
  · exact hb.pos

/-- The entry that a step to a newer one means is there. -/
theorem newerNumber_lt (hne : h.entries ≠ []) (count : Int) :
  h.newerNumber count < h.entries.length
  := by
  have hpos := List.length_pos_iff.mpr hne
  rw [newerNumber]
  split <;> omega

theorem Bounded.newer (hb : Bounded capacity h) (ed : Editor σ ε) (count : Int) (s : σ) :
  Bounded capacity (History.newer ed count h s).history
  := by
  by_cases hne : h.entries = []
  · rw [newer_of_nil ed hne]
    exact hb
  · have hlast := List.getLast?_eq_some_getLast hne
    by_cases hw : 0 ≤ (h.index : Int) + count - 1
    · rw [newer_of_nonneg ed hlast hw]
      apply hb.jump (hb.remember ed _ _ _)
      rw [History.remember, List.length_set]
      apply newerNumber_lt hne count
    · simp only [History.newer, hlast, if_pos (Int.not_le.mp hw)]
      apply hb.withIndex (Nat.zero_le _)

theorem Bounded.older (hb : Bounded capacity h) (ed : Editor σ ε) (count : Int) (s : σ) :
  Bounded capacity (History.older ed count h s).history
  := by
  rw [History.older]
  split
  · exact hb
  · dsimp only
    split
    · split
      · exact hb
      · apply hb.back
    · apply hb.back

/-- Every operation keeps the bounds, whatever the editor does. -/
theorem Bounded.apply (hb : Bounded capacity h) (ed : Editor σ ε) (o : Operation) (s : σ) :
  Bounded capacity (o.apply ed h s).history
  := by
  cases o with
  | push tagName count =>
      change Bounded capacity (History.push ed tagName count h s).history
      rw [History.push]
      split
      · apply hb.newer
      · apply hb.jump (hb.record _)
        rw [hb.length_record]
        apply Nat.lt_succ_self _
  | older count => exact hb.older ed count s
  | newer count => exact hb.newer ed count s

/-! ### Several histories -/

/-- What is done with several histories: an operation on one of them, by any editor, or a copy of
one of them. -/
inductive Step (σ ε : Type) where
  | operate (number : Nat) (ed : Editor σ ε) (o : Operation)
  | copy (number : Nat)

/-- Several histories, each with its number, and the state of their editors. -/
structure Family (σ : Type) where
  histories : List History
  state : σ

namespace Family

/-- One history without entries. -/
def start (capacity : Int) (s : σ) : Family σ := ⟨[History.start capacity], s⟩

/-- The histories after a step: an operation replaces its history, and a copy is put at the end. -/
def step (f : Family σ) : Step σ ε → Family σ
  | .operate number ed o =>
    match f.histories[number]? with
    | none => f
    | some h =>
      let m := o.apply ed h f.state
      ⟨f.histories.set number m.history, m.state⟩
  | .copy number =>
    match f.histories[number]? with
    | none => f
    | some h => { f with histories := f.histories ++ [h.copy] }

/-- The histories after several steps. -/
def run (f : Family σ) (steps : List (Step σ ε)) : Family σ :=
  steps.foldl step f

end Family

/-- The step is an operation on the history with the number. -/
def Step.Touches (number : Nat) : Step σ ε → Prop
  | .operate n _ _ => n = number
  | .copy _ => False

variable {f : Family σ}

theorem bounded_step (hf : ∀ h ∈ f.histories, Bounded capacity h) (step : Step σ ε) :
  ∀ h ∈ (f.step step).histories, Bounded capacity h
  := by
  cases step with
  | operate number ed o =>
      rw [Family.step]
      split
      · exact hf
      next h hh =>
        intro h' hmem
        rcases List.mem_or_eq_of_mem_set hmem with hmem | rfl
        · apply hf h' hmem
        · apply (hf h (List.mem_of_getElem? hh)).apply
  | copy number =>
      rw [Family.step]
      split
      · exact hf
      next h hh =>
        have hb := hf h (List.mem_of_getElem? hh)
        intro h' hmem
        rcases List.mem_append.mp hmem with hmem | hmem
        · apply hf h' hmem
        · obtain rfl := List.mem_singleton.mp hmem
          rw [hb.copy_eq]
          exact hb

/-- After every run the histories are within their bounds. -/
theorem bounded_run (hf : ∀ h ∈ f.histories, Bounded capacity h) (steps : List (Step σ ε)) :
  ∀ h ∈ (f.run steps).histories, Bounded capacity h
  := by
  induction steps generalizing f with
  | nil => exact hf
  | cons step steps ih => exact ih (bounded_step hf step)

theorem length_le_step (f : Family σ) (step : Step σ ε) :
  f.histories.length ≤ (f.step step).histories.length
  := by
  cases step with
  | operate number ed o =>
      rw [Family.step]
      split
      · apply Nat.le_refl _
      · apply Nat.le_of_eq
        apply List.length_set.symm
  | copy number =>
      rw [Family.step]
      split
      · apply Nat.le_refl _
      · rw [List.length_append]
        apply Nat.le_add_right _ _

theorem getElem?_step {number : Nat} (hn : number < f.histories.length) {step : Step σ ε}
    (hstep : ¬ step.Touches number) :
  (f.step step).histories[number]? = f.histories[number]?
  := by
  cases step with
  | operate n ed o =>
      rw [Family.step]
      split
      · rfl
      · apply List.getElem?_set_ne hstep
  | copy n =>
      rw [Family.step]
      split
      · rfl
      · apply List.getElem?_append_left hn

/-- Steps that do not operate on a history leave it as it is, also if they operate on its copies
or on what it is a copy of. -/
theorem getElem?_run {number : Nat} (hn : number < f.histories.length)
    {steps : List (Step σ ε)} (hsteps : ∀ step ∈ steps, ¬ step.Touches number) :
  (f.run steps).histories[number]? = f.histories[number]?
  := by
  induction steps generalizing f with
  | nil => rfl
  | cons step steps ih =>
      obtain ⟨hstep, hrest⟩ := List.forall_mem_cons.mp hsteps
      have hlength := Nat.lt_of_lt_of_le hn (length_le_step f step)
      apply (ih hlength hrest).trans
      apply getElem?_step hn hstep

/-- After any run of operations and copies that begins with one empty history: the index of every
history is at most the number of its entries, which is at most its capacity, and an entry that
makes room stands below the index, so that the index never falls below zero; a copy has the same
entries, index and capacity as what it is a copy of; and later operations on other histories,
copies and originals among them, leave a history as it is. -/
theorem run_start_bounded (capacity : Int) (s : σ) (steps : List (Step σ ε)) :
  let f := (Family.start capacity s).run steps
  (∀ h ∈ f.histories, h.evicted ≤ h.index ∧ h.index ≤ h.entries.length
      ∧ (h.entries.length : Int) ≤ max 1 capacity)
    ∧ (∀ number h, f.histories[number]? = some h →
      ∃ c, (f.step (.copy number : Step σ ε)).histories = f.histories ++ [c]
        ∧ c.entries = h.entries ∧ c.index = h.index ∧ c.capacity = h.capacity)
    ∧ ∀ number < f.histories.length, ∀ later : List (Step σ ε),
      (∀ step ∈ later, ¬ step.Touches number) →
        (f.run later).histories[number]? = f.histories[number]?
  := by
  intro f
  have hbounded : ∀ h ∈ f.histories, Bounded (max 1 capacity).toNat h := by
    apply bounded_run
    intro h hmem
    obtain rfl := List.mem_singleton.mp hmem
    apply bounded_start capacity
  refine ⟨?_, ?_, ?_⟩
  · intro h hmem
    have hb := hbounded h hmem
    have hlength := hb.length_le
    exact ⟨hb.evicted_le, hb.index_le, by omega⟩
  · intro number h hnumber
    have hcopy := (hbounded h (List.mem_of_getElem? hnumber)).copy_eq
    refine ⟨h.copy, ?_, ?_⟩
    · simp only [Family.step, hnumber]
    · rw [hcopy]
      exact ⟨rfl, rfl, rfl⟩
  · intro number hn later hlater
    apply getElem?_run hn hlater

/-- A history of one entry makes room for a second jump and is copied; a jump of the copy leaves the
original as it is. -/
theorem run_start_bounded_scripted :
  let ed := Scripted.editor
  let s : Scripted.State :=
    ⟨[(['a'], ⟨some 1, 4, 0⟩), (['b'], ⟨some 2, 9, 3⟩)], [], ⟨none, 1, 0⟩, none, []⟩
  let jump (number : Nat) (tagName : Text) := Step.operate number ed (.push tagName 1)
  let f := (Family.start 0 s).run [jump 0 ['a'], jump 0 ['b'], .copy 0]
  let later := [jump 1 ['a']]
  (∀ step ∈ later, ¬ step.Touches 0)
    ∧ f.histories.map (·.entries.map (·.tagName)) = [[['b']], [['b']]]
    ∧ (f.run later).histories.map (·.entries.map (·.tagName)) = [[['b']], [['a']]]
    ∧ (f.run later).histories[0]? = f.histories[0]?
  := by
  intro ed s jump f later
  have hlater : ∀ step ∈ later, ¬ step.Touches 0 := by
    intro step hstep
    obtain rfl := List.mem_singleton.mp hstep
    apply Nat.succ_ne_zero 0
  have hnumber : 0 < f.histories.length := by decide
  refine ⟨hlater, by decide, by decide, ?_⟩
  apply (run_start_bounded 0 s [jump 0 ['a'], jump 0 ['b'], .copy 0]).2.2 0 hnumber later hlater

end TagNavigator.History
