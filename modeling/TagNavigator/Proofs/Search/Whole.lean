import TagNavigator.Search.Lines
import TagNavigator.Proofs.Regex.Literal

/-!
# Searches of a whole buffer

A search of a whole buffer starts at the end it moves away from, so it looks at every line.
A backward search gives the last line with a match (`whole_backward`).  A forward
search starts at the end of the last line, and gives the first line with a match provided that
no match starts there (`whole_forward`).  A matcher that selects lines, at their first column only,
finds the extreme line either way (`whole_of_selects_eq_some_iff`), and so does the one of a line
that equals a given text (`whole_wholeLine_eq_some_iff`).
-/

namespace TagNavigator.Search

variable {m : Matcher} {lines : List Text}

/-! ### The lines with a match -/

theorem forall_mem_zipIdx_iff {p : Text → Prop} {n : Nat} :
  (∀ l ∈ lines.zipIdx n, p l.1) ↔ ∀ l ∈ lines, p l
  := by
  constructor
  · intro h l hl
    obtain ⟨i, hi, rfl⟩ := List.getElem_of_mem hl
    apply h (lines[i], n + i)
    apply List.mem_iff_getElem?.mpr
    exact ⟨i, by simp [hi]⟩
  · intro h l hl
    apply h
    apply List.fst_mem_of_mem_zipIdx hl

/-- Cutting the numbered lines at one of them is cutting the lines. -/
theorem zipIdx_eq_append_cons_iff {numbered rest : List (Text × Nat)} {l : Text × Nat} :
  lines.zipIdx 1 = numbered ++ l :: rest
    ↔ ∃ before line after, lines = before ++ line :: after ∧ numbered = before.zipIdx 1
      ∧ l = (line, before.length + 1) ∧ rest = after.zipIdx (before.length + 2)
  := by
  simp only [List.zipIdx_eq_append_iff, eq_comm (a := l :: rest), List.zipIdx_eq_cons_iff]
  constructor
  · rintro ⟨before, _, rfl, rfl, line, after, rfl, rfl, rfl⟩
    exact ⟨before, line, after, rfl, rfl, by rw [Nat.add_comm], by congr 1; omega⟩
  · rintro ⟨before, line, after, rfl, rfl, rfl, rfl⟩
    exact ⟨before, _, rfl, rfl, line, after, rfl, by rw [Nat.add_comm], by congr 1; omega⟩

/-- The first of the lines with a match. -/
theorem firstLine_eq_some_iff {f : Found} :
  firstLine m (lines.zipIdx 1) = some f
    ↔ ∃ before line after column, lines = before ++ line :: after
      ∧ (∀ l ∈ before, m.first l = none) ∧ m.first line = some column
      ∧ f = ⟨before.length + 1, column, line⟩
  := by
  simp only [firstLine, List.findSome?_eq_some_iff, zipIdx_eq_append_cons_iff,
    Option.map_eq_some_iff, Option.map_eq_none_iff]
  constructor
  · rintro ⟨_, _, _, ⟨before, line, after, rfl, rfl, rfl, rfl⟩, ⟨column, hline, rfl⟩, hbefore⟩
    exact ⟨before, line, after, column, rfl, forall_mem_zipIdx_iff.mp hbefore, hline, rfl⟩
  · rintro ⟨before, line, after, column, rfl, hbefore, hline, rfl⟩
    exact ⟨_, _, _, ⟨before, line, after, rfl, rfl, rfl, rfl⟩, ⟨column, hline, rfl⟩,
      forall_mem_zipIdx_iff.mpr hbefore⟩

/-- The last of the lines with a match. -/
theorem lastInLine_reverse_eq_some_iff {f : Found} :
  lastInLine m (lines.zipIdx 1).reverse = some f
    ↔ ∃ before line after column, lines = before ++ line :: after
      ∧ (∀ l ∈ after, m.lastAmong l (l.length + 1) = none)
      ∧ m.lastAmong line (line.length + 1) = some column
      ∧ f = ⟨before.length + 1, column, line⟩
  := by
  have hcut : ∀ (rest : List (Text × Nat)) l numbered,
      (lines.zipIdx 1).reverse = rest ++ l :: numbered
        ↔ lines.zipIdx 1 = numbered.reverse ++ l :: rest.reverse := by
    intro rest l numbered
    rw [List.reverse_eq_iff]
    simp
  simp only [lastInLine, List.findSome?_eq_some_iff, hcut, zipIdx_eq_append_cons_iff,
    Option.map_eq_some_iff, Option.map_eq_none_iff]
  constructor
  · rintro ⟨rest, _, _, ⟨before, line, after, rfl, -, rfl, hrest⟩, ⟨column, hline, rfl⟩, hafter⟩
    have hnumbered : ∀ l ∈ after.zipIdx (before.length + 2),
        m.lastAmong l.1 (l.1.length + 1) = none := by
      rw [← hrest]
      simpa using hafter
    exact ⟨before, line, after, column, rfl,
      forall_mem_zipIdx_iff (p := fun l => m.lastAmong l (l.length + 1) = none).mp hnumbered,
      hline, rfl⟩
  · rintro ⟨before, line, after, column, rfl, hafter, hline, rfl⟩
    refine ⟨(after.zipIdx (before.length + 2)).reverse, _, (before.zipIdx 1).reverse,
      ⟨before, line, after, rfl, by simp, rfl, by simp⟩, ⟨column, hline, rfl⟩, ?_⟩
    simpa using forall_mem_zipIdx_iff
      (p := fun l => m.lastAmong l (l.length + 1) = none).mpr hafter

/-! ### Searches from an end of the buffer -/

theorem searched_ne_nil (lines : List Text) :
  searched lines ≠ []
  := by
  rw [searched]
  split
  · simp
  · rename_i h
    simpa using h

theorem searched_of_ne_nil (h : lines ≠ []) :
  searched lines = lines
  := by
  simp [searched, h]

/-- A backward search of a whole buffer gives the last line with a match. -/
theorem whole_backward :
  whole m lines .backward = lastInLine m ((searched lines).zipIdx 1).reverse
  := by
  have hsearched := searched_of_ne_nil (searched_ne_nil lines)
  have hpos : 0 < (searched lines).length := List.length_pos_iff.mpr (searched_ne_nil lines)
  have horigin : originIndex (searched lines) 1 = 0 := by
    rw [originIndex]
    omega
  have hnone : ∀ t, m.lastAmong t 0 = none := by
    intro t
    simp [Matcher.lastAmong]
  simp [whole, next, backward, hsearched, Cursor.start, horigin, hnone]

/-- A forward search of a whole buffer begins at the end of the last line and then takes the lines
in order. -/
theorem whole_forward_eq (m : Matcher) (lines : List Text) :
  whole m lines .forward
    = match m.firstFrom ((searched lines).getLastD []) ((searched lines).getLastD []).length with
      | some column => some ⟨(searched lines).length, column, (searched lines).getLastD []⟩
      | none => firstLine m ((searched lines).zipIdx 1)
  := by
  have hsearched := searched_of_ne_nil (searched_ne_nil lines)
  have hpos : 0 < (searched lines).length := List.length_pos_iff.mpr (searched_ne_nil lines)
  have horigin : originIndex (searched lines) (searched lines).length
      = (searched lines).length - 1 := by
    rw [originIndex]
    omega
  have hlast : ((searched lines)[(searched lines).length - 1]?).getD []
      = (searched lines).getLastD [] := by
    rw [← List.getLast?_eq_getElem?, List.getLastD_eq_getLast?]
  have hcolumn : ∀ n : Nat, min ((n : Int) + 1).toNat n = n := by
    intro n
    omega
  simp only [whole, next, forward, hsearched, horigin, hlast, hcolumn, if_true]
  cases m.firstFrom ((searched lines).getLastD []) ((searched lines).getLastD []).length with
  | some column => rw [Nat.sub_add_cancel hpos]
  | none =>
      rw [Nat.sub_add_cancel hpos, List.drop_of_length_le (by simp),
        List.take_of_length_le (by simp), List.nil_append]

/-- A forward search of a whole buffer gives the first line with a match, if no match starts
at the end of the last line. -/
theorem whole_forward
    (hend : m.firstFrom ((searched lines).getLastD []) ((searched lines).getLastD []).length
      = none) :
  whole m lines .forward = firstLine m ((searched lines).zipIdx 1)
  := by
  rw [whole_forward_eq, hend]

/-! ### Searches for lines -/

/-- The least or the greatest number of a set, according to a direction. -/
def IsExtreme : Direction → Set Nat → Nat → Prop
  | .forward => IsLeast
  | .backward => IsGreatest

/-- The indices of the lines that satisfy `P`. -/
def indices (P : Text → Prop) (lines : List Text) : Set Nat :=
  {i | ∃ l, lines[i]? = some l ∧ P l}

section

variable {P : Text → Prop} {l : Text} {i : Nat} {f : Found} {direction : Direction}

theorem IsExtreme.mem {S : Set Nat} (h : IsExtreme direction S i) :
  i ∈ S
  := by
  cases direction with
  | forward => exact h.1
  | backward => exact h.1

theorem isLeast_indices_iff :
  IsLeast (indices P lines) i
    ↔ ∃ before line after, lines = before ++ line :: after ∧ P line ∧ (∀ l ∈ before, ¬ P l)
      ∧ i = before.length
  := by
  constructor
  · rintro ⟨⟨line, hline, hP⟩, hleast⟩
    obtain ⟨hlt, rfl⟩ := List.getElem?_eq_some_iff.mp hline
    refine ⟨lines.take i, lines[i], lines.drop (i + 1), ?_, hP, ?_, by simp; omega⟩
    · rw [List.getElem_cons_drop, List.take_append_drop]
    · intro l hl hP'
      obtain ⟨j, hj, rfl⟩ := List.mem_take_iff_getElem.mp hl
      have hle : i ≤ j := hleast ⟨_, List.getElem?_eq_some_iff.mpr ⟨by omega, rfl⟩, hP'⟩
      omega
  · rintro ⟨before, line, after, rfl, hP, hbefore, rfl⟩
    constructor
    · exact ⟨line, by simp, hP⟩
    · rintro j ⟨l, hl, hP'⟩
      by_contra hlt
      rw [List.getElem?_append_left (by omega)] at hl
      apply hbefore l (List.mem_of_getElem? hl) hP'

theorem isGreatest_indices_iff :
  IsGreatest (indices P lines) i
    ↔ ∃ before line after, lines = before ++ line :: after ∧ P line ∧ (∀ l ∈ after, ¬ P l)
      ∧ i = before.length
  := by
  constructor
  · rintro ⟨⟨line, hline, hP⟩, hgreatest⟩
    obtain ⟨hlt, rfl⟩ := List.getElem?_eq_some_iff.mp hline
    refine ⟨lines.take i, lines[i], lines.drop (i + 1), ?_, hP, ?_, by simp; omega⟩
    · rw [List.getElem_cons_drop, List.take_append_drop]
    · intro l hl hP'
      obtain ⟨j, hj, rfl⟩ := List.mem_drop_iff_getElem.mp hl
      have hle : i + 1 + j ≤ i :=
        hgreatest ⟨_, List.getElem?_eq_some_iff.mpr ⟨by omega, rfl⟩, hP'⟩
      omega
  · rintro ⟨before, line, after, rfl, hP, hafter, rfl⟩
    constructor
    · exact ⟨line, by simp, hP⟩
    · rintro j ⟨l, hl, hP'⟩
      by_contra hlt
      obtain ⟨k, hk⟩ : ∃ k, j - before.length = k + 1 := ⟨j - before.length - 1, by omega⟩
      rw [List.getElem?_append_right (by omega), hk, List.getElem?_cons_succ] at hl
      apply hafter l (List.mem_of_getElem? hl) hP'

/-- The matcher selects the line if it satisfies `P`: a match in it starts at column zero, or there
is none. -/
def Selects (m : Matcher) (P : Text → Prop) (l : Text) : Prop :=
  ∀ i ≤ l.length, m.matchesAt l.toArray i = true ↔ i = 0 ∧ P l

theorem Selects.first (h : Selects m P l) :
  m.first l = some i ↔ i = 0 ∧ P l
  := by
  rw [Matcher.first_eq_some_iff]
  constructor
  · rintro ⟨⟨hi, hmatch⟩, -⟩
    apply (h i hi).mp hmatch
  · rintro ⟨rfl, hP⟩
    constructor
    · exact ⟨Nat.zero_le _, (h 0 (Nat.zero_le _)).mpr ⟨rfl, hP⟩⟩
    · intro j _
      apply Nat.zero_le

theorem Selects.lastAmong (h : Selects m P l) :
  m.lastAmong l (l.length + 1) = some i ↔ i = 0 ∧ P l
  := by
  rw [Matcher.lastAmong_eq_some_iff]
  constructor
  · rintro ⟨⟨-, hi, hmatch⟩, -⟩
    apply (h i hi).mp hmatch
  · rintro ⟨rfl, hP⟩
    constructor
    · exact ⟨Nat.succ_pos _, Nat.zero_le _, (h 0 (Nat.zero_le _)).mpr ⟨rfl, hP⟩⟩
    · rintro j ⟨-, hj, hmatch⟩
      apply le_of_eq ((h j hj).mp hmatch).1

/-- What finds the lines with `P` at column zero finds nothing in the others. -/
theorem eq_none_iff_of_eq_some_iff {found : Option Nat}
    (h : ∀ i, found = some i ↔ i = 0 ∧ P l) :
  found = none ↔ ¬ P l
  := by
  rw [Option.eq_none_iff_forall_ne_some]
  constructor
  · intro hnone hP
    apply hnone 0 ((h 0).mpr ⟨rfl, hP⟩)
  · intro hP i hi
    apply hP ((h i).mp hi).2

theorem firstLine_of_selects (h : ∀ l ∈ lines, Selects m P l) :
  firstLine m (lines.zipIdx 1) = some f
    ↔ ∃ i l, IsLeast (indices P lines) i ∧ lines[i]? = some l ∧ f = ⟨i + 1, 0, l⟩
  := by
  simp only [firstLine_eq_some_iff, isLeast_indices_iff]
  constructor
  · rintro ⟨before, line, after, column, rfl, hbefore, hline, rfl⟩
    obtain ⟨rfl, hP⟩ := (h line (by simp)).first.mp hline
    refine ⟨before.length, line, ⟨before, line, after, rfl, hP, ?_, rfl⟩, by simp, rfl⟩
    intro l hl
    apply (eq_none_iff_of_eq_some_iff fun _ => (h l (by simp [hl])).first).mp (hbefore l hl)
  · rintro ⟨_, _, ⟨before, line, after, rfl, hP, hbefore, rfl⟩, hline, rfl⟩
    obtain rfl : line = _ := by simpa using hline
    refine ⟨before, line, after, 0, rfl, ?_, (h line (by simp)).first.mpr ⟨rfl, hP⟩, rfl⟩
    intro l hl
    apply (eq_none_iff_of_eq_some_iff fun _ => (h l (by simp [hl])).first).mpr (hbefore l hl)

theorem lastInLine_of_selects (h : ∀ l ∈ lines, Selects m P l) :
  lastInLine m (lines.zipIdx 1).reverse = some f
    ↔ ∃ i l, IsGreatest (indices P lines) i ∧ lines[i]? = some l ∧ f = ⟨i + 1, 0, l⟩
  := by
  simp only [lastInLine_reverse_eq_some_iff, isGreatest_indices_iff]
  constructor
  · rintro ⟨before, line, after, column, rfl, hafter, hline, rfl⟩
    obtain ⟨rfl, hP⟩ := (h line (by simp)).lastAmong.mp hline
    refine ⟨before.length, line, ⟨before, line, after, rfl, hP, ?_, rfl⟩, by simp, rfl⟩
    intro l hl
    apply (eq_none_iff_of_eq_some_iff fun _ => (h l (by simp [hl])).lastAmong).mp (hafter l hl)
  · rintro ⟨_, _, ⟨before, line, after, rfl, hP, hafter, rfl⟩, hline, rfl⟩
    obtain rfl : line = _ := by simpa using hline
    refine ⟨before, line, after, 0, rfl, ?_, (h line (by simp)).lastAmong.mpr ⟨rfl, hP⟩, rfl⟩
    intro l hl
    apply (eq_none_iff_of_eq_some_iff fun _ => (h l (by simp [hl])).lastAmong).mpr (hafter l hl)

theorem firstLine_eq_none_iff_of_selects (h : ∀ l ∈ lines, Selects m P l) :
  firstLine m (lines.zipIdx 1) = none ↔ ∀ l ∈ lines, ¬ P l
  := by
  simp only [firstLine, List.findSome?_eq_none_iff, Option.map_eq_none_iff]
  rw [forall_mem_zipIdx_iff (p := fun l => m.first l = none)]
  apply forall₂_congr
  intro l hl
  apply eq_none_iff_of_eq_some_iff fun _ => (h l hl).first

theorem lastInLine_eq_none_iff_of_selects (h : ∀ l ∈ lines, Selects m P l) :
  lastInLine m (lines.zipIdx 1).reverse = none ↔ ∀ l ∈ lines, ¬ P l
  := by
  simp only [lastInLine, List.findSome?_eq_none_iff, Option.map_eq_none_iff, List.mem_reverse]
  rw [forall_mem_zipIdx_iff (p := fun l => m.lastAmong l (l.length + 1) = none)]
  apply forall₂_congr
  intro l hl
  apply eq_none_iff_of_eq_some_iff fun _ => (h l hl).lastAmong

theorem forall_mem_searched {p : Text → Prop} (hnil : p []) (h : ∀ l ∈ lines, p l) :
  ∀ l ∈ searched lines, p l
  := by
  rw [searched]
  split
  · simpa using hnil
  · exact h

theorem indices_searched (hnil : ¬ P []) :
  indices P (searched lines) = indices P lines
  := by
  rw [searched]
  split
  · rename_i h
    obtain rfl : lines = [] := by simpa using h
    ext i
    cases i with
    | zero => simpa [indices] using hnil
    | succ i => simp [indices]
  · rfl

theorem getElem?_searched (hi : i ∈ indices P lines) :
  (searched lines)[i]? = lines[i]?
  := by
  obtain ⟨l, hl, -⟩ := hi
  rw [searched_of_ne_nil]
  rintro rfl
  contradiction

/-- A match at the end of the last line would be one in a blank line. -/
theorem whole_forward_of_selects (hnil : ¬ P []) (h : ∀ l ∈ searched lines, Selects m P l) :
  whole m lines .forward = firstLine m ((searched lines).zipIdx 1)
  := by
  apply whole_forward
  apply Matcher.firstFrom_eq_none_iff.mpr
  intro i hlower hupper
  have hmem : (searched lines).getLastD [] ∈ searched lines := by
    rw [List.getLastD_eq_getLast?, List.getLast?_eq_some_getLast (searched_ne_nil lines)]
    apply List.getLast_mem
  rw [← Bool.not_eq_true, h _ hmem i hupper]
  rintro ⟨rfl, hP⟩
  rw [List.eq_nil_of_length_eq_zero (Nat.le_zero.mp hlower)] at hP
  apply hnil hP

/-- A search of a whole buffer for the lines that satisfy `P`, which no blank line does, gives the
first of them, or the last one for a backward search, at column zero. -/
theorem whole_of_selects_eq_some_iff (hnil : ¬ P []) (h : ∀ l ∈ searched lines, Selects m P l) :
  whole m lines direction = some f
    ↔ ∃ i l, IsExtreme direction (indices P lines) i ∧ lines[i]? = some l ∧ f = ⟨i + 1, 0, l⟩
  := by
  have hwhole : whole m lines direction = some f
      ↔ ∃ i l, IsExtreme direction (indices P (searched lines)) i ∧ (searched lines)[i]? = some l
        ∧ f = ⟨i + 1, 0, l⟩ := by
    cases direction with
    | forward => rw [whole_forward_of_selects hnil h, firstLine_of_selects h, IsExtreme]
    | backward => rw [whole_backward, lastInLine_of_selects h, IsExtreme]
  rw [hwhole, indices_searched hnil]
  constructor
  · rintro ⟨i, l, hi, hl, rfl⟩
    rw [getElem?_searched hi.mem] at hl
    exact ⟨i, l, hi, hl, rfl⟩
  · rintro ⟨i, l, hi, hl, rfl⟩
    rw [← getElem?_searched hi.mem] at hl
    exact ⟨i, l, hi, hl, rfl⟩

/-- A search of a whole buffer for the lines that satisfy `P` gives nothing exactly when none
does. -/
theorem whole_of_selects_eq_none_iff (hnil : ¬ P []) (h : ∀ l ∈ searched lines, Selects m P l) :
  whole m lines direction = none ↔ ∀ l ∈ lines, ¬ P l
  := by
  have hwhole : whole m lines direction = none ↔ ∀ l ∈ searched lines, ¬ P l := by
    cases direction with
    | forward => rw [whole_forward_of_selects hnil h, firstLine_eq_none_iff_of_selects h]
    | backward => rw [whole_backward, lastInLine_eq_none_iff_of_selects h]
  rw [hwhole]
  constructor
  · intro hnot l hl
    rw [searched_of_ne_nil (List.ne_nil_of_mem hl)] at hnot
    apply hnot l hl
  · apply forall_mem_searched (p := fun l => ¬ P l) hnil

end

/-! ### Searches for a whole line -/

section

variable {s l : Text} {direction : Direction} {f : Found}

/-- The expression that matches the text `s` as a whole line. -/
def wholeLine (s : Text) : Matcher := ⟨Regex.literal true true s, false⟩

theorem selects_wholeLine (hs : s ≠ []) (hl : '\n' ∉ l) :
  Selects (wholeLine s) (· = s) l
  := by
  intro i hi
  rw [wholeLine, Matcher.matchesAt_literal hl hi]
  constructor
  · rintro ⟨-, htake, hstart, hend⟩
    obtain rfl := hstart rfl
    have hlength := hend rfl
    rw [List.drop_zero, List.take_of_length_le (by omega)] at htake
    exact ⟨rfl, htake⟩
  · rintro ⟨rfl, rfl⟩
    simp [Text.StandsAt]

/-- A search of a whole buffer for a nonempty whole line gives the first of the lines equal to
it, or the last one for a backward search, at column zero. -/
theorem whole_wholeLine_eq_some_iff (hs : s ≠ []) (hlines : ∀ l ∈ lines, '\n' ∉ l) :
  whole (wholeLine s) lines direction = some f
    ↔ ∃ i, IsExtreme direction {i | lines[i]? = some s} i ∧ f = ⟨i + 1, 0, s⟩
  := by
  have hset : indices (· = s) lines = {i | lines[i]? = some s} := by
    ext i
    simp [indices]
  rw [whole_of_selects_eq_some_iff (P := (· = s)) hs.symm, hset]
  · constructor
    · rintro ⟨i, l, hi, hl, rfl⟩
      rw [Option.some.inj (hl.symm.trans hi.mem)]
      exact ⟨i, hi, rfl⟩
    · rintro ⟨i, hi, rfl⟩
      exact ⟨i, s, hi, hi.mem, rfl⟩
  · apply forall_mem_searched
    · apply selects_wholeLine hs List.not_mem_nil
    · intro l hl
      apply selects_wholeLine hs (hlines l hl)

/-- A search of a whole buffer for a nonempty whole line gives nothing exactly when no line is
equal to it. -/
theorem whole_wholeLine_eq_none_iff (hs : s ≠ []) (hlines : ∀ l ∈ lines, '\n' ∉ l) :
  whole (wholeLine s) lines direction = none ↔ s ∉ lines
  := by
  rw [whole_of_selects_eq_none_iff (P := (· = s)) hs.symm]
  · constructor
    · intro h hmem
      apply h s hmem rfl
    · rintro h l hl rfl
      contradiction
  · apply forall_mem_searched
    · apply selects_wholeLine hs List.not_mem_nil
    · intro l hl
      apply selects_wholeLine hs (hlines l hl)

end

end TagNavigator.Search
