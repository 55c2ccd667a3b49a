import Mathlib.Data.Prod.Lex
import TagNavigator.Pattern.Source
import TagNavigator.Proofs.Search.Whole

/-!
# The first and the last match of a buffer

The places of a buffer where a match starts are ordered by line and then by column.  A backward
search of the whole buffer gives the greatest of them.  A forward search gives the end of the last
line if a match starts there, and otherwise the least of them; so it gives the least one exactly if
the end of the last line is none of them, or the only one (`whole_extreme`).
-/

namespace TagNavigator.Search

/-- A line, from one, and a column, from zero, ordered by line and then by column. -/
abbrev BufferPlace := Lex (Nat × Nat)

/-- The places of the lines where a match starts. -/
def places (m : Matcher) (lines : List Text) : Set BufferPlace :=
  {p | ∃ i line column, lines[i]? = some line ∧ column ≤ line.length
    ∧ m.matchesAt line.toArray column = true ∧ p = toLex (i + 1, column)}

/-- The end of the last line. -/
def lastPlace (lines : List Text) : BufferPlace :=
  toLex (lines.length, (lines.getLastD []).length)

/-- The place of a match that was found. -/
def Found.place (f : Found) : BufferPlace := toLex (f.line, f.column)

/-- The match was found in the line that it shows. -/
def Found.StandsIn (f : Found) (lines : List Text) : Prop :=
  ∃ i, f.line = i + 1 ∧ lines[i]? = some f.text

variable {m : Matcher} {lines before after : List Text} {line : Text} {f : Found}

theorem place_le_place_iff {i j k l : Nat} :
  (toLex (i, k) : BufferPlace) ≤ toLex (j, l) ↔ i < j ∨ i = j ∧ k ≤ l
  := Prod.Lex.toLex_le_toLex

theorem Found.eq_of_place {g : Found} (hf : f.StandsIn lines) (hg : g.StandsIn lines)
    (hplace : f.place = g.place) :
  f = g
  := by
  obtain ⟨i, hi, htext⟩ := hf
  obtain ⟨j, hj, htext'⟩ := hg
  obtain ⟨hline, hcolumn⟩ := Prod.mk.inj (toLex.injective hplace)
  obtain ⟨fline, fcolumn, ftext⟩ := f
  obtain ⟨gline, gcolumn, gtext⟩ := g
  obtain rfl : i = j := by
    dsimp only at hi hj hline
    omega
  dsimp only at hline hcolumn htext htext'
  rw [hline, hcolumn, Option.some.inj (htext.symm.trans htext')]

theorem found_standsIn_iff :
  f.StandsIn lines ↔ (f.text, f.line) ∈ lines.zipIdx 1
  := by
  rw [List.mk_mem_zipIdx_iff_le_and_getElem?_sub]
  constructor
  · rintro ⟨i, hi, htext⟩
    rw [hi, Nat.add_sub_cancel]
    exact ⟨Nat.le_add_left 1 i, htext⟩
  · rintro ⟨hline, htext⟩
    exact ⟨f.line - 1, (Nat.sub_add_cancel hline).symm, htext⟩

/-! ### Numbered lines -/

/-- The places of numbered lines where a match starts. -/
def placesIn (m : Matcher) (numbered : List (Text × Nat)) : Set BufferPlace :=
  {p | ∃ l ∈ numbered, ∃ column ≤ l.1.length,
    m.matchesAt l.1.toArray column = true ∧ p = toLex (l.2, column)}

variable {numbered others : List (Text × Nat)} {p : BufferPlace}

theorem places_eq_placesIn :
  places m lines = placesIn m (lines.zipIdx 1)
  := by
  ext p
  simp only [places, placesIn, Set.mem_ofPred_eq, Prod.exists,
    List.mk_mem_zipIdx_iff_le_and_getElem?_sub]
  constructor
  · rintro ⟨i, line, column, hline, hcolumn, hmatch, rfl⟩
    exact ⟨line, i + 1, ⟨Nat.le_add_left 1 i, hline⟩, column, hcolumn, hmatch, rfl⟩
  · rintro ⟨line, i, ⟨hi, hline⟩, column, hcolumn, hmatch, rfl⟩
    refine ⟨i - 1, line, column, hline, hcolumn, hmatch, ?_⟩
    rw [Nat.sub_add_cancel hi]

theorem placesIn_append :
  placesIn m (numbered ++ others) = placesIn m numbered ∪ placesIn m others
  := by
  ext p
  simp only [placesIn, Set.mem_ofPred_eq, Set.mem_union, List.mem_append, or_and_right, exists_or]

theorem placesIn_reverse :
  placesIn m numbered.reverse = placesIn m numbered
  := by
  simp only [placesIn, List.mem_reverse]

theorem placesIn_eq_empty_iff :
  placesIn m numbered = ∅
    ↔ ∀ l ∈ numbered, ∀ column ≤ l.1.length, m.matchesAt l.1.toArray column = false
  := by
  rw [Set.eq_empty_iff_forall_notMem]
  constructor
  · intro h l hl column hcolumn
    apply eq_false_of_ne_true
    intro hmatch
    exact h _ ⟨l, hl, column, hcolumn, hmatch, rfl⟩
  · rintro h _ ⟨l, hl, column, hcolumn, hmatch, rfl⟩
    rw [h l hl column hcolumn] at hmatch
    contradiction

/-- The first match of lines in ascending order is at the least place where a match starts. -/
theorem isLeast_placesIn_of_firstLine (hsorted : numbered.Pairwise (·.2 < ·.2))
    (h : firstLine m numbered = some f) :
  (f.text, f.line) ∈ numbered ∧ IsLeast (placesIn m numbered) f.place
  := by
  obtain ⟨before, l, after, rfl, hl, hbefore⟩ := List.findSome?_eq_some_iff.mp h
  obtain ⟨column, hcolumn, rfl⟩ := Option.map_eq_some_iff.mp hl
  obtain ⟨⟨hle, hmatch⟩, hleast⟩ := Matcher.first_eq_some_iff.mp hcolumn
  have hmem : l ∈ before ++ l :: after := List.mem_append_right _ List.mem_cons_self
  refine ⟨hmem, ⟨l, hmem, column, hle, hmatch, rfl⟩, ?_⟩
  rintro _ ⟨l', hl', c, hc, hmatch', rfl⟩
  apply place_le_place_iff.mpr
  rcases List.mem_append.mp hl' with hl' | hl'
  · have hnone := Matcher.first_eq_none_iff.mp (Option.map_eq_none_iff.mp (hbefore l' hl')) c hc
    rw [hmatch'] at hnone
    contradiction
  rcases List.mem_cons.mp hl' with rfl | hl'
  · exact .inr ⟨rfl, hleast ⟨hc, hmatch'⟩⟩
  · have hafter := (List.pairwise_append.mp hsorted).2.1
    exact .inl ((List.pairwise_cons.mp hafter).1 l' hl')

/-- The last match of lines in descending order is at the greatest place where a match starts. -/
theorem isGreatest_placesIn_of_lastInLine (hsorted : numbered.Pairwise (·.2 > ·.2))
    (h : lastInLine m numbered = some f) :
  (f.text, f.line) ∈ numbered ∧ IsGreatest (placesIn m numbered) f.place
  := by
  obtain ⟨before, l, after, rfl, hl, hbefore⟩ := List.findSome?_eq_some_iff.mp h
  obtain ⟨column, hcolumn, rfl⟩ := Option.map_eq_some_iff.mp hl
  obtain ⟨⟨-, hle, hmatch⟩, hgreatest⟩ := Matcher.lastAmong_eq_some_iff.mp hcolumn
  have hmem : l ∈ before ++ l :: after := List.mem_append_right _ List.mem_cons_self
  refine ⟨hmem, ⟨l, hmem, column, hle, hmatch, rfl⟩, ?_⟩
  rintro _ ⟨l', hl', c, hc, hmatch', rfl⟩
  apply place_le_place_iff.mpr
  rcases List.mem_append.mp hl' with hl' | hl'
  · have hnone := Matcher.lastAmong_eq_none_iff.mp (Option.map_eq_none_iff.mp (hbefore l' hl')) c
      (Nat.lt_succ_of_le hc) hc
    rw [hmatch'] at hnone
    contradiction
  rcases List.mem_cons.mp hl' with rfl | hl'
  · exact .inr ⟨rfl, hgreatest ⟨Nat.lt_succ_of_le hc, hc, hmatch'⟩⟩
  · have hafter := (List.pairwise_append.mp hsorted).2.1
    exact .inl ((List.pairwise_cons.mp hafter).1 l' hl')

theorem firstLine_eq_none_iff_placesIn :
  firstLine m numbered = none ↔ placesIn m numbered = ∅
  := by
  simp only [firstLine, List.findSome?_eq_none_iff, Option.map_eq_none_iff, placesIn_eq_empty_iff,
    Matcher.first_eq_none_iff]

theorem lastInLine_eq_none_iff_placesIn :
  lastInLine m numbered = none ↔ placesIn m numbered = ∅
  := by
  have hlast (l : Text) : m.lastAmong l (l.length + 1) = none
      ↔ ∀ column ≤ l.length, m.matchesAt l.toArray column = false := by
    rw [Matcher.lastAmong_eq_none_iff]
    constructor
    · intro h column hcolumn
      apply h column (Nat.lt_succ_of_le hcolumn) hcolumn
    · intro h column _ hcolumn
      apply h column hcolumn
  simp only [lastInLine, List.findSome?_eq_none_iff, Option.map_eq_none_iff, placesIn_eq_empty_iff,
    hlast]

theorem pairwise_zipIdx (lines : List Text) (n : Nat) :
  (lines.zipIdx n).Pairwise (·.2 < ·.2)
  := by
  apply List.Pairwise.of_map Prod.snd (fun _ _ h => h)
  rw [List.zipIdx_map_snd]
  exact List.pairwise_lt_range'

/-! ### The lines of a buffer -/

theorem firstLine_eq_none_iff :
  firstLine m (lines.zipIdx 1) = none ↔ places m lines = ∅
  := by
  rw [firstLine_eq_none_iff_placesIn, places_eq_placesIn]

theorem lastInLine_eq_none_iff :
  lastInLine m (lines.zipIdx 1).reverse = none ↔ places m lines = ∅
  := by
  rw [lastInLine_eq_none_iff_placesIn, placesIn_reverse, places_eq_placesIn]

/-- The first match of the lines is at the least place where a match starts. -/
theorem isLeast_of_firstLine (h : firstLine m (lines.zipIdx 1) = some f) :
  f.StandsIn lines ∧ IsLeast (places m lines) f.place
  := by
  rw [found_standsIn_iff, places_eq_placesIn]
  exact isLeast_placesIn_of_firstLine (pairwise_zipIdx lines 1) h

/-- The last match of the lines is at the greatest place where a match starts. -/
theorem isGreatest_of_lastInLine (h : lastInLine m (lines.zipIdx 1).reverse = some f) :
  f.StandsIn lines ∧ IsGreatest (places m lines) f.place
  := by
  rw [found_standsIn_iff, places_eq_placesIn, ← placesIn_reverse, ← List.mem_reverse]
  exact isGreatest_placesIn_of_lastInLine (List.pairwise_reverse.mpr (pairwise_zipIdx lines 1)) h

/-! ### The end of the last line -/

theorem getElem?_length_sub_one (hne : lines ≠ []) :
  lines[lines.length - 1]? = some (lines.getLastD [])
  := by
  rw [← List.getLast?_eq_getElem?, List.getLastD_eq_getLast?, List.getLast?_eq_some_getLast hne]
  rfl

theorem lastPlace_mem_iff (hne : lines ≠ []) :
  lastPlace lines ∈ places m lines
    ↔ m.matchesAt (lines.getLastD []).toArray (lines.getLastD []).length = true
  := by
  have hpos := List.length_pos_iff.mpr hne
  have hlast := getElem?_length_sub_one hne
  constructor
  · rintro ⟨i, line, column, hline, hcolumn, hmatch, hplace⟩
    obtain ⟨hi, rfl⟩ := Prod.mk.inj (toLex.injective hplace)
    obtain rfl : i = lines.length - 1 := by omega
    rw [Option.some.inj (hlast.symm.trans hline)] at hmatch ⊢
    exact hmatch
  · intro hmatch
    refine ⟨lines.length - 1, _, _, hlast, Nat.le_refl _, hmatch, ?_⟩
    rw [lastPlace, Nat.sub_add_cancel hpos]

/-- No match starts after the end of the last line. -/
theorem le_lastPlace {p : BufferPlace} (hp : p ∈ places m lines) :
  p ≤ lastPlace lines
  := by
  obtain ⟨i, line, column, hline, hcolumn, -, rfl⟩ := hp
  obtain ⟨hi, -⟩ := List.getElem?_eq_some_iff.mp hline
  apply place_le_place_iff.mpr
  rcases Nat.lt_or_eq_of_le (Nat.succ_le_of_lt hi) with hlt | heq
  · left
    exact hlt
  · right
    obtain rfl : i = lines.length - 1 := by omega
    have hlast := getElem?_length_sub_one (List.ne_nil_of_length_pos (Nat.zero_lt_of_lt hi))
    obtain rfl := Option.some.inj (hline.symm.trans hlast)
    exact ⟨heq, hcolumn⟩

/-- A forward search gives the end of the last line if a match starts there. -/
theorem whole_forward_of_mem (hmem : lastPlace (searched lines) ∈ places m (searched lines)) :
  ∃ f, whole m lines .forward = some f ∧ f.StandsIn (searched lines)
    ∧ f.place = lastPlace (searched lines)
  := by
  have hne := searched_ne_nil lines
  have hpos := List.length_pos_iff.mpr hne
  have hmatch := (lastPlace_mem_iff hne).mp hmem
  -- The search starts behind this place, but a start behind the end of a line is moved to its end.
  have hfirst : m.firstFrom ((searched lines).getLastD []) ((searched lines).getLastD []).length
      = some ((searched lines).getLastD []).length := by
    apply Matcher.firstFrom_eq_some_iff.mpr
    constructor
    · exact ⟨Nat.le_refl _, Nat.le_refl _, hmatch⟩
    · intro i hi
      exact hi.1
  refine ⟨⟨(searched lines).length, _, (searched lines).getLastD []⟩, ?_, ?_, rfl⟩
  · rw [whole_forward_eq, hfirst]
  · use (searched lines).length - 1
    constructor
    · exact (Nat.sub_add_cancel hpos).symm
    · apply getElem?_length_sub_one hne

/-- A forward search takes the lines in order if no match starts at the end of the last one. -/
theorem whole_forward_of_notMem (hmem : lastPlace (searched lines) ∉ places m (searched lines)) :
  whole m lines .forward = firstLine m ((searched lines).zipIdx 1)
  := by
  apply whole_forward
  apply Matcher.firstFrom_eq_none_iff.mpr
  intro i hlower hupper
  obtain rfl := Nat.le_antisymm hlower hupper
  apply eq_false_of_ne_true
  rwa [lastPlace_mem_iff (searched_ne_nil lines)] at hmem

/-! ### Both directions -/

/-- If something is found in the lines, then what is found is known by its place. -/
theorem eq_some_iff_of_place {found : Option Found} (hfound : found = some f)
    (hf : f.StandsIn lines) (g : Found) :
  found = some g ↔ g.StandsIn lines ∧ g.place = f.place
  := by
  rw [hfound, Option.some.injEq]
  constructor
  · rintro rfl
    exact ⟨hf, rfl⟩
  · rintro ⟨hg, hplace⟩
    apply Found.eq_of_place hf hg hplace.symm

theorem firstLine_eq_some_iff_isLeast :
  firstLine m (lines.zipIdx 1) = some f ↔ f.StandsIn lines ∧ IsLeast (places m lines) f.place
  := by
  constructor
  · exact isLeast_of_firstLine
  · rintro ⟨hf, hleast⟩
    cases hfirst : firstLine m (lines.zipIdx 1) with
    | none =>
        have hmem := hleast.1
        rw [firstLine_eq_none_iff.mp hfirst] at hmem
        apply absurd hmem (Set.notMem_empty _)
    | some g =>
        obtain ⟨hg, hleast'⟩ := isLeast_of_firstLine hfirst
        rw [Found.eq_of_place hf hg (hleast.unique hleast')]

theorem lastInLine_eq_some_iff_isGreatest :
  lastInLine m (lines.zipIdx 1).reverse = some f
    ↔ f.StandsIn lines ∧ IsGreatest (places m lines) f.place
  := by
  constructor
  · exact isGreatest_of_lastInLine
  · rintro ⟨hf, hgreatest⟩
    cases hlast : lastInLine m (lines.zipIdx 1).reverse with
    | none =>
        have hmem := hgreatest.1
        rw [lastInLine_eq_none_iff.mp hlast] at hmem
        apply absurd hmem (Set.notMem_empty _)
    | some g =>
        obtain ⟨hg, hgreatest'⟩ := isGreatest_of_lastInLine hlast
        rw [Found.eq_of_place hf hg (hgreatest.unique hgreatest')]

/-- A forward search finds the end of the last line, if a match starts there, and otherwise the
least place where a match starts. -/
theorem whole_forward_eq_some_iff :
  whole m lines .forward = some f
    ↔ f.StandsIn (searched lines)
      ∧ ((lastPlace (searched lines) ∈ places m (searched lines)
          ∧ f.place = lastPlace (searched lines))
        ∨ (lastPlace (searched lines) ∉ places m (searched lines)
          ∧ IsLeast (places m (searched lines)) f.place))
  := by
  by_cases hmem : lastPlace (searched lines) ∈ places m (searched lines)
  · obtain ⟨g, hg, hstands, hplace⟩ := whole_forward_of_mem hmem
    rw [eq_some_iff_of_place hg hstands, hplace]
    simp [hmem]
  · rw [whole_forward_of_notMem hmem, firstLine_eq_some_iff_isLeast]
    simp [hmem]

theorem whole_forward_eq_none_iff :
  whole m lines .forward = none ↔ places m (searched lines) = ∅
  := by
  by_cases hmem : lastPlace (searched lines) ∈ places m (searched lines)
  · obtain ⟨g, hg, -⟩ := whole_forward_of_mem hmem
    rw [hg]
    constructor
    · intro h
      contradiction
    · intro h
      rw [h] at hmem
      apply absurd hmem (Set.notMem_empty _)
  · rw [whole_forward_of_notMem hmem, firstLine_eq_none_iff]

theorem exists_whole_forward (h : (places m (searched lines)).Nonempty) :
  ∃ f, whole m lines .forward = some f
  := by
  apply Option.ne_none_iff_exists'.mp
  rw [Ne, whole_forward_eq_none_iff]
  exact h.ne_empty

/-- A search of a whole buffer, where a buffer without lines counts as one empty line, finds nothing
exactly if a match starts nowhere.  A backward search finds the greatest place where a match starts.
A forward search finds the end of the last line, if a match starts there, and otherwise the least
place.  So it finds the least place exactly if a match starts somewhere, but at the end of the last
line only if it starts nowhere else. -/
theorem whole_extreme (m : Matcher) (lines : List Text) :
  let starts := places m (searched lines)
  let last := lastPlace (searched lines)
  (∀ direction, whole m lines direction = none ↔ starts = ∅)
    ∧ (∀ f, whole m lines .backward = some f
      ↔ f.StandsIn (searched lines) ∧ IsGreatest starts f.place)
    ∧ (∀ f, whole m lines .forward = some f
      ↔ f.StandsIn (searched lines)
        ∧ ((last ∈ starts ∧ f.place = last) ∨ (last ∉ starts ∧ IsLeast starts f.place)))
    ∧ ((∃ f, whole m lines .forward = some f ∧ IsLeast starts f.place)
      ↔ starts.Nonempty ∧ (last ∈ starts → starts = {last}))
  := by
  intro starts last
  refine ⟨?_, ?_, ?_, ?_⟩
  · intro direction
    cases direction with
    | forward => exact whole_forward_eq_none_iff
    | backward => rw [whole_backward, lastInLine_eq_none_iff]
  · intro f
    rw [whole_backward, lastInLine_eq_some_iff_isGreatest]
  · intro f
    exact whole_forward_eq_some_iff
  · constructor
    · rintro ⟨f, hf, hleast⟩
      refine ⟨⟨_, hleast.1⟩, ?_⟩
      intro hmem
      rcases (whole_forward_eq_some_iff.mp hf).2 with ⟨-, hplace⟩ | ⟨hnot, -⟩
      · rw [hplace] at hleast
        apply Set.eq_singleton_iff_unique_mem.mpr
        refine ⟨hmem, ?_⟩
        intro p hp
        apply le_antisymm (le_lastPlace hp) (hleast.2 hp)
      · apply absurd hmem hnot
    · rintro ⟨hnonempty, honly⟩
      obtain ⟨f, hf⟩ := exists_whole_forward hnonempty
      refine ⟨f, hf, ?_⟩
      rcases (whole_forward_eq_some_iff.mp hf).2 with ⟨hmem, hplace⟩ | ⟨-, hleast⟩
      · rw [honly hmem, hplace]
        exact isLeast_singleton
      · exact hleast

/-- A forward search for a blank line finds the last line of a buffer of three lines whose first and
last lines are blank, though a match starts in the first line. -/
theorem whole_forward_blank_not_isLeast :
  let lines : List Text := [[], ['a'], []]
  ∃ m, Pattern.compile "^$".toList true false = .ok m
    ∧ whole m lines .forward = some ⟨3, 0, []⟩
    ∧ toLex (1, 0) ∈ places m (searched lines)
    ∧ ¬ IsLeast (places m (searched lines)) (Found.mk 3 0 []).place
  := by
  intro lines
  refine ⟨⟨.seq .textStart .textEnd, false⟩, by decide, by decide, ?_, ?_⟩
  · exact ⟨0, [], 0, by decide, by decide, by decide, rfl⟩
  · intro hleast
    have hfirst : toLex (1, 0) ∈ places ⟨.seq .textStart .textEnd, false⟩ (searched lines) :=
      ⟨0, [], 0, by decide, by decide, by decide, rfl⟩
    apply absurd (place_le_place_iff.mp (hleast.2 hfirst)) (by decide)

end TagNavigator.Search
