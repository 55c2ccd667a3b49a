import TagNavigator.Proofs.Regex.Repetition
import TagNavigator.Proofs.Search.Extreme

/-!
# The next and the previous match

A search from a place of a buffer gives the nearest match beyond the place, in the direction of the
search.  If there is none, then a search that wraps gives the match that is nearest to the end where
it starts anew (`nextFrom_nearest`).  The one exception is a forward search from a column that is
the greatest index or more: it fails.

A search moves a column behind the end of a line to the end, so no match may start at the end of a
line.  Otherwise a forward search from the end of a line would find the place that it starts from.
-/

namespace TagNavigator.Search

/-- The cursor at a place. -/
def cursorAt (p : BufferPlace) : Cursor := ⟨(ofLex p).1, (ofLex p).2⟩

/-- The members of a set of places beyond a place, in a direction. -/
def beyond : Direction → Set BufferPlace → BufferPlace → Set BufferPlace
  | .forward, starts, a => {p ∈ starts | a < p}
  | .backward, starts, a => {p ∈ starts | p < a}

/-- The member of a set of places that comes first in a direction. -/
def IsNearest : Direction → Set BufferPlace → BufferPlace → Prop
  | .forward => IsLeast
  | .backward => IsGreatest

/-- What was found in the lines is the nearest of the places, if there are any. -/
def Gives (lines : List Text) (direction : Direction) (starts : Set BufferPlace) :
    Option Found → Prop
  | some f => f.StandsIn lines ∧ IsNearest direction starts f.place
  | none => starts = ∅

/-- What was found in the lines is the nearest place beyond the given one where a match starts.  If
there is none, then it is the nearest place of all where a match starts, provided that the search
wraps. -/
def Meets (m : Matcher) (lines : List Text) (direction : Direction) (a : BufferPlace)
    (wrap : Bool) : Option Found → Prop
  | some f => f.StandsIn lines
    ∧ (IsNearest direction (beyond direction (places m lines) a) f.place
      ∨ beyond direction (places m lines) a = ∅ ∧ wrap = true
        ∧ IsNearest direction (places m lines) f.place)
  | none => beyond direction (places m lines) a = ∅ ∧ (wrap = true → places m lines = ∅)

/-- No match starts at the end of a line. -/
def NoneAtEnd (m : Matcher) (lines : List Text) : Prop :=
  ∀ l ∈ lines, l.length ∉ m.regex.ends m.ignoreCase l.toArray l.length

variable {m : Matcher} {lines before after : List Text} {line : Text} {column : Nat} {wrap : Bool}
  {direction : Direction} {starts : Set BufferPlace} {a : BufferPlace} {found : Option Found}

theorem place_lt_place_iff {i j k l : Nat} :
  (toLex (i, k) : BufferPlace) < toLex (j, l) ↔ i < j ∨ i = j ∧ k < l
  := Prod.Lex.toLex_lt_toLex

/-- A match that starts at the end of a line is empty. -/
theorem NoneAtEnd.matchesAt_length (hend : NoneAtEnd m lines) {l : Text} (hl : l ∈ lines) :
  m.matchesAt l.toArray l.length = false
  := by
  apply eq_false_of_ne_true
  intro hmatch
  obtain ⟨j, hj⟩ := Matcher.matchesAt_iff.mp hmatch
  have hbounds := Regex.bounds_of_mem_ends (Nat.le_of_eq List.size_toArray.symm) hj
  rw [List.size_toArray] at hbounds
  obtain rfl : j = l.length := by omega
  exact hend l hl hj

/-! ### A line and the lines before and after it -/

theorem zipIdx_append_cons (before : List Text) (line : Text) (after : List Text) :
  (before ++ line :: after).zipIdx 1
    = before.zipIdx 1 ++ (line, before.length + 1) :: after.zipIdx (before.length + 2)
  := by
  rw [List.zipIdx_append, List.zipIdx_cons, Nat.add_comm 1]

theorem originIndex_append_cons :
  originIndex (before ++ line :: after) ((before.length + 1 : Nat) : Int) = before.length
  := by
  rw [originIndex, List.length_append, List.length_cons]
  omega

/-- A forward search looks at the rest of the line, then at the lines after it, and if it wraps at
the lines up to and with the line itself. -/
theorem forward_append_cons :
  forward m (before ++ line :: after) (cursorAt (toLex (before.length + 1, column))) wrap
    = ((m.firstFrom line (min (column + 1) line.length)).map
        fun c => ⟨before.length + 1, c, line⟩).or
      (firstLine m (after.zipIdx (before.length + 2)
        ++ if wrap then before.zipIdx 1 ++ [(line, before.length + 1)] else []))
  := by
  have hsearched : searched (before ++ line :: after) = before ++ line :: after :=
    searched_of_ne_nil (by simp)
  have hline : (before ++ line :: after)[before.length]?.getD [] = line := by simp
  have hcolumn : min ((column : Int) + 1).toNat line.length = min (column + 1) line.length := by
    omega
  have hdrop : ((before ++ line :: after).zipIdx 1).drop (before.length + 1)
      = after.zipIdx (before.length + 2) := by
    simp [zipIdx_append_cons, List.drop_append]
  have htake : ((before ++ line :: after).zipIdx 1).take (before.length + 1)
      = before.zipIdx 1 ++ [(line, before.length + 1)] := by
    simp [zipIdx_append_cons, List.take_append, List.take_of_length_le]
  simp only [forward, cursorAt, ofLex_toLex, hsearched, originIndex_append_cons, hline, hcolumn,
    hdrop, htake]
  cases m.firstFrom line (min (column + 1) line.length) with
  | none => rfl
  | some c => rfl

/-- A backward search looks at the line before the column, then at the lines before it, and if it
wraps at the lines from the last one to the line itself. -/
theorem backward_append_cons :
  backward m (before ++ line :: after) (cursorAt (toLex (before.length + 1, column))) wrap
    = ((m.lastAmong line column).map fun c => ⟨before.length + 1, c, line⟩).or
      (lastInLine m ((before.zipIdx 1).reverse
        ++ if wrap then ((line, before.length + 1) :: after.zipIdx (before.length + 2)).reverse
          else []))
  := by
  have hsearched : searched (before ++ line :: after) = before ++ line :: after :=
    searched_of_ne_nil (by simp)
  have hline : (before ++ line :: after)[before.length]?.getD [] = line := by simp
  have hdrop : ((before ++ line :: after).zipIdx 1).drop before.length
      = (line, before.length + 1) :: after.zipIdx (before.length + 2) := by
    simp [zipIdx_append_cons]
  have htake : ((before ++ line :: after).zipIdx 1).take before.length = before.zipIdx 1 := by
    simp [zipIdx_append_cons]
  simp only [backward, cursorAt, ofLex_toLex, hsearched, originIndex_append_cons, hline, hdrop,
    htake, Int.toNat_natCast]
  cases m.lastAmong line column with
  | none => rfl
  | some c => rfl

/-- The matches in a line. -/
abbrev placesOf (m : Matcher) (line : Text) (number : Nat) : Set BufferPlace :=
  placesIn m [(line, number)]

theorem mem_placesOf {number : Nat} {p : BufferPlace} :
  p ∈ placesOf m line number
    ↔ ∃ c ≤ line.length, m.matchesAt line.toArray c = true ∧ p = toLex (number, c)
  := by
  simp [placesIn]

theorem places_append_cons :
  places m (before ++ line :: after)
    = placesIn m (before.zipIdx 1) ∪ (placesOf m line (before.length + 1)
      ∪ placesIn m (after.zipIdx (before.length + 2)))
  := by
  rw [places_eq_placesIn, zipIdx_append_cons, placesIn_append, ← List.singleton_append,
    placesIn_append]

theorem lt_of_mem_before {p : BufferPlace} (hp : p ∈ placesIn m (before.zipIdx 1)) :
  p < toLex (before.length + 1, column)
  := by
  obtain ⟨l, hl, c, -, -, rfl⟩ := hp
  have hlt := List.snd_lt_of_mem_zipIdx hl
  apply place_lt_place_iff.mpr
  left
  omega

theorem lt_of_mem_after {p : BufferPlace}
    (hp : p ∈ placesIn m (after.zipIdx (before.length + 2))) :
  toLex (before.length + 1, column) < p
  := by
  obtain ⟨l, hl, c, -, -, rfl⟩ := hp
  have hle := List.le_snd_of_mem_zipIdx hl
  apply place_lt_place_iff.mpr
  left
  omega

/-! ### The nearest of some places -/

theorem gives_firstLine {numbered : List (Text × Nat)}
    (hnumbered : numbered.Sublist (lines.zipIdx 1)) :
  Gives lines .forward (placesIn m numbered) (firstLine m numbered)
  := by
  cases hfound : firstLine m numbered with
  | none => exact firstLine_eq_none_iff_placesIn.mp hfound
  | some f =>
      have hsorted := (pairwise_zipIdx lines 1).sublist hnumbered
      obtain ⟨hmem, hleast⟩ := isLeast_placesIn_of_firstLine hsorted hfound
      exact ⟨found_standsIn_iff.mpr (hnumbered.subset hmem), hleast⟩

theorem gives_lastInLine {numbered : List (Text × Nat)}
    (hnumbered : numbered.Sublist (lines.zipIdx 1)) :
  Gives lines .backward (placesIn m numbered) (lastInLine m numbered.reverse)
  := by
  rw [← placesIn_reverse]
  cases hfound : lastInLine m numbered.reverse with
  | none => exact lastInLine_eq_none_iff_placesIn.mp hfound
  | some f =>
      have hsorted := List.pairwise_reverse.mpr ((pairwise_zipIdx lines 1).sublist hnumbered)
      obtain ⟨hmem, hgreatest⟩ := isGreatest_placesIn_of_lastInLine hsorted hfound
      exact ⟨found_standsIn_iff.mpr (hnumbered.subset (List.mem_reverse.mp hmem)), hgreatest⟩

/-- The nearest of places that all come before some others is the nearest of both. -/
theorem Gives.or {others : Set BufferPlace} {found' : Option Found}
    (h : Gives lines direction starts found) (h' : Gives lines direction others found')
    (hle : ∀ p ∈ starts, others ⊆ beyond direction others p) :
  Gives lines direction (starts ∪ others) (found.or found')
  := by
  cases found with
  | none =>
      obtain rfl : starts = ∅ := h
      rw [Set.empty_union, Option.none_or]
      exact h'
  | some f =>
      refine ⟨h.1, ?_⟩
      cases direction with
      | forward =>
          refine ⟨.inl h.2.1, ?_⟩
          rintro q (hq | hq)
          · exact h.2.2 hq
          · exact le_of_lt (hle _ h.2.1 hq).2
      | backward =>
          refine ⟨.inl h.2.1, ?_⟩
          rintro q (hq | hq)
          · exact h.2.2 hq
          · exact le_of_lt (hle _ h.2.1 hq).2

/-- A search that looks at the places beyond the start first, and then at all places. -/
theorem Gives.meets {again : Option Found}
    (h : Gives lines direction (beyond direction (places m lines) a) found)
    (hagain : beyond direction (places m lines) a = ∅ →
      Gives lines direction (places m lines) again) :
  Meets m lines direction a wrap (found.or (if wrap then again else none))
  := by
  cases found with
  | some f => exact ⟨h.1, .inl h.2⟩
  | none =>
      rw [Option.none_or]
      cases wrap with
      | false => exact ⟨h, fun hwrap => absurd hwrap Bool.false_ne_true⟩
      | true =>
          cases again with
          | none => exact ⟨h, fun _ => hagain h⟩
          | some f => exact ⟨(hagain h).1, .inr ⟨h, rfl, (hagain h).2⟩⟩

/-! ### Both searches -/

theorem standsIn_append_cons {c : Nat} :
  (⟨before.length + 1, c, line⟩ : Found).StandsIn (before ++ line :: after)
  := ⟨before.length, rfl, by simp⟩

theorem mem_beyond_forward_iff {number : Nat} {p : BufferPlace} :
  p ∈ beyond .forward (placesOf m line number) (toLex (number, column))
    ↔ ∃ c, column < c ∧ c ≤ line.length ∧ m.matchesAt line.toArray c = true
      ∧ p = toLex (number, c)
  := by
  constructor
  · rintro ⟨hp, hlt⟩
    obtain ⟨c, hc, hmatch, rfl⟩ := mem_placesOf.mp hp
    rcases place_lt_place_iff.mp hlt with hlt | ⟨-, hlt⟩
    · exact absurd hlt (Nat.lt_irrefl _)
    · exact ⟨c, hlt, hc, hmatch, rfl⟩
  · rintro ⟨c, hlt, hc, hmatch, rfl⟩
    exact ⟨mem_placesOf.mpr ⟨c, hc, hmatch, rfl⟩, place_lt_place_iff.mpr (.inr ⟨rfl, hlt⟩)⟩

theorem mem_beyond_backward_iff {number : Nat} {p : BufferPlace} :
  p ∈ beyond .backward (placesOf m line number) (toLex (number, column))
    ↔ ∃ c, c < column ∧ c ≤ line.length ∧ m.matchesAt line.toArray c = true
      ∧ p = toLex (number, c)
  := by
  constructor
  · rintro ⟨hp, hlt⟩
    obtain ⟨c, hc, hmatch, rfl⟩ := mem_placesOf.mp hp
    rcases place_lt_place_iff.mp hlt with hlt | ⟨-, hlt⟩
    · exact absurd hlt (Nat.lt_irrefl _)
    · exact ⟨c, hlt, hc, hmatch, rfl⟩
  · rintro ⟨c, hlt, hc, hmatch, rfl⟩
    exact ⟨mem_placesOf.mpr ⟨c, hc, hmatch, rfl⟩, place_lt_place_iff.mpr (.inr ⟨rfl, hlt⟩)⟩

/-- A start behind the end of the line is moved to the end, where no match starts. -/
theorem gives_firstFrom (hline : m.matchesAt line.toArray line.length = false) :
  Gives (before ++ line :: after) .forward
    (beyond .forward (placesOf m line (before.length + 1)) (toLex (before.length + 1, column)))
    ((m.firstFrom line (min (column + 1) line.length)).map
      fun c => ⟨before.length + 1, c, line⟩)
  := by
  cases hfound : m.firstFrom line (min (column + 1) line.length) with
  | none =>
      apply Set.eq_empty_iff_forall_notMem.mpr
      intro p hp
      obtain ⟨c, hlt, hc, hmatch, -⟩ := mem_beyond_forward_iff.mp hp
      have hnone := Matcher.firstFrom_eq_none_iff.mp hfound c (by omega) hc
      rw [hmatch] at hnone
      contradiction
  | some c =>
      obtain ⟨⟨hfrom, hc, hmatch⟩, hleast⟩ := Matcher.firstFrom_eq_some_iff.mp hfound
      have hlt : column < c := by
        have hne : c ≠ line.length := by
          rintro rfl
          rw [hmatch] at hline
          contradiction
        omega
      refine ⟨standsIn_append_cons, mem_beyond_forward_iff.mpr ⟨c, hlt, hc, hmatch, rfl⟩, ?_⟩
      intro p hp
      obtain ⟨d, hlt', hd, hmatch', rfl⟩ := mem_beyond_forward_iff.mp hp
      exact place_le_place_iff.mpr (.inr ⟨rfl, hleast ⟨by omega, hd, hmatch'⟩⟩)

theorem gives_lastAmong :
  Gives (before ++ line :: after) .backward
    (beyond .backward (placesOf m line (before.length + 1)) (toLex (before.length + 1, column)))
    ((m.lastAmong line column).map fun c => ⟨before.length + 1, c, line⟩)
  := by
  cases hfound : m.lastAmong line column with
  | none =>
      apply Set.eq_empty_iff_forall_notMem.mpr
      intro p hp
      obtain ⟨c, hlt, hc, hmatch, -⟩ := mem_beyond_backward_iff.mp hp
      have hnone := Matcher.lastAmong_eq_none_iff.mp hfound c hlt hc
      rw [hmatch] at hnone
      contradiction
  | some c =>
      obtain ⟨⟨hlt, hc, hmatch⟩, hgreatest⟩ := Matcher.lastAmong_eq_some_iff.mp hfound
      refine ⟨standsIn_append_cons, mem_beyond_backward_iff.mpr ⟨c, hlt, hc, hmatch, rfl⟩, ?_⟩
      intro p hp
      obtain ⟨d, hlt', hd, hmatch', rfl⟩ := mem_beyond_backward_iff.mp hp
      exact place_le_place_iff.mpr (.inr ⟨rfl, hgreatest ⟨hlt', hd, hmatch'⟩⟩)

/-- The places beyond a place are those in the rest of its line and in the lines after it. -/
theorem beyond_forward_append_cons :
  beyond .forward (places m (before ++ line :: after)) (toLex (before.length + 1, column))
    = beyond .forward (placesOf m line (before.length + 1)) (toLex (before.length + 1, column))
      ∪ placesIn m (after.zipIdx (before.length + 2))
  := by
  rw [places_append_cons]
  ext p
  constructor
  · rintro ⟨hp | hp | hp, hlt⟩
    · exact absurd hlt (lt_asymm (lt_of_mem_before hp))
    · exact .inl ⟨hp, hlt⟩
    · exact .inr hp
  · rintro (⟨hp, hlt⟩ | hp)
    · exact ⟨.inr (.inl hp), hlt⟩
    · exact ⟨.inr (.inr hp), lt_of_mem_after hp⟩

theorem beyond_backward_append_cons :
  beyond .backward (places m (before ++ line :: after)) (toLex (before.length + 1, column))
    = beyond .backward (placesOf m line (before.length + 1)) (toLex (before.length + 1, column))
      ∪ placesIn m (before.zipIdx 1)
  := by
  rw [places_append_cons]
  ext p
  constructor
  · rintro ⟨hp | hp | hp, hlt⟩
    · exact .inr hp
    · exact .inl ⟨hp, hlt⟩
    · exact absurd hlt (lt_asymm (lt_of_mem_after hp))
  · rintro (⟨hp, hlt⟩ | hp)
    · exact ⟨.inr (.inl hp), hlt⟩
    · exact ⟨.inl hp, lt_of_mem_before hp⟩

theorem firstLine_append_ite {numbered wrapped : List (Text × Nat)} :
  firstLine m (numbered ++ if wrap then wrapped else [])
    = (firstLine m numbered).or (if wrap then firstLine m wrapped else none)
  := by
  rw [firstLine, List.findSome?_append]
  cases wrap with
  | false => rfl
  | true => rfl

theorem lastInLine_append_ite {numbered wrapped : List (Text × Nat)} :
  lastInLine m (numbered ++ if wrap then wrapped else [])
    = (lastInLine m numbered).or (if wrap then lastInLine m wrapped else none)
  := by
  rw [lastInLine, List.findSome?_append]
  cases wrap with
  | false => rfl
  | true => rfl

theorem meets_forward (hline : m.matchesAt line.toArray line.length = false) :
  Meets m (before ++ line :: after) .forward (toLex (before.length + 1, column)) wrap
    (forward m (before ++ line :: after) (cursorAt (toLex (before.length + 1, column))) wrap)
  := by
  rw [forward_append_cons, firstLine_append_ite, ← Option.or_assoc]
  apply Gives.meets
  · rw [beyond_forward_append_cons]
    apply (gives_firstFrom hline).or
    · apply gives_firstLine
      rw [zipIdx_append_cons]
      exact (List.sublist_cons_self _ _).trans (List.sublist_append_right _ _)
    · rintro p hp q hq
      obtain ⟨c, -, -, -, rfl⟩ := mem_beyond_forward_iff.mp hp
      exact ⟨hq, lt_of_mem_after hq⟩
  · intro hnone
    rw [beyond_forward_append_cons, Set.union_empty_iff] at hnone
    rw [places_append_cons, hnone.2, Set.union_empty, ← placesIn_append]
    apply gives_firstLine
    rw [zipIdx_append_cons]
    exact List.Sublist.append_left (List.Sublist.cons_cons _ (List.nil_sublist _)) _

theorem meets_backward :
  Meets m (before ++ line :: after) .backward (toLex (before.length + 1, column)) wrap
    (backward m (before ++ line :: after) (cursorAt (toLex (before.length + 1, column))) wrap)
  := by
  rw [backward_append_cons, lastInLine_append_ite, ← Option.or_assoc]
  apply Gives.meets
  · rw [beyond_backward_append_cons]
    apply gives_lastAmong.or
    · apply gives_lastInLine
      rw [zipIdx_append_cons]
      exact List.sublist_append_left _ _
    · rintro p hp q hq
      obtain ⟨c, -, -, -, rfl⟩ := mem_beyond_backward_iff.mp hp
      exact ⟨hq, lt_of_mem_before hq⟩
  · intro hnone
    rw [beyond_backward_append_cons, Set.union_empty_iff] at hnone
    rw [places_append_cons, hnone.2, Set.empty_union, ← placesIn_append, List.singleton_append]
    apply gives_lastInLine
    rw [zipIdx_append_cons]
    exact List.sublist_append_right _ _

theorem bounds_of_mem_places (ha : a ∈ places m lines) :
  1 ≤ (ofLex a).1 ∧ (ofLex a).1 ≤ lines.length
  := by
  obtain ⟨i, line, column, hline, -, -, rfl⟩ := ha
  obtain ⟨hlt, -⟩ := List.getElem?_eq_some_iff.mp hline
  exact ⟨Nat.le_add_left 1 i, hlt⟩

theorem bounds_of_standsIn {f : Found} (hf : f.StandsIn lines) :
  1 ≤ (ofLex f.place).1 ∧ (ofLex f.place).1 ≤ lines.length
  := by
  obtain ⟨i, hi, htext⟩ := hf
  obtain ⟨hlt, -⟩ := List.getElem?_eq_some_iff.mp htext
  rw [Found.place, ofLex_toLex, hi]
  exact ⟨Nat.le_add_left 1 i, hlt⟩

theorem exists_line_of_place (hlow : 1 ≤ (ofLex a).1) (hhigh : (ofLex a).1 ≤ lines.length) :
  ∃ before line after column, lines = before ++ line :: after
    ∧ a = toLex (before.length + 1, column)
  := by
  have hlt : (ofLex a).1 - 1 < lines.length := by omega
  refine ⟨lines.take ((ofLex a).1 - 1), lines[(ofLex a).1 - 1], lines.drop ((ofLex a).1 - 1 + 1),
    (ofLex a).2, ?_, ?_⟩
  · rw [List.getElem_cons_drop, List.take_append_drop]
  · rw [List.length_take_of_le (Nat.le_of_lt hlt), Nat.sub_add_cancel hlow]
    rfl

/-- A search from a place in one of the lines. -/
theorem meets_next (hend : NoneAtEnd m lines) (hlow : 1 ≤ (ofLex a).1)
    (hhigh : (ofLex a).1 ≤ lines.length) :
  Meets m lines direction a wrap (next m lines (cursorAt a) direction wrap)
  := by
  obtain ⟨before, line, after, column, rfl, rfl⟩ := exists_line_of_place hlow hhigh
  cases direction with
  | forward =>
      apply meets_forward
      apply hend.matchesAt_length
      exact List.mem_append_right _ List.mem_cons_self
  | backward => exact meets_backward

theorem Meets.eq_none_iff (h : Meets m lines direction a true found) :
  found = none ↔ places m lines = ∅
  := by
  cases found with
  | none => exact ⟨fun _ => h.2 rfl, fun _ => rfl⟩
  | some f =>
      have hmem : f.place ∈ places m lines := by
        cases direction with
        | forward =>
            rcases h.2 with hnearest | ⟨-, -, hnearest⟩
            · exact hnearest.1.1
            · exact hnearest.1
        | backward =>
            rcases h.2 with hnearest | ⟨-, -, hnearest⟩
            · exact hnearest.1.1
            · exact hnearest.1
      constructor
      · intro hsome
        contradiction
      · intro hempty
        rw [hempty] at hmem
        exact absurd hmem (Set.notMem_empty _)

/-- The place before the next one is the place itself. -/
theorem Meets.place_eq {p : BufferPlace} {f g : Found} (hp : p ∈ places m lines)
    (hnext : Meets m lines .forward p true (some f))
    (hback : Meets m lines .backward f.place true (some g)) :
  g.place = p
  := by
  rcases hnext.2 with hnext | ⟨hnone, -, hfirst⟩
  · have hlast : IsGreatest (beyond .backward (places m lines) f.place) p := by
      refine ⟨⟨hp, hnext.1.2⟩, ?_⟩
      rintro q ⟨hq, hlt⟩
      by_contra hnot
      exact absurd (hnext.2 ⟨hq, not_le.mp hnot⟩) (not_le.mpr hlt)
    rcases hback.2 with hback | ⟨hempty, -, -⟩
    · exact hback.unique hlast
    · have hmem := hlast.1
      rw [hempty] at hmem
      exact absurd hmem (Set.notMem_empty _)
  · -- The search wrapped from the last match to the first, so the way back wraps as well.
    have hlast : IsGreatest (places m lines) p := by
      refine ⟨hp, ?_⟩
      intro q hq
      by_contra hnot
      have hmem : q ∈ beyond .forward (places m lines) p := ⟨hq, not_le.mp hnot⟩
      rw [hnone] at hmem
      exact absurd hmem (Set.notMem_empty _)
    rcases hback.2 with hback | ⟨-, -, hback⟩
    · exact absurd (hfirst.2 hback.1.1) (not_le.mpr hback.1.2)
    · exact hback.unique hlast

theorem isIndex_succ_iff {n : Nat} :
  isIndex (n + 1) = true ↔ n < 9223372036854775807
  := by
  have hmin : Int64.minValue.toInt = -9223372036854775808 := rfl
  have hmax : Int64.maxValue.toInt = 9223372036854775807 := rfl
  rw [isIndex, Bool.and_eq_true, decide_eq_true_iff, decide_eq_true_iff, hmin, hmax]
  omega

theorem nextFrom_eq_error_iff :
  nextFrom m lines (cursorAt a) direction wrap = .error .startColumn
    ↔ direction = .forward ∧ 9223372036854775807 ≤ (ofLex a).2
  := by
  rw [← Nat.not_lt, ← isIndex_succ_iff, nextFrom, cursorAt]
  cases direction with
  | forward => simp
  | backward => simp

theorem next_of_nextFrom (h : nextFrom m lines (cursorAt a) direction wrap = .ok found) :
  next m lines (cursorAt a) direction wrap = found
  := by
  rw [nextFrom] at h
  split at h
  · contradiction
  · exact Except.ok.inj h

/-- A search fails exactly if it is a forward one from a column that is the greatest index or more.
Otherwise it gives the nearest place beyond its start, in its direction, where a match starts.  If
there is none, then it finds nothing, unless it wraps and a match starts somewhere; then it gives
the nearest of all places where a match starts.  A backward search from the match after a place
where a match starts comes back to the place. -/
theorem nextFrom_nearest (m : Matcher) (lines : List Text) (hend : NoneAtEnd m lines) :
  (∀ a direction wrap, 1 ≤ (ofLex a).1 → (ofLex a).1 ≤ lines.length →
    (nextFrom m lines (cursorAt a) direction wrap = .error .startColumn
      ↔ direction = .forward ∧ 9223372036854775807 ≤ (ofLex a).2)
    ∧ ∀ found, nextFrom m lines (cursorAt a) direction wrap = .ok found →
      Meets m lines direction a wrap found
      ∧ (wrap = true → (found = none ↔ places m lines = ∅)))
  ∧ ∀ p ∈ places m lines, ∀ found, nextFrom m lines (cursorAt p) .forward true = .ok found →
    ∃ f g, found = some f
      ∧ nextFrom m lines (cursorAt f.place) .backward true = .ok (some g) ∧ g.place = p
  := by
  have hmeets : ∀ a direction wrap found, 1 ≤ (ofLex a).1 → (ofLex a).1 ≤ lines.length →
      nextFrom m lines (cursorAt a) direction wrap = .ok found →
      Meets m lines direction a wrap found := by
    intro a direction wrap found hlow hhigh hfound
    rw [← next_of_nextFrom hfound]
    exact meets_next hend hlow hhigh
  constructor
  · intro a direction wrap hlow hhigh
    refine ⟨nextFrom_eq_error_iff, ?_⟩
    intro found hfound
    have h := hmeets a direction wrap found hlow hhigh hfound
    refine ⟨h, ?_⟩
    rintro rfl
    exact h.eq_none_iff
  · intro p hp found hfound
    obtain ⟨hlow, hhigh⟩ := bounds_of_mem_places hp
    have hnext := hmeets p .forward true found hlow hhigh hfound
    cases found with
    | none =>
        rw [hnext.2 rfl] at hp
        exact absurd hp (Set.notMem_empty _)
    | some f =>
        obtain ⟨hlow, hhigh⟩ := bounds_of_standsIn hnext.1
        have hback : nextFrom m lines (cursorAt f.place) .backward true
            = .ok (next m lines (cursorAt f.place) .backward true) := rfl
        have hprevious := hmeets f.place .backward true _ hlow hhigh hback
        cases hfound' : next m lines (cursorAt f.place) .backward true with
        | none =>
            rw [hprevious.eq_none_iff.mp hfound'] at hp
            exact absurd hp (Set.notMem_empty _)
        | some g =>
            rw [hfound'] at hback hprevious
            exact ⟨f, g, rfl, hback, hnext.place_eq hp hprevious⟩

/-- Of two matches that overlap, the search from the second wraps to the first, and the search back
from there wraps to the second. -/
theorem nextFrom_nearest_overlapping :
  let lines : List Text := [[], "banana".toList]
  ∃ m, Pattern.compile "ana".toList true false = .ok m
    ∧ NoneAtEnd m lines
    ∧ toLex (2, 3) ∈ places m lines
    ∧ nextFrom m lines (cursorAt (toLex (2, 3))) .forward true
      = .ok (some ⟨2, 1, "banana".toList⟩)
    ∧ Meets m lines .forward (toLex (2, 3)) true (some ⟨2, 1, "banana".toList⟩)
    ∧ ∃ g, nextFrom m lines (cursorAt (toLex (2, 1))) .backward true = .ok (some g)
      ∧ g.place = toLex (2, 3)
  := by
  intro lines
  let m : Matcher := ⟨.seq (.char 'a') (.seq (.char 'n') (.char 'a')), false⟩
  have hend : NoneAtEnd m lines := by
    intro l hl
    rcases List.mem_cons.mp hl with rfl | hl
    · decide
    · obtain rfl := List.mem_singleton.mp hl
      decide
  have hmem : toLex (2, 3) ∈ places m lines :=
    ⟨1, "banana".toList, 3, rfl, by decide, by decide, rfl⟩
  have hnext : nextFrom m lines (cursorAt (toLex (2, 3))) .forward true
      = .ok (some ⟨2, 1, "banana".toList⟩) := by
    decide
  obtain ⟨hsearch, hreturn⟩ := nextFrom_nearest m lines hend
  obtain ⟨f, g, hf, hback, hplace⟩ := hreturn _ hmem _ hnext
  obtain rfl := Option.some.inj hf
  refine ⟨m, by decide, hend, hmem, hnext, ?_, g, hback, hplace⟩
  exact ((hsearch (toLex (2, 3)) .forward true (by decide) (by decide)).2 _ hnext).1

/-- A forward search from the greatest index fails, though a match starts in the buffer. -/
theorem nextFrom_greatest_index :
  let lines : List Text := [['a']]
  ∃ m, Pattern.compile "a".toList true false = .ok m
    ∧ NoneAtEnd m lines
    ∧ IsLeast (places m lines) (Found.mk 1 0 ['a']).place
    ∧ nextFrom m lines (cursorAt (toLex (1, 9223372036854775807))) .forward true
      = .error .startColumn
  := by
  intro lines
  refine ⟨⟨.char 'a', false⟩, by decide, ?_, ⟨?_, ?_⟩, by decide⟩
  · intro l hl
    obtain rfl := List.mem_singleton.mp hl
    decide
  · exact ⟨0, ['a'], 0, rfl, by decide, by decide, rfl⟩
  · rintro _ ⟨i, line, column, -, -, -, rfl⟩
    apply place_le_place_iff.mpr
    rcases Nat.eq_zero_or_pos i with rfl | hpos
    · exact .inr ⟨rfl, Nat.zero_le _⟩
    · exact .inl (Nat.succ_lt_succ hpos)

end TagNavigator.Search
