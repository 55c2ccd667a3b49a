import TagNavigator.Proofs.Tag.Fallback

/-!
# Escaped texts

A text is escaped so that a pattern matches it literally, and the pattern compiles in either
spelling, whatever characters the text has.  Two characters are left as they are and still are
operators in one place each: a caret at the start of the text, and a dollar at its end.  So the
pattern matches what stands between them, where the two anchors allow it, and it is a literal one
just if the text has neither (`first_escapeLiteral`).
-/

namespace TagNavigator

/-- The text `s` occurs in the text `t` at the place `i`. -/
def Text.OccursAt (s t : Text) (i : Nat) : Prop :=
  ∃ before after, t = before ++ s ++ after ∧ before.length = i

/-- A search of a text without line feed finds the least of the places that `P` holds of, and
nothing just if there is none. -/
def Matcher.FindsLeast (m : Matcher) (P : Text → Nat → Prop) : Prop :=
  ∀ t : Text, '\n' ∉ t →
    (∀ p, m.first t = some p ↔ IsLeast {i | P t i} p) ∧ (m.first t = none ↔ ∀ i, ¬ P t i)

theorem Text.occursAt_iff {s t : Text} {i : Nat} :
  OccursAt s t i ↔ StandsAt false false s t i
  := by
  simp only [StandsAt, Bool.false_eq_true, false_implies, and_true]
  constructor
  · rintro ⟨before, after, rfl, rfl⟩
    constructor
    · simp only [List.length_append]
      omega
    · simp only [List.append_assoc, List.drop_left, List.take_left]
  · rintro ⟨hi, htake⟩
    refine ⟨t.take i, (t.drop i).drop s.length, ?_, List.length_take_of_le hi⟩
    have hsplit : s ++ (t.drop i).drop s.length = t.drop i := by
      nth_rewrite 1 [← htake]
      apply List.take_append_drop
    rw [List.append_assoc, hsplit, List.take_append_drop]

/-- A literal expression without anchors finds the first place where its text occurs. -/
theorem Matcher.findsLeast_literal (fromStart toEnd : Bool) (s : Text) :
  FindsLeast ⟨Regex.literal fromStart toEnd s, false⟩ (Text.StandsAt fromStart toEnd s)
  := by
  intro t ht
  constructor
  · intro p
    apply first_literal ht
  · apply first_literal_eq_none ht

namespace TagCommand

variable {s : Text} {magic : Bool}

/-! ### The anchors of a text -/

/-- Whether the text starts with a caret. -/
def caretFirst (s : Text) : Bool := s.head? == some '^'

/-- Whether the text ends with a dollar. -/
def dollarLast (s : Text) : Bool := s.getLast? == some '$'

/-- The text without a caret at its start and a dollar at its end. -/
def inner (s : Text) : Text :=
  let rest := if caretFirst s then s.tail else s
  if dollarLast s then rest.dropLast else rest

theorem dollarLast_caret (s : Text) :
  dollarLast ('^' :: s) = dollarLast s
  := by
  cases h : s.getLast? <;> simp [dollarLast, List.getLast?_cons, h]

theorem append_dollar (s : Text) :
  (if dollarLast s then s.dropLast else s) ++ (if dollarLast s then ['$'] else []) = s
  := by
  split
  · rename_i h
    obtain ⟨before, rfl⟩ := List.getLast?_eq_some_iff.mp (beq_iff_eq.mp h)
    rw [List.dropLast_concat]
  · apply List.append_nil

/-- A text is what stands between its anchors, with them. -/
theorem anchors_inner (s : Text) :
  (if caretFirst s then ['^'] else []) ++ inner s ++ (if dollarLast s then ['$'] else []) = s
  := by
  rw [inner]
  split
  · rename_i h
    obtain ⟨rest, rfl⟩ := List.head?_eq_some_iff.mp (beq_iff_eq.mp h)
    rw [dollarLast_caret, List.tail_cons, List.append_assoc, append_dollar]
    rfl
  · rw [List.nil_append, append_dollar]

theorem head?_inner (h : caretFirst s = false) :
  (inner s).head? ≠ some '^'
  := by
  intro hhead
  obtain ⟨rest, hrest⟩ := List.head?_eq_some_iff.mp hhead
  have hs := anchors_inner s
  rw [h, hrest] at hs
  rw [← hs] at h
  contradiction

theorem getLast?_inner (h : dollarLast s = false) :
  (inner s).getLast? ≠ some '$'
  := by
  intro hlast
  obtain ⟨before, hbefore⟩ := List.getLast?_eq_some_iff.mp hlast
  have hs := anchors_inner s
  rw [h, hbefore] at hs
  rw [← hs] at h
  simp [dollarLast] at h

theorem mem_inner {c : Char} (h : c ∈ inner s) :
  c ∈ s
  := by
  rw [← anchors_inner s]
  simp [h]

/-- A text is longer than what stands between its anchors, if it has one. -/
theorem length_le_length_inner (h : s.length ≤ (inner s).length) :
  caretFirst s = false ∧ dollarLast s = false
  := by
  have hlength := congrArg List.length (anchors_inner s)
  simp only [List.length_append] at hlength
  constructor
  · cases hcaret : caretFirst s with
    | false => rfl
    | true =>
        rw [hcaret, if_pos rfl, List.length_singleton] at hlength
        omega
  · cases hdollar : dollarLast s with
    | false => rfl
    | true =>
        rw [hdollar, if_pos rfl, List.length_singleton] at hlength
        omega

/-! ### The pattern -/

/-- An escaped text is the literal pattern for what stands between its anchors. -/
theorem escapeLiteral_eq_literal (magic : Bool) (s : Text) :
  escapeLiteral magic s
    = Pattern.literal (isOperator magic) (caretFirst s) (dollarLast s) (inner s)
  := by
  have hcaret : isOperator magic '^' = false := by
    cases magic <;> rfl
  have hdollar : isOperator magic '$' = false := by
    cases magic <;> rfl
  have hquote : escapeLiteral magic s = Pattern.quote (isOperator magic) s := rfl
  rw [hquote, Pattern.literal]
  conv_lhs => rw [← anchors_inner s]
  simp only [Pattern.quote, List.flatMap_append]
  congr 1
  · congr 1
    split <;> simp [hcaret]
  · split <;> simp [hdollar]

theorem compile_escapeLiteral (magic : Bool) (s : Text) (ignoreCase : Bool) :
  Pattern.compile (escapeLiteral magic s) magic ignoreCase
    = .ok ⟨Regex.literal (caretFirst s) (dollarLast s) (inner s), ignoreCase⟩
  := by
  rw [escapeLiteral_eq_literal]
  apply Pattern.compile_literal (quotes_isOperator magic)
  · intro h hhead
    apply absurd hhead (head?_inner h)
  · intro h hlast
    apply absurd hlast (getLast?_inner h)

/-- The pattern of an escaped text compiles in either spelling.  A search for it finds the first
place where what stands between the anchors of the text occurs, as far as the anchors allow it, and
this is the first place where the text itself occurs just if it has no anchors: no caret at its
start, and no dollar at its end. -/
theorem first_escapeLiteral (hs : '\n' ∉ s) (magic : Bool) :
  ∃ m, Pattern.compile (escapeLiteral magic s) magic false = .ok m
    ∧ m.FindsLeast (Text.StandsAt (caretFirst s) (dollarLast s) (inner s))
    ∧ (m.FindsLeast (Text.OccursAt s) ↔ s.head? ≠ some '^' ∧ s.getLast? ≠ some '$')
  := by
  have hfinds := Matcher.findsLeast_literal (caretFirst s) (dollarLast s) (inner s)
  refine ⟨_, compile_escapeLiteral magic s false, hfinds, ?_⟩
  constructor
  · intro hoccurs
    -- what stands between the anchors is found in itself, and is too short for the text with one
    have hinner : '\n' ∉ inner s := fun h => hs (mem_inner h)
    have hstands : Text.StandsAt (caretFirst s) (dollarLast s) (inner s) (inner s) 0 := by
      simp [Text.StandsAt]
    have hfirst := ((hfinds _ hinner).1 0).mpr ⟨hstands, fun _ _ => Nat.zero_le _⟩
    obtain ⟨⟨before, after, hsplit, -⟩, -⟩ := ((hoccurs _ hinner).1 0).mp hfirst
    have hlength : s.length ≤ (inner s).length := by
      rw [hsplit]
      simp only [List.length_append]
      omega
    obtain ⟨hcaret, hdollar⟩ := length_le_length_inner hlength
    exact ⟨beq_eq_false_iff_ne.mp hcaret, beq_eq_false_iff_ne.mp hdollar⟩
  · rintro ⟨hhead, hlast⟩
    have hcaret : caretFirst s = false := beq_eq_false_iff_ne.mpr hhead
    have hdollar : dollarLast s = false := beq_eq_false_iff_ne.mpr hlast
    have hinner : inner s = s := by
      simp [inner, hcaret, hdollar]
    rw [hcaret, hdollar, hinner] at hfinds ⊢
    simpa only [Matcher.FindsLeast, Text.occursAt_iff] using hfinds

/-- A text with operators of both spellings, and with a caret and a dollar inside, is found as it
stands, and not where its last character is missing. -/
theorem first_escapeLiteral_operators :
  '\n' ∉ "a.*[^]$\\".toList
    ∧ ∃ m, Pattern.compile "a\\.\\*\\[^]$\\\\".toList true false = .ok m
      ∧ m.first "aa.*[^]$ a.*[^]$\\".toList = some 9
  := by
  have hs : '\n' ∉ "a.*[^]$\\".toList := by decide
  obtain ⟨m, hm, -, hplain⟩ := first_escapeLiteral hs true
  refine ⟨hs, m, hm, ?_⟩
  obtain ⟨hfirst, -⟩ := hplain.mpr (by decide) "aa.*[^]$ a.*[^]$\\".toList (by decide)
  apply (hfirst 9).mpr
  simp only [Text.occursAt_iff]
  constructor
  · exact ⟨by decide, by decide, nofun, nofun⟩
  · rintro i ⟨-, htake, -⟩
    apply Nat.le_of_not_lt
    intro hi
    revert htake
    revert i
    decide

/-- The pattern of a lone caret is that caret: it matches every text at its start. -/
theorem first_escapeLiteral_caret :
  ¬ (∀ magic s, '\n' ∉ s → ∃ m, Pattern.compile (escapeLiteral magic s) magic false = .ok m
    ∧ m.FindsLeast (Text.OccursAt s))
  := by
  intro h
  obtain ⟨m, hm, hfinds⟩ := h true ['^'] (by decide)
  cases hm
  have hfirst : Matcher.first ⟨.textStart, false⟩ ['a'] = some 0 := by decide
  obtain ⟨⟨before, after, hsplit, -⟩, -⟩ := ((hfinds ['a'] (by decide)).1 0).mp hfirst
  have hmem : '^' ∈ ['a'] := by
    rw [hsplit]
    simp
  revert hmem
  decide

end TagCommand

end TagNavigator
