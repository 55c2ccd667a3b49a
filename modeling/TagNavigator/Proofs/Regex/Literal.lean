import TagNavigator.Proofs.Regex.Ends

/-!
# Literal expressions

A literal expression matches a given text and nothing else, at the start of the text that is
searched, at its end, at both or anywhere.  It is read from the escaped characters of the text
between the anchors (`parse_literal`), and a search for it finds the least place where the text
stands (`Matcher.first_literal`).
-/

namespace TagNavigator

/-- The text `s` stands at the place `p` of the text `t`, which is the start of `t` if
`fromStart` is on, and ends where `t` ends if `toEnd` is on. -/
def Text.StandsAt (fromStart toEnd : Bool) (s t : Text) (p : Nat) : Prop :=
  p ≤ t.length ∧ (t.drop p).take s.length = s
    ∧ (fromStart = true → p = 0) ∧ (toEnd = true → p + s.length = t.length)

namespace Regex

/-- The item that a token adds to a group, if it adds one. -/
def Token.item? : Token → Option Regex
  | .char c => some (.char c)
  | .set s => some (ofSet s)
  | .any => some .any
  | .textStart => some .textStart
  | .textEnd => some .textEnd
  | .boundary => some .boundary
  | .wordAhead => some .wordAhead
  | .wordBehind => some .wordBehind
  | .star => none
  | .groupOpen => none
  | .groupClose => none
  | .bar => none

/-- The tokens of a literal expression. -/
def literalTokens (fromStart toEnd : Bool) (s : Text) : List Token :=
  (if fromStart then [.textStart] else []) ++ s.map .char ++ (if toEnd then [.textEnd] else [])

/-- The items of a literal expression. -/
def literalItems (fromStart toEnd : Bool) (s : Text) : List Regex :=
  (if fromStart then [.textStart] else []) ++ s.map .char ++ (if toEnd then [.textEnd] else [])

/-- The expression that matches the text `s`, at the start of the text that is searched if
`fromStart` is on, and at its end if `toEnd` is on. -/
def literal (fromStart toEnd : Bool) (s : Text) : Regex :=
  sequence (literalItems fromStart toEnd s)

/-! ### Reading -/

theorem tokenizeFrom_outside_cons {c : Char} {t : Text}
    (hbackslash : c ≠ '\\') (hbracket : c ≠ '[') (hparen : c ≠ '(') :
  tokenizeFrom .outside (c :: t)
    = (do
        let token ← plainToken c
        let rest ← tokenizeFrom .outside t
        pure (token :: rest))
  := by
  rw [tokenizeFrom.eq_def]
  simp [hbackslash, hbracket, hparen]

/-- A character that is not special is read as itself. -/
theorem plainToken_of_not_special {c : Char} (h : specialChars.contains c = false) :
  plainToken c = .ok (.char c)
  := by
  have hspecial : ∀ d ∈ ['.', '*', '|', ')', '^', '$', '+', '?', '{'],
      specialChars.contains d = true := List.all_eq_true.mp (by decide)
  have hne : ∀ d ∈ ['.', '*', '|', ')', '^', '$', '+', '?', '{'], c ≠ d := by
    rintro d hd rfl
    rw [hspecial c hd] at h
    contradiction
  simp only [List.forall_mem_cons] at hne
  obtain ⟨hdot, hstar, hbar, hclose, hcaret, hdollar, hplus, hmark, hbrace, -⟩ := hne
  rw [plainToken]
  all_goals assumption

/-- A special character after a backslash is read as itself. -/
theorem escapedToken_of_special {c : Char} (h : specialChars.contains c = true) :
  escapedToken c = .ok (.char c)
  := by
  have hplain : specialChars.all (fun d => d != 'b' && !d.isAlphanum) = true := by decide
  have hc := List.all_eq_true.mp hplain c (List.contains_iff_mem.mp h)
  simp only [Bool.and_eq_true, bne_iff_ne, Bool.not_eq_true'] at hc
  rw [escapedToken, if_neg hc.1, hc.2]
  rfl

/-- An escaped character is read as itself. -/
theorem tokenizeFrom_escape (c : Char) (t : Text) :
  tokenizeFrom .outside (escape c ++ t) = (.char c :: ·) <$> tokenizeFrom .outside t
  := by
  rw [escape]
  split
  · rename_i h
    rw [List.cons_append, List.cons_append, List.nil_append, tokenizeFrom,
      escapedToken_of_special h]
    rfl
  · rename_i h
    rw [Bool.not_eq_true] at h
    have hc : c ∉ specialChars := by simpa using h
    rw [List.cons_append, List.nil_append, tokenizeFrom_outside_cons, plainToken_of_not_special h]
    · rfl
    · rintro rfl
      apply hc
      decide
    · rintro rfl
      apply hc
      decide
    · rintro rfl
      apply hc
      decide

/-- Escaped characters are read as themselves. -/
theorem tokenizeFrom_flatMap_escape (s t : Text) :
  tokenizeFrom .outside (s.flatMap escape ++ t)
    = (s.map .char ++ ·) <$> tokenizeFrom .outside t
  := by
  induction s with
  | nil => simp
  | cons c s ih =>
      rw [List.flatMap_cons, List.append_assoc, tokenizeFrom_escape, ih]
      cases tokenizeFrom .outside t <;> rfl

/-- The tokens of a literal expression are read from the escaped characters between the
anchors. -/
theorem tokenize_literal (fromStart toEnd : Bool) (s : Text) :
  tokenize ((if fromStart then ['^'] else []) ++ s.flatMap escape
      ++ (if toEnd then ['$'] else []))
    = .ok (literalTokens fromStart toEnd s)
  := by
  have hend : tokenizeFrom .outside (if toEnd then ['$'] else [])
      = .ok (if toEnd then [.textEnd] else []) := by
    cases toEnd <;> rfl
  have hbody : tokenizeFrom .outside (s.flatMap escape ++ (if toEnd then ['$'] else []))
      = .ok (s.map .char ++ (if toEnd then [.textEnd] else [])) := by
    rw [tokenizeFrom_flatMap_escape, hend]
    rfl
  rw [tokenize, literalTokens, List.append_assoc, List.append_assoc]
  cases fromStart with
  | false => apply hbody
  | true =>
      rw [if_pos rfl, if_pos rfl, List.singleton_append, tokenizeFrom_outside_cons, hbody]
      · rfl
      · decide
      · decide
      · decide

/-- A token that adds an item adds it to the innermost group. -/
theorem Reading.step_of_item? {token : Token} {r : Regex} (h : token.item? = some r)
    (s : Reading) :
  s.step token = .ok (s.push r)
  := by
  cases token
  all_goals simp only [Token.item?, Option.some.injEq, reduceCtorEq] at h
  all_goals
    subst h
    rfl

/-- Tokens that add items add them in order. -/
theorem Reading.run_of_items {tokens : List Token} {items : List Regex}
    (h : tokens.map Token.item? = items.map some) (current : Frame) (outer : List Frame) :
  Reading.run ⟨current, outer⟩ tokens
    = .ok ⟨⟨current.branches, items.reverse ++ current.items⟩, outer⟩
  := by
  induction tokens generalizing items current with
  | nil =>
      obtain rfl : items = [] := by simpa using h.symm
      rfl
  | cons token tokens ih =>
      cases items with
      | nil => contradiction
      | cons r items =>
          obtain ⟨hr, hitems⟩ := List.cons.inj h
          rw [Reading.run, Reading.step_of_item? hr]
          apply Eq.trans (ih hitems (current.push r))
          simp [Frame.push]

/-- Tokens that add items are read as the sequence of the items. -/
theorem ofTokens_of_items {tokens : List Token} {items : List Regex}
    (h : tokens.map Token.item? = items.map some) :
  ofTokens tokens = .ok (sequence items)
  := by
  rw [ofTokens, Reading.start, Reading.run_of_items h]
  simp [Frame.start, Reading.finish, Frame.finish, bind, Except.bind]

/-- A literal expression is read from the escaped characters of its text between its
anchors. -/
theorem parse_literal (fromStart toEnd : Bool) (s : Text) :
  parse ((if fromStart then ['^'] else []) ++ s.flatMap escape ++ (if toEnd then ['$'] else []))
    = .ok (literal fromStart toEnd s)
  := by
  rw [parse, tokenize_literal]
  apply ofTokens_of_items
  cases fromStart <;> cases toEnd <;> simp [literalTokens, literalItems, Token.item?]

/-! ### Matching -/

variable {t : Text}

/-- A match of the characters of `s` is a place where `s` stands. -/
theorem mem_ends_chars {s : Text} {i j : Nat} :
  j ∈ ends false t.toArray (sequence (s.map .char)) i
    ↔ (t.drop i).take s.length = s ∧ j = i + s.length
  := by
  induction s generalizing i with
  | nil => simp [mem_ends_sequence_nil]
  | cons c s ih =>
      have hhead : t.toArray[i]? = (t.drop i).head? := by simp
      have htail : t.drop (i + 1) = (t.drop i).tail := by simp
      simp only [List.map_cons, mem_ends_sequence_cons, ih, ends, mem_endsOne, hhead,
        List.length_cons]
      constructor
      · rintro ⟨_, ⟨⟨d, hd, hcd⟩, rfl⟩, hs, rfl⟩
        obtain rfl : c = d := by simpa using hcd
        rw [htail] at hs
        obtain ⟨u, hu⟩ := List.head?_eq_some_iff.mp hd
        rw [hu, List.tail_cons] at hs
        rw [hu, List.take_succ_cons, hs]
        exact ⟨rfl, by omega⟩
      · rintro ⟨hs, rfl⟩
        cases hu : t.drop i with
        | nil => simp [hu] at hs
        | cons d u =>
            rw [hu, List.take_succ_cons] at hs
            obtain ⟨rfl, htake⟩ := List.cons.inj hs
            refine ⟨i + 1, ⟨⟨d, rfl, by simp⟩, rfl⟩, ?_, by omega⟩
            rw [htail, hu, List.tail_cons, htake]

/-- In a text without line feed, the place that counts as its end is its length. -/
theorem atEnd_iff (ht : '\n' ∉ t) {i : Nat} :
  atEnd t.toArray i = true ↔ i = t.length
  := by
  simp only [atEnd, List.size_toArray, Bool.or_eq_true, beq_iff_eq, Bool.and_eq_true]
  constructor
  · rintro (h | ⟨-, h⟩)
    · apply h
    · have hmem : '\n' ∈ t := by
        apply List.mem_of_getElem?
        simpa using h
      contradiction
  · intro h
    left
    apply h

/-- A match of a literal expression starts where its text stands. -/
theorem mem_ends_literal (ht : '\n' ∉ t) {fromStart toEnd : Bool} {s : Text} {i : Nat} :
  (∃ j, j ∈ ends false t.toArray (literal fromStart toEnd s) i)
    ↔ (t.drop i).take s.length = s
      ∧ (fromStart = true → i = 0) ∧ (toEnd = true → i + s.length = t.length)
  := by
  have hstart : ∀ k, k ∈ ends false t.toArray
      (sequence (if fromStart then [.textStart] else [])) i
      ↔ (fromStart = true → i = 0) ∧ k = i := by
    intro k
    cases fromStart with
    | false => simp [mem_ends_sequence_nil]
    | true => simp [sequence, ends, mem_endsHere]
  have hend : ∀ k j, j ∈ ends false t.toArray
      (sequence (if toEnd then [.textEnd] else [])) k
      ↔ (toEnd = true → k = t.length) ∧ j = k := by
    intro k j
    cases toEnd with
    | false => simp [mem_ends_sequence_nil]
    | true => simp [sequence, ends, mem_endsHere, atEnd_iff ht]
  simp only [literal, literalItems, mem_ends_sequence_append, mem_ends_chars, hstart, hend]
  constructor
  · rintro ⟨j, k, ⟨_, ⟨hi, rfl⟩, hs, rfl⟩, hk, rfl⟩
    exact ⟨hs, hi, hk⟩
  · rintro ⟨hs, hi, hk⟩
    exact ⟨i + s.length, i + s.length, ⟨i, ⟨hi, rfl⟩, hs, rfl⟩, hk, rfl⟩

end Regex

namespace Matcher

variable {t s : Text} {fromStart toEnd : Bool}

/-- A literal expression matches at the places where its text stands. -/
theorem matchesAt_literal (ht : '\n' ∉ t) {i : Nat} (hi : i ≤ t.length) :
  Matcher.matchesAt ⟨Regex.literal fromStart toEnd s, false⟩ t.toArray i = true
    ↔ Text.StandsAt fromStart toEnd s t i
  := by
  rw [matchesAt_iff, Regex.mem_ends_literal ht, Text.StandsAt]
  simp [hi]

/-- A search for a literal expression finds the least place where its text stands. -/
theorem first_literal (ht : '\n' ∉ t) {p : Nat} :
  Matcher.first ⟨Regex.literal fromStart toEnd s, false⟩ t = some p
    ↔ IsLeast {i | Text.StandsAt fromStart toEnd s t i} p
  := by
  have hset : {i | i ≤ t.length
        ∧ Matcher.matchesAt ⟨Regex.literal fromStart toEnd s, false⟩ t.toArray i = true}
      = {i | Text.StandsAt fromStart toEnd s t i} := by
    ext i
    constructor
    · rintro ⟨hi, hmatch⟩
      apply (matchesAt_literal ht hi).mp hmatch
    · intro hs
      exact ⟨hs.1, (matchesAt_literal ht hs.1).mpr hs⟩
  rw [first_eq_some_iff, hset]

/-- A search for a literal expression finds nothing exactly when its text stands nowhere. -/
theorem first_literal_eq_none (ht : '\n' ∉ t) :
  Matcher.first ⟨Regex.literal fromStart toEnd s, false⟩ t = none
    ↔ ∀ i, ¬ Text.StandsAt fromStart toEnd s t i
  := by
  rw [first_eq_none_iff]
  constructor
  · intro h i hs
    have hmatch := (matchesAt_literal ht hs.1).mpr hs
    rw [h i hs.1] at hmatch
    contradiction
  · intro h i hi
    rw [← Bool.not_eq_true, matchesAt_literal ht hi]
    apply h

end Matcher

end TagNavigator
