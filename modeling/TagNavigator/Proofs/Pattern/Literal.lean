import TagNavigator.Pattern.Source
import TagNavigator.Proofs.Regex.Literal

/-!
# Literal patterns

A text becomes a literal pattern by backslashes before some of its characters.  Which ones
depends on the spelling: `Quotes magic p` says that it suffices to put them before the
characters that satisfy `p`.  Two characters need none where they are no operators: a caret
anywhere but at the start, and a dollar anywhere but at the end.  The pattern so written, with
an anchor at either end if wanted, compiles to a literal expression (`compile_literal`).
-/

namespace TagNavigator.Pattern

/-- The text with a backslash before every character that satisfies `p`. -/
def quote (p : Char → Bool) (s : Text) : Text :=
  s.flatMap fun c => if p c then ['\\', c] else [c]

/-- The pattern of the text `s` with backslashes before the characters that satisfy `p`, after
a caret if `fromStart` is on and before a dollar if `toEnd` is on. -/
def literal (p : Char → Bool) (fromStart toEnd : Bool) (s : Text) : Text :=
  (if fromStart then ['^'] else []) ++ quote p s ++ (if toEnd then ['$'] else [])

/-- With a backslash before the characters that satisfy `p` and no others, every character of a
text stands for itself, carets and dollars aside. -/
structure Quotes (magic : Bool) (p : Char → Bool) : Prop where
  backslash : p '\\' = true
  magicOperator : magic = true → ∀ c ∈ ['.', '*', '['], p c = true
  plainOperator : magic = false → ∀ c ∈ ['.', '*', '['], p c = false
  escapedOperator : ∀ c ∈ ['(', ')', '|', '<', '>', 't'], p c = false

variable {magic : Bool} {p : Char → Bool}

@[simp]
theorem quote_nil :
  quote p [] = []
  := rfl

theorem quote_cons_of_quoted {c : Char} (hc : p c = true) (s : Text) :
  quote p (c :: s) = '\\' :: c :: quote p s
  := by
  simp [quote, hc]

theorem quote_cons_of_plain {c : Char} (hc : p c = false) (s : Text) :
  quote p (c :: s) = c :: quote p s
  := by
  simp [quote, hc]

/-! ### Atoms -/

/-- A character that is quoted is read as itself. -/
theorem readFrom_quoted (hq : Quotes magic p) {c : Char} (hc : p c = true) (t : Text) :
  readFrom magic 0 ('\\' :: c :: t) = .char c :: readFrom magic 0 t
  := by
  have hescaped : ∀ d ∈ ['(', ')', '|', '<', '>', 't'], c ≠ d := by
    rintro d hd rfl
    rw [hq.escapedOperator c hd] at hc
    contradiction
  have hmagic : ∀ d ∈ ['.', '*', '['], c = d → magic = true := by
    rintro d hd rfl
    rw [← Bool.not_eq_false]
    intro h
    rw [hq.plainOperator h c hd] at hc
    contradiction
  simp only [List.forall_mem_cons] at hescaped hmagic
  obtain ⟨hopen, hclose, hbar, hless, hgreater, htab, -⟩ := hescaped
  obtain ⟨hdot, hstar, hbracket, -⟩ := hmagic
  have hatom : escapedAtom magic c = .char c := by
    unfold escapedAtom
    split <;> simp_all
  have hplain : (decide (c = '[') && !magic) = false := by
    simpa using hbracket
  rw [readFrom, if_neg (by simp [hplain]), hatom]

/-- A character that is not quoted is read as it is read outside brackets. -/
theorem readFrom_plain (hq : Quotes magic p) {c : Char} (hc : p c = false) (t : Text) :
  readFrom magic 0 (c :: t) = plainAtom magic c t :: readFrom magic 0 t
  := by
  have hbackslash : c ≠ '\\' := by
    rintro rfl
    rw [hq.backslash] at hc
    contradiction
  have hbracket : (decide (c = '[') && magic) = false := by
    rw [Bool.and_eq_false_imp, decide_eq_true_eq]
    rintro rfl
    rw [← Bool.not_eq_true]
    intro h
    rw [hq.magicOperator h '[' (by simp)] at hc
    contradiction
  rw [readFrom.eq_def]
  simp [hbackslash, hbracket]

theorem readFrom_caret (t : Text) :
  readFrom magic 0 ('^' :: t) = .caret :: readFrom magic 0 t
  := by
  rw [readFrom.eq_def]
  simp [plainAtom]

/-- A character that is not quoted stands for itself, unless it is a caret at the start of a
branch or a dollar at the end of one. -/
theorem plainAtom_after (hq : Quotes magic p) {c : Char} (hc : p c = false) {t : Text}
    {prev : Option Atom} (hcaret : c = '^' → startsBranch prev = false)
    (hdollar : c = '$' → closesHere t = false) :
  (plainAtom magic c t).after prev = .char c
  := by
  have hmagic : ∀ d ∈ ['.', '*', '['], c = d → magic = false := by
    rintro d hd rfl
    rw [← Bool.not_eq_true]
    intro h
    rw [hq.magicOperator h c hd] at hc
    contradiction
  simp only [List.forall_mem_cons] at hmagic
  obtain ⟨hdot, hstar, -⟩ := hmagic
  unfold plainAtom
  split
  · simp [Atom.after, hcaret rfl]
  · simp [Atom.after, hdollar rfl]
  · simp [Atom.after, hdot rfl]
  · simp [Atom.after, hstar rfl]
  · rfl

/-- No branch ends before a quoted text. -/
theorem closesHere_quote (hq : Quotes magic p) {s t : Text}
    (h : closesHere (quote p s ++ t) = true) :
  s = [] ∧ closesHere t = true
  := by
  cases s with
  | nil => exact ⟨rfl, h⟩
  | cons c s =>
      cases hc : p c with
      | true =>
          rw [quote_cons_of_quoted hc] at h
          have hclose : c = ')' ∨ c = '|' := by
            simpa [closesHere] using h
          have hplain := hq.escapedOperator c (by rcases hclose with rfl | rfl <;> simp)
          rw [hplain] at hc
          contradiction
      | false =>
          have hbackslash : c ≠ '\\' := by
            rintro rfl
            rw [hq.backslash] at hc
            contradiction
          rw [quote_cons_of_plain hc, List.cons_append, closesHere.eq_def] at h
          simp [hbackslash] at h

/-- A quoted text is read as its characters, if it starts with no caret where that is an
operator, and ends with no dollar where that is one. -/
theorem settle_readFrom_quote (hq : Quotes magic p) {s t : Text} {prev : Option Atom}
    {others : List Atom}
    (hcaret : startsBranch prev = true → s.head? = some '^' → p '^' = true)
    (hdollar : closesHere t = true → s.getLast? = some '$' → p '$' = true)
    (hothers : ∀ last, settle last (readFrom magic 0 t) = others) :
  settle prev (readFrom magic 0 (quote p s ++ t)) = s.map .char ++ others
  := by
  induction s generalizing prev with
  | nil => apply hothers
  | cons c s ih =>
      have hrest : settle (some (.char c)) (readFrom magic 0 (quote p s ++ t))
          = s.map .char ++ others := by
        apply ih
        · intro h
          contradiction
        · intro hclose hlast
          apply hdollar hclose
          simp [List.getLast?_cons, hlast]
      cases hc : p c with
      | true =>
          rw [quote_cons_of_quoted hc, List.cons_append, List.cons_append, readFrom_quoted hq hc,
            settle]
          simp only [Atom.after, hrest, List.map_cons, List.cons_append]
      | false =>
          have hafter : (plainAtom magic c (quote p s ++ t)).after prev = .char c := by
            apply plainAtom_after hq hc
            · rintro rfl
              rw [← Bool.not_eq_true]
              intro h
              rw [hcaret h rfl] at hc
              contradiction
            · rintro rfl
              rw [← Bool.not_eq_true]
              intro h
              obtain ⟨rfl, hclose⟩ := closesHere_quote hq h
              rw [hdollar hclose rfl] at hc
              contradiction
          rw [quote_cons_of_plain hc, List.cons_append, readFrom_plain hq hc, settle, hafter,
            hrest]
          rfl

/-- The atoms of a literal pattern. -/
theorem atoms_literal (hq : Quotes magic p) {fromStart toEnd : Bool} {s : Text}
    (hcaret : fromStart = false → s.head? = some '^' → p '^' = true)
    (hdollar : toEnd = false → s.getLast? = some '$' → p '$' = true) :
  atoms magic (literal p fromStart toEnd s)
    = (if fromStart then [.caret] else []) ++ s.map .char
      ++ (if toEnd then [.dollar true] else [])
  := by
  have hbody : ∀ prev, (startsBranch prev = true → s.head? = some '^' → p '^' = true) →
      settle prev (readFrom magic 0 (quote p s ++ (if toEnd then ['$'] else [])))
        = s.map .char ++ (if toEnd then [.dollar true] else []) := by
    intro prev hprev
    apply settle_readFrom_quote hq hprev
    · intro hclose
      cases toEnd with
      | false => apply hdollar rfl
      | true => contradiction
    · intro last
      cases toEnd <;> rfl
  rw [atoms, literal, List.append_assoc, List.append_assoc]
  cases fromStart with
  | false => apply hbody none (fun _ => hcaret rfl)
  | true =>
      rw [if_pos rfl, if_pos rfl, List.singleton_append, readFrom_caret, settle,
        show Atom.after none .caret = .caret from rfl, hbody (some .caret) (fun h => nomatch h)]
      rfl

/-! ### Compilation -/

/-- A literal pattern is written as the escaped characters of its text between its anchors. -/
theorem source_literal (hq : Quotes magic p) {fromStart toEnd : Bool} {s : Text}
    (hcaret : fromStart = false → s.head? = some '^' → p '^' = true)
    (hdollar : toEnd = false → s.getLast? = some '$' → p '$' = true) :
  source magic (literal p fromStart toEnd s)
    = (if fromStart then ['^'] else []) ++ s.flatMap Regex.escape
      ++ (if toEnd then ['$'] else [])
  := by
  have hchars : (s.map Atom.char).flatMap Atom.source = s.flatMap Regex.escape := by
    apply List.flatMap_map
  rw [source, atoms_literal hq hcaret hdollar, List.flatMap_append, List.flatMap_append, hchars]
  cases fromStart <;> cases toEnd <;> rfl

/-- A literal pattern compiles to a literal expression. -/
theorem compile_literal (hq : Quotes magic p) {fromStart toEnd : Bool} {s : Text}
    (hcaret : fromStart = false → s.head? = some '^' → p '^' = true)
    (hdollar : toEnd = false → s.getLast? = some '$' → p '$' = true) (ignoreCase : Bool) :
  compile (literal p fromStart toEnd s) magic ignoreCase
    = .ok ⟨Regex.literal fromStart toEnd s, ignoreCase⟩
  := by
  rw [compile, source_literal hq hcaret hdollar, Regex.parse_literal]

end TagNavigator.Pattern
