import TagNavigator.Proofs.Pattern.Brackets
import TagNavigator.Proofs.Regex.Literal

/-!
# The tokens of a pattern

The regular expression that a pattern is written as is read back atom by atom.  It has tokens unless
a range in brackets is reversed, and they are the tokens of the atoms one after the other
(`tokenize_source_iff`).
-/

namespace TagNavigator.Pattern

/-- The tokens of the regular expression of an atom. -/
def Atom.tokens : Atom → List Regex.Token
  | .char c => [.char c]
  | .any => [.any]
  | .star => [.star]
  | .set b => [.set b.charSet]
  | .groupOpen => [.groupOpen]
  | .groupClose => [.groupClose]
  | .bar => [.bar]
  | .wordStart => [.boundary, .wordAhead]
  | .wordEnd => [.boundary, .wordBehind]
  | .tab => [.char '\t']
  | .caret => [.textStart]
  | .dollar _ => [.textEnd]

/-! ### Brackets -/

/-- A character between brackets that carries a backslash is neither a letter nor a digit. -/
theorem isAlphanum_of_escaped {a : BracketChar} (h : a.unit.escaped = true) :
  a.char.isAlphanum = false
  := by
  have hspecial : Regex.specialChars.all (fun d => !d.isAlphanum) = true := by decide
  have hmem : a.char ∈ Regex.specialChars := by
    simp only [BracketChar.unit] at h
    split at h
    · apply List.contains_iff_mem.mp h
    · rw [of_decide_eq_true h]
      decide
  simpa using List.all_eq_true.mp hspecial _ hmem

theorem ne_of_not_escaped {a : BracketChar} (h : a.unit.escaped = false)
    (hbare : a.quoted = false → a.char ≠ ']' ∧ a.char ≠ '\\') :
  a.char ≠ ']' ∧ a.char ≠ '\\'
  := by
  cases hq : a.quoted with
  | false => exact hbare hq
  | true =>
      rw [BracketChar.unit, hq, if_pos rfl] at h
      constructor
      · intro hc
        rw [hc] at h
        apply absurd h (by decide)
      · intro hc
        rw [hc] at h
        apply absurd h (by decide)

/-- A character between brackets is read as it was written. -/
theorem tokenizeFrom_bracketChar {a : BracketChar} {negated : Bool} {units : List Regex.SetUnit}
    (hbare : a.quoted = false → a.char ≠ ']' ∧ a.char ≠ '\\') (t : Text) :
  Regex.tokenizeFrom (.inside negated units) (a.source ++ t)
    = Regex.tokenizeFrom (.inside negated (a.unit :: units)) t
  := by
  have hunit : a.unit = ⟨a.unit.escaped, a.char⟩ := rfl
  rw [a.source_eq]
  cases he : a.unit.escaped with
  | false =>
      obtain ⟨hclose, hquote⟩ := ne_of_not_escaped he hbare
      rw [if_neg (by simp), List.singleton_append, Regex.tokenizeFrom.eq_def, hunit, he]
      simp [hclose, hquote]
  | true =>
      rw [if_pos rfl, List.cons_append, List.singleton_append, Regex.tokenizeFrom,
        isAlphanum_of_escaped he, hunit, he]
      rfl

/-- Characters between brackets are read up to the closing bracket. -/
theorem tokenizeFrom_bracketChars {cs : List BracketChar} {negated : Bool}
    {units : List Regex.SetUnit} (hbare : ∀ a ∈ cs, a.quoted = false → a.char ≠ ']' ∧ a.char ≠ '\\')
    (hnonempty : cs ≠ [] ∨ units ≠ []) (t : Text) :
  Regex.tokenizeFrom (.inside negated units) (cs.flatMap BracketChar.source ++ ']' :: t)
    = (do
        let items ← Regex.setItems (units.reverse ++ cs.map BracketChar.unit)
        let rest ← Regex.tokenizeFrom .outside t
        pure (.set ⟨negated, items.eraseDups⟩ :: rest))
  := by
  induction cs generalizing units with
  | nil =>
      have hunits : units.isEmpty = false := by simpa using hnonempty
      rw [List.flatMap_nil, List.nil_append, Regex.tokenizeFrom.eq_def]
      simp [hunits]
  | cons a cs ih =>
      obtain ⟨ha, hcs⟩ := List.forall_mem_cons.mp hbare
      rw [List.flatMap_cons, List.append_assoc, tokenizeFrom_bracketChar ha, ih hcs (by simp),
        List.reverse_cons, List.append_assoc]
      rfl

theorem Bracket.source_eq (b : Bracket) :
  b.source = '[' :: (if b.negated then ['^'] else []) ++ b.listed.flatMap BracketChar.source ++ [']']
  := by
  have hclosing : BracketChar.source ⟨true, ']'⟩ = ['\\', ']'] := by decide
  rw [source, listed]
  cases b.startsWithClosing <;> simp [hclosing]

/-- Only a caret without backslash is written as a caret. -/
theorem BracketChar.eq_caret_of_source {a : BracketChar} {u : Text} (h : a.source = '^' :: u) :
  a = ⟨false, '^'⟩
  := by
  obtain ⟨quoted, c⟩ := a
  rw [source_eq] at h
  split at h
  · simp at h
  next he =>
    obtain ⟨rfl, -⟩ := List.cons.inj h
    cases quoted with
    | false => rfl
    | true => exact absurd rfl he

theorem ne_caret_of_listed {cs : List BracketChar} (hcaret : cs.head? ≠ some ⟨false, '^'⟩)
    (t u : Text) :
  cs.flatMap BracketChar.source ++ ']' :: t ≠ '^' :: u
  := by
  intro h
  cases cs with
  | nil => simp at h
  | cons a cs =>
      obtain ⟨c, s, hs⟩ : ∃ c s, a.source = c :: s := by
        rw [a.source_eq]
        split <;> simp
      rw [List.flatMap_cons, List.append_assoc, hs, List.cons_append] at h
      obtain ⟨rfl, -⟩ := List.cons.inj h
      apply hcaret
      rw [BracketChar.eq_caret_of_source hs, List.head?_cons]

/-- Brackets are read as the set that they compile to, unless a range in them is reversed. -/
theorem tokenizeFrom_bracket_iff {b : Bracket} (hb : b.Proper) {t : Text}
    {toks : List Regex.Token} :
  Regex.tokenizeFrom .outside (b.source ++ t) = .ok toks
    ↔ ¬ b.Reversed
      ∧ ∃ rest, Regex.tokenizeFrom .outside t = .ok rest ∧ toks = .set b.charSet :: rest
  := by
  have hinside : Regex.tokenizeFrom .outside (b.source ++ t)
      = Regex.tokenizeFrom (.inside b.negated [])
        (b.listed.flatMap BracketChar.source ++ ']' :: t) := by
    rw [b.source_eq]
    cases hn : b.negated with
    | false =>
        simp only [Bool.false_eq_true, if_false, List.cons_append, List.nil_append,
          List.append_assoc]
        rw [Regex.tokenizeFrom]
        apply ne_caret_of_listed (hb.caret hn) t
    | true => simp [Regex.tokenizeFrom]
  rw [hinside, tokenizeFrom_bracketChars hb.bare (Or.inl hb.nonempty), List.reverse_nil,
    List.nil_append, b.not_reversed_iff]
  simp only [bind_eq_ok_iff, setItems_eq_ok_iff]
  constructor
  · rintro ⟨_, ⟨hranges, rfl⟩, rest, hrest, h⟩
    exact ⟨hranges, rest, hrest, (Except.ok.inj h).symm⟩
  · rintro ⟨hranges, rest, hrest, rfl⟩
    exact ⟨_, ⟨hranges, rfl⟩, rest, hrest, rfl⟩

/-! ### Atoms -/

theorem Bracket.head?_source (b : Bracket) :
  b.source.head? = some '['
  := by
  rw [b.source_eq]
  rfl

theorem Atom.source_char (c : Char) :
  (Atom.char c).source = Regex.escape c
  := rfl

theorem Atom.source_set (b : Bracket) :
  (Atom.set b).source = b.source
  := rfl

/-- No atom is written with a question mark at its start. -/
theorem Atom.head?_source (a : Atom) :
  ∃ c, a.source.head? = some c ∧ c ≠ '?'
  := by
  cases a with
  | char c =>
      rw [source_char, Regex.escape]
      split
      · exact ⟨'\\', rfl, by decide⟩
      next hc =>
        refine ⟨c, rfl, ?_⟩
        rintro rfl
        apply hc (by decide)
  | set b =>
      rw [source_set]
      exact ⟨'[', b.head?_source, by decide⟩
  | _ => exact ⟨_, rfl, by decide⟩

theorem head?_flatMap_source (as : List Atom) :
  (as.flatMap Atom.source).head? ≠ some '?'
  := by
  cases as with
  | nil => simp
  | cons a as =>
      obtain ⟨c, hc, hne⟩ := a.head?_source
      rw [List.flatMap_cons, List.head?_append, hc]
      simpa using hne

/-- A character with a token of its own is read as that token. -/
theorem tokenizeFrom_plain {c : Char} {token : Regex.Token} (hc : c ∉ ['\\', '[', '('])
    (htoken : Regex.plainToken c = .ok token) (t : Text) :
  Regex.tokenizeFrom .outside (c :: t) = (token :: ·) <$> Regex.tokenizeFrom .outside t
  := by
  simp only [List.mem_cons, List.not_mem_nil, or_false, not_or] at hc
  obtain ⟨hquote, hbracket, hparen⟩ := hc
  rw [Regex.tokenizeFrom_outside_cons hquote hbracket hparen, htoken]
  cases Regex.tokenizeFrom .outside t <;> rfl

theorem tokenizeFrom_groupOpen {t : Text} (ht : t.head? ≠ some '?') :
  Regex.tokenizeFrom .outside ('(' :: t) = (.groupOpen :: ·) <$> Regex.tokenizeFrom .outside t
  := by
  rw [Regex.tokenizeFrom]
  · rw [if_neg ht]
  · rintro u rfl
    simp at ht
  · rintro u rfl
    simp at ht

theorem tokenizeFrom_wordStart (t : Text) :
  Regex.tokenizeFrom .outside (Atom.source .wordStart ++ t)
    = ([.boundary, .wordAhead] ++ ·) <$> Regex.tokenizeFrom .outside t
  := by
  have hsource : Atom.source .wordStart ++ t
      = '\\' :: 'b' :: '(' :: '?' :: '=' :: '\\' :: 'w' :: ')' :: t := rfl
  have hboundary : Regex.escapedToken 'b' = .ok .boundary := by decide
  rw [hsource, Regex.tokenizeFrom, Regex.tokenizeFrom, hboundary]
  cases Regex.tokenizeFrom .outside t <;> rfl

theorem tokenizeFrom_wordEnd (t : Text) :
  Regex.tokenizeFrom .outside (Atom.source .wordEnd ++ t)
    = ([.boundary, .wordBehind] ++ ·) <$> Regex.tokenizeFrom .outside t
  := by
  have hsource : Atom.source .wordEnd ++ t
      = '\\' :: 'b' :: '(' :: '?' :: '<' :: '=' :: '\\' :: 'w' :: ')' :: t := rfl
  have hboundary : Regex.escapedToken 'b' = .ok .boundary := by decide
  rw [hsource, Regex.tokenizeFrom, Regex.tokenizeFrom, hboundary]
  cases Regex.tokenizeFrom .outside t <;> rfl

/-- An atom other than brackets is read as its tokens. -/
theorem tokenizeFrom_atom {a : Atom} (ha : ∀ b, a ≠ .set b) {t : Text} (ht : t.head? ≠ some '?') :
  Regex.tokenizeFrom .outside (a.source ++ t) = (a.tokens ++ ·) <$> Regex.tokenizeFrom .outside t
  := by
  cases a with
  | char c => apply Regex.tokenizeFrom_escape
  | set b => apply absurd rfl (ha b)
  | groupOpen => apply tokenizeFrom_groupOpen ht
  | wordStart => apply tokenizeFrom_wordStart
  | wordEnd => apply tokenizeFrom_wordEnd
  | _ => exact tokenizeFrom_plain (by decide) rfl t

/-- An atom is read as its tokens, unless it is brackets with a reversed range. -/
theorem tokenizeFrom_atom_iff {a : Atom} (ha : ∀ b, a = .set b → b.Proper) {t : Text}
    (ht : t.head? ≠ some '?') {toks : List Regex.Token} :
  Regex.tokenizeFrom .outside (a.source ++ t) = .ok toks
    ↔ (∀ b, a = .set b → ¬ b.Reversed)
      ∧ ∃ rest, Regex.tokenizeFrom .outside t = .ok rest ∧ toks = a.tokens ++ rest
  := by
  by_cases hset : ∃ b, a = .set b
  · obtain ⟨b, rfl⟩ := hset
    rw [Atom.source_set, tokenizeFrom_bracket_iff (ha b rfl)]
    simp [Atom.tokens]
  · rw [not_exists] at hset
    rw [tokenizeFrom_atom hset ht, map_eq_ok_iff]
    simp [hset, eq_comm]

/-- The regular expression of atoms is read as the tokens of the atoms, unless one of them is
brackets with a reversed range. -/
theorem tokenizeFrom_atoms_iff {as : List Atom} (has : ∀ b, .set b ∈ as → b.Proper)
    {toks : List Regex.Token} :
  Regex.tokenizeFrom .outside (as.flatMap Atom.source) = .ok toks
    ↔ (∀ b, .set b ∈ as → ¬ b.Reversed) ∧ toks = as.flatMap Atom.tokens
  := by
  induction as generalizing toks with
  | nil => simp [Regex.tokenizeFrom, eq_comm]
  | cons a as ih =>
      have ha : ∀ b, a = .set b → b.Proper := by
        rintro b rfl
        apply has b List.mem_cons_self
      have hrest {toks} := @ih (fun b hb => has b (List.mem_cons_of_mem a hb)) toks
      rw [List.flatMap_cons, List.flatMap_cons, tokenizeFrom_atom_iff ha (head?_flatMap_source as)]
      simp only [hrest, List.mem_cons, or_imp, forall_and, eq_comm (a := a)]
      constructor
      · rintro ⟨hfirst, _, ⟨hothers, rfl⟩, rfl⟩
        exact ⟨⟨hfirst, hothers⟩, rfl⟩
      · rintro ⟨⟨hfirst, hothers⟩, rfl⟩
        exact ⟨hfirst, _, ⟨hothers, rfl⟩, rfl⟩

theorem escapedAtom_ne_set {magic : Bool} (c : Char) (b : Bracket) :
  escapedAtom magic c ≠ .set b
  := by
  unfold escapedAtom
  split <;> (try split) <;> simp

theorem plainAtom_ne_set {magic : Bool} (c : Char) (t : Text) (b : Bracket) :
  plainAtom magic c t ≠ .set b
  := by
  unfold plainAtom
  split <;> (try split) <;> simp

theorem eq_set_of_after {prev : Option Atom} {a : Atom} {b : Bracket}
    (h : a.after prev = .set b) :
  a = .set b
  := by
  unfold Atom.after at h
  split at h
  · split at h <;> contradiction
  · split at h <;> contradiction
  · split at h <;> contradiction
  · exact h

theorem proper_of_mem_readFrom {magic : Bool} {n : Nat} {t : Text} {b : Bracket}
    (h : .set b ∈ readFrom magic n t) :
  b.Proper
  := by
  fun_induction readFrom magic n t with
  | case1 => contradiction
  | case2 n c t ih => exact ih h
  | case3 c t hc b' n hb ih =>
      rcases List.mem_cons.mp h with heq | h
      · obtain rfl := Atom.set.inj heq
        exact (written_of_bracket? hb).proper
      · apply ih h
  | case4 c t hc hb ih =>
      apply ih
      apply List.mem_of_ne_of_mem ?_ h
      nofun
  | case5 c t hc ih =>
      apply ih
      apply List.mem_of_ne_of_mem (escapedAtom_ne_set c b).symm h
  | case6 c t hquote hc b' n hb ih =>
      rcases List.mem_cons.mp h with heq | h
      · obtain rfl := Atom.set.inj heq
        exact (written_of_bracket? hb).proper
      · apply ih h
  | case7 c t hquote hc hb ih =>
      apply ih
      apply List.mem_of_ne_of_mem ?_ h
      nofun
  | case8 c t hquote hc ih =>
      apply ih
      apply List.mem_of_ne_of_mem (plainAtom_ne_set c t b).symm h

/-- Only a set is meant as a set, wherever it stands. -/
theorem set_mem_of_settle {prev : Option Atom} {as : List Atom} {b : Bracket}
    (h : .set b ∈ settle prev as) :
  .set b ∈ as
  := by
  induction as generalizing prev with
  | nil => contradiction
  | cons a as ih =>
      rcases List.mem_cons.mp h with heq | h
      · obtain rfl := eq_set_of_after heq.symm
        apply List.mem_cons_self
      · apply List.mem_cons_of_mem a (ih h)

/-- The regular expression of a pattern has tokens unless a range in brackets is reversed, and they
are those of the atoms. -/
theorem tokenize_source_iff {magic : Bool} {p : Text} {toks : List Regex.Token} :
  Regex.tokenize (source magic p) = .ok toks
    ↔ (∀ b, .set b ∈ atoms magic p → ¬ b.Reversed) ∧ toks = (atoms magic p).flatMap Atom.tokens
  := by
  apply tokenizeFrom_atoms_iff
  intro b hb
  apply proper_of_mem_readFrom (set_mem_of_settle hb)

end TagNavigator.Pattern
