import TagNavigator.Proofs.Pattern.Literal
import TagNavigator.Proofs.Pattern.Tokens
import TagNavigator.Proofs.Regex.Repetition
import TagNavigator.Proofs.Search.Whole
import TagNavigator.Tag.Command

/-!
# Patterns that guess the place of a tag

If the pattern of a record is out of date, two patterns made of the name of the tag are tried.  Both
compile in either spelling, whatever characters the name has.  The first one selects the lines that
start with the name and a parenthesis (`selects_call`), the second one those that start like a
declaration and have them later (`selects_declaration`).
-/

namespace TagNavigator

open Regex (ends sequence)

/-- The name with the parenthesis that opens its parameters. -/
def TagCommand.call (name : Text) : Text := name ++ ['(']

/-- The line starts with the name and a parenthesis. -/
def TagCommand.StartsWithCall (name line : Text) : Prop := call name <+: line

/-- The characters that a declaration starts with. -/
def TagCommand.StartsDeclaration (c : Char) : Prop :=
  c = '#' ∨ c = '_' ∨ c.isAlpha = true

/-- The line starts like a declaration, and has the name and a parenthesis after its first
character. -/
def TagCommand.DeclaresCall (name line : Text) : Prop :=
  ∃ c rest, line = c :: rest ∧ StartsDeclaration c ∧ call name <:+: rest

/-! ### Matches -/

namespace Regex

variable {t : Text} {ignoreCase : Bool}

/-- Any number of characters reach every place that follows in a line. -/
theorem mem_ends_star_any (ht : '\n' ∉ t) {i j : Nat} (hi : i ≤ t.length) :
  j ∈ ends ignoreCase t.toArray (.star .any) i ↔ i ≤ j ∧ j ≤ t.length
  := by
  constructor
  · intro hj
    apply bounds_of_mem_ends (t := t.toArray) hi hj
  · rintro ⟨hij, hj⟩
    rw [mem_ends_star (t := t.toArray) hi]
    induction j, hij using Nat.le_induction with
    | base => exact Relation.ReflTransGen.refl
    | succ j hij ih =>
        apply Relation.ReflTransGen.tail (ih (by omega))
        have hne : t[j] ≠ '\n' := by
          intro heq
          apply ht
          rw [← heq]
          apply List.getElem_mem
        apply mem_endsOne.mpr
        exact ⟨⟨t[j], by simp, by simpa using hne⟩, rfl⟩

theorem exists_take_drop_iff {s u : Text} :
  (∃ k ≤ u.length, (u.drop k).take s.length = s) ↔ s <:+: u
  := by
  rw [List.infix_iff_prefix_suffix]
  constructor
  · rintro ⟨k, -, hk⟩
    exact ⟨u.drop k, List.prefix_iff_eq_take.mpr hk.symm, List.drop_suffix k u⟩
  · rintro ⟨v, hv, hsuffix⟩
    refine ⟨u.length - v.length, Nat.sub_le _ _, ?_⟩
    rw [← List.suffix_iff_eq_drop.mp hsuffix]
    exact (List.prefix_iff_eq_take.mp hv).symm

end Regex

namespace TagCommand

variable {name line : Text} {magic : Bool}

/-! ### The first guess -/

/-- The characters that carry a backslash in a fallback. -/
def isOperator (magic : Bool) (c : Char) : Bool :=
  c = '\\' || (magic && (c = '.' || c = '*' || c = '['))

theorem quotes_isOperator (magic : Bool) :
  Pattern.Quotes magic (isOperator magic)
  := by
  cases magic
  all_goals constructor <;> simp [isOperator]

theorem escapeLiteral_eq (magic : Bool) (name : Text) :
  escapeLiteral magic name ++ ['('] = Pattern.quote (isOperator magic) (call name)
  := by
  have hparen : isOperator magic '(' = false := by
    cases magic <;> rfl
  rw [call, Pattern.quote, List.flatMap_append, List.flatMap_singleton, hparen]
  rfl

theorem getLast?_call_ne (name : Text) :
  (call name).getLast? ≠ some '$'
  := by
  simp [call]

theorem compile_fallbacks_fst (magic : Bool) (name : Text) (ignoreCase : Bool) :
  Pattern.compile (fallbacks magic name).1 magic ignoreCase
    = .ok ⟨Regex.literal true false (call name), ignoreCase⟩
  := by
  have hfirst : (fallbacks magic name).1 = '^' :: (escapeLiteral magic name ++ ['(']) := rfl
  have hliteral : '^' :: Pattern.quote (isOperator magic) (call name)
      = Pattern.literal (isOperator magic) true false (call name) := by
    simp [Pattern.literal]
  rw [hfirst, escapeLiteral_eq, hliteral]
  apply Pattern.compile_literal (quotes_isOperator magic)
  · intro h
    cases h
  · intro _ hlast
    apply absurd hlast (getLast?_call_ne name)

theorem not_startsWithCall_nil :
  ¬ StartsWithCall name []
  := by
  simp [StartsWithCall, call]

theorem selects_call (hline : '\n' ∉ line) :
  Search.Selects ⟨Regex.literal true false (call name), false⟩ (StartsWithCall name) line
  := by
  intro i hi
  rw [Matcher.matchesAt_literal hline hi, StartsWithCall, List.prefix_iff_eq_take]
  constructor
  · rintro ⟨-, htake, hstart, -⟩
    obtain rfl := hstart rfl
    exact ⟨rfl, htake.symm⟩
  · rintro ⟨rfl, htake⟩
    exact ⟨hi, htake.symm, fun _ => rfl, nofun⟩

/-! ### The second guess -/

/-- The set of the characters that a declaration starts with. -/
def declarationStart : CharSet :=
  ⟨false, [.single '#', .range 'A' 'Z', .range 'a' 'z', .single '_']⟩

theorem admits_declarationStart (c : Char) :
  declarationStart.admits false c = true ↔ StartsDeclaration c
  := by
  have hupper : c.isUpper = true ↔ 'A' ≤ c ∧ c ≤ 'Z' := decide_eq_true_iff
  have hlower : c.isLower = true ↔ 'a' ≤ c ∧ c ≤ 'z' :=
    Bool.and_eq_true_iff.trans (and_congr decide_eq_true_iff decide_eq_true_iff)
  have halpha : c.isAlpha = true ↔ ('A' ≤ c ∧ c ≤ 'Z') ∨ ('a' ≤ c ∧ c ≤ 'z') :=
    Bool.or_eq_true_iff.trans (or_congr hupper hlower)
  have hadmits : declarationStart.admits false c = true
      ↔ '#' = c ∨ ('A' ≤ c ∧ c ≤ 'Z') ∨ ('a' ≤ c ∧ c ≤ 'z') ∨ '_' = c := by
    simp [declarationStart, CharSet.admits, CharSet.holds, SetItem.admits]
  rw [hadmits, StartsDeclaration, halpha]
  simp only [eq_comm (a := c), or_comm, or_left_comm]

/-- The expression for a line that starts like a declaration and has the text later. -/
def declaration (s : Text) : Regex :=
  sequence ([.textStart, .set declarationStart, .star .any] ++ s.map .char)

/-- The brackets around the characters that a declaration starts with. -/
def declarationBracket : Pattern.Bracket :=
  ⟨false, false, "#A-Za-z_".toList.map (⟨false, ·⟩)⟩

theorem atoms_fallbacks_snd (magic : Bool) (name : Text) :
  Pattern.atoms magic (fallbacks magic name).2
    = [.caret, .set declarationBracket, .any, .star] ++ (call name).map .char
  := by
  have hquote : Pattern.settle (some .star)
      (Pattern.readFrom magic 0 (Pattern.quote (isOperator magic) (call name) ++ []))
      = (call name).map .char ++ [] := by
    apply Pattern.settle_readFrom_quote (quotes_isOperator magic)
    · nofun
    · intro _ hlast
      apply absurd hlast (getLast?_call_ne name)
    · exact fun _ => rfl
  rw [List.append_nil, List.append_nil] at hquote
  rw [← hquote, fallbacks, escapeLiteral_eq]
  cases magic <;> rfl

theorem not_reversed_declarationBracket :
  ¬ declarationBracket.Reversed
  := by
  unfold Pattern.Bracket.Reversed
  decide

theorem compile_fallbacks_snd (magic : Bool) (name : Text) (ignoreCase : Bool) :
  Pattern.compile (fallbacks magic name).2 magic ignoreCase
    = .ok ⟨declaration (call name), ignoreCase⟩
  := by
  have hset : declarationBracket.charSet = declarationStart := by decide
  have htokens : Regex.tokenize (Pattern.source magic (fallbacks magic name).2)
      = .ok ([.textStart, .set declarationStart, .any, .star] ++ (call name).map .char) := by
    rw [Pattern.tokenize_source_iff, atoms_fallbacks_snd]
    constructor
    · intro b hb
      obtain rfl : b = declarationBracket := by simpa using hb
      exact not_reversed_declarationBracket
    · rw [List.flatMap_append, List.flatMap_map]
      simp [Pattern.Atom.tokens, hset, List.map_eq_flatMap]
  have hrun : Regex.Reading.start.run
      ([.textStart, .set declarationStart, .any, .star] ++ (call name).map .char)
      = Regex.Reading.run ⟨⟨[], [.star .any, .set declarationStart, .textStart]⟩, []⟩
        ((call name).map .char) := rfl
  have hitems : ((call name).map Regex.Token.char).map Regex.Token.item?
      = ((call name).map Regex.char).map some := by
    simp [Regex.Token.item?, Function.comp_def]
  have hfinish : Regex.ofTokens
      ([.textStart, .set declarationStart, .any, .star] ++ (call name).map .char)
      = .ok (declaration (call name)) := by
    rw [Regex.ofTokens, hrun, Regex.Reading.run_of_items hitems]
    simp [Regex.Reading.finish, Regex.Frame.finish, declaration, bind, Except.bind]
  rw [Pattern.compile, Regex.parse, htokens]
  simp only [bind, Except.bind, hfinish]

/-- After the first character of a declaration a match goes on at any place that follows. -/
theorem mem_ends_declarationStart (hline : '\n' ∉ line) {i k : Nat} :
  k ∈ ends false line.toArray (sequence [.textStart, .set declarationStart, .star .any]) i
    ↔ i = 0 ∧ ∃ c rest, line = c :: rest ∧ StartsDeclaration c ∧ 1 ≤ k ∧ k ≤ line.length
  := by
  simp only [Regex.mem_ends_sequence_cons, Regex.mem_ends_sequence_nil]
  constructor
  · rintro ⟨_, hstart, _, hset, _, hany, rfl⟩
    obtain ⟨hzero, hhere⟩ := Regex.mem_endsHere.mp hstart
    obtain rfl : i = 0 := by simpa using hzero
    subst hhere
    obtain ⟨⟨c, hc, hadmits⟩, rfl⟩ := Regex.mem_endsOne.mp hset
    obtain ⟨rest, rfl⟩ : ∃ rest, line = c :: rest := by
      apply List.head?_eq_some_iff.mp
      simpa [List.head?_eq_getElem?] using hc
    have hbounds := (Regex.mem_ends_star_any hline (by simp)).mp hany
    exact ⟨rfl, c, rest, rfl, (admits_declarationStart c).mp hadmits, hbounds⟩
  · rintro ⟨rfl, c, rest, rfl, hc, hbounds⟩
    refine ⟨0, Regex.mem_endsHere.mpr ⟨rfl, rfl⟩, 1, ?_, k, ?_, rfl⟩
    · exact Regex.mem_endsOne.mpr ⟨⟨c, by simp, (admits_declarationStart c).mpr hc⟩, rfl⟩
    · exact (Regex.mem_ends_star_any hline (by simp)).mpr hbounds

theorem not_declaresCall_nil :
  ¬ DeclaresCall name []
  := by
  simp [DeclaresCall]

theorem selects_declaration (hline : '\n' ∉ line) :
  Search.Selects ⟨declaration (call name), false⟩ (DeclaresCall name) line
  := by
  intro i hi
  simp only [Matcher.matchesAt_iff, declaration, Regex.mem_ends_sequence_append,
    Regex.mem_ends_chars, mem_ends_declarationStart hline]
  constructor
  · rintro ⟨_, k, ⟨rfl, c, rest, rfl, hc, hlower, hupper⟩, htake, -⟩
    obtain ⟨k, rfl⟩ := Nat.exists_eq_add_of_le' hlower
    refine ⟨rfl, c, rest, rfl, hc, ?_⟩
    exact Regex.exists_take_drop_iff.mp ⟨k, Nat.le_of_succ_le_succ hupper, htake⟩
  · rintro ⟨rfl, c, rest, rfl, hc, hinfix⟩
    obtain ⟨k, hk, htake⟩ := Regex.exists_take_drop_iff.mpr hinfix
    exact ⟨_, k + 1, ⟨rfl, c, rest, rfl, hc, Nat.le_add_left 1 k, Nat.succ_le_succ hk⟩, htake, rfl⟩

end TagCommand

end TagNavigator
