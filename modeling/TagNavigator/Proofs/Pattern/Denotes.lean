import TagNavigator.Proofs.Pattern.Brackets
import TagNavigator.Proofs.Regex.Literal
import TagNavigator.Proofs.Regex.Repetition

/-!
# Regular expressions of expressions

`Denotes r e` says that the regular expression `r` matches what the expression `e` matches, in texts
without line feed.  There is one lemma for each way to form an expression.  Repeated word edges are
left out, because a regular expression repeats only the second of the two tests that make up a word
edge.
-/

namespace TagNavigator.Pattern

open Regex (ends sequence)

/-- The regular expression matches what the expression matches, if no word edge is repeated. -/
def Denotes (r : Regex) (e : Expr) : Prop :=
  e.NoStarredEdge → ∀ t : Text, '\n' ∉ t → ∀ i ≤ t.length, ∀ j,
    j ∈ ends false t.toArray r i ↔ e.Matches t i j

namespace Denotes

variable {r : Regex} {rs rs' : List Regex} {a b e : Expr}

theorem wordAt_iff {t : Text} {i : Nat} :
  Regex.wordAt t.toArray i = true ↔ WordAt t i
  := by
  rw [Regex.wordAt, WordAt, List.getElem?_toArray]
  cases t[i]? with
  | none => simp
  | some c => simp

theorem wordBefore_iff {t : Text} {i : Nat} :
  Regex.wordBefore t.toArray i = true ↔ WordBefore t i
  := by
  cases i with
  | zero => simp [Regex.wordBefore, WordBefore]
  | succ i => simp [Regex.wordBefore, WordBefore, wordAt_iff]

theorem empty :
  Denotes (sequence []) .empty
  := by
  intro _ t _ i _ j
  apply Regex.mem_ends_sequence_nil

theorem char (c : Char) :
  Denotes (.char c) (.char c)
  := by
  intro _ t _ i _ j
  rw [Regex.mem_ends_char_iff, List.getElem?_toArray]
  rfl

theorem any :
  Denotes .any .any
  := by
  intro _ t ht i _ j
  have hmem : (∃ c, t[i]? = some c ∧ (c != '\n') = true) ↔ i < t.length := by
    constructor
    · rintro ⟨c, hc, -⟩
      exact (List.getElem?_eq_some_iff.mp hc).1
    · intro hi
      refine ⟨t[i], List.getElem?_eq_getElem hi, ?_⟩
      rw [bne_iff_ne]
      intro hfeed
      apply ht
      rw [← hfeed]
      apply List.getElem_mem hi
  rw [ends, Regex.mem_endsOne, List.getElem?_toArray, hmem]
  rfl

theorem set (b : Bracket) :
  Denotes (Regex.ofSet b.charSet) (.set b)
  := by
  intro _ t _ i _ j
  apply mem_ends_charSet

theorem lineStart :
  Denotes .textStart .lineStart
  := by
  intro _ t _ i _ j
  rw [ends, Regex.mem_endsHere, beq_iff_eq]
  rfl

theorem lineEnd :
  Denotes .textEnd .lineEnd
  := by
  intro _ t ht i _ j
  rw [ends, Regex.mem_endsHere, Regex.atEnd_iff ht]
  rfl

theorem wordStart :
  Denotes (sequence [.boundary, .wordAhead]) .wordStart
  := by
  intro _ t _ i _ j
  change _ ↔ (WordAt t i ∧ ¬ WordBefore t i) ∧ j = i
  simp only [Regex.mem_ends_sequence_cons, Regex.mem_ends_sequence_nil, ends, Regex.mem_endsHere,
    ← wordAt_iff, ← wordBefore_iff]
  constructor
  · rintro ⟨_, ⟨hboundary, rfl⟩, _, ⟨hahead, rfl⟩, rfl⟩
    exact ⟨⟨hahead, by simpa [hahead] using hboundary⟩, rfl⟩
  · rintro ⟨⟨hahead, hbefore⟩, rfl⟩
    exact ⟨_, ⟨by simp [hahead, hbefore], rfl⟩, _, ⟨hahead, rfl⟩, rfl⟩

theorem wordEnd :
  Denotes (sequence [.boundary, .wordBehind]) .wordEnd
  := by
  intro _ t _ i _ j
  change _ ↔ (WordBefore t i ∧ ¬ WordAt t i) ∧ j = i
  simp only [Regex.mem_ends_sequence_cons, Regex.mem_ends_sequence_nil, ends, Regex.mem_endsHere,
    ← wordAt_iff, ← wordBefore_iff]
  constructor
  · rintro ⟨_, ⟨hboundary, rfl⟩, _, ⟨hbehind, rfl⟩, rfl⟩
    exact ⟨⟨hbehind, by simpa [hbehind] using hboundary⟩, rfl⟩
  · rintro ⟨⟨hbehind, hahead⟩, rfl⟩
    exact ⟨_, ⟨by simp [hbehind, hahead], rfl⟩, _, ⟨hbehind, rfl⟩, rfl⟩

/-- Regular expressions one after the other match what the expressions one after the other match. -/
theorem append (ha : Denotes (sequence rs) a) (hb : Denotes (sequence rs') b) :
  Denotes (sequence (rs ++ rs')) (.seq a b)
  := by
  intro hedge t ht i hi j
  rw [Regex.mem_ends_sequence_append]
  constructor
  · rintro ⟨k, hk, hj⟩
    have hbound := (Regex.bounds_of_mem_ends hi hk).2
    exact ⟨k, (ha hedge.1 t ht i hi k).mp hk, (hb hedge.2 t ht k hbound j).mp hj⟩
  · rintro ⟨k, hk, hj⟩
    have hmem := (ha hedge.1 t ht i hi k).mpr hk
    have hbound := (Regex.bounds_of_mem_ends hi hmem).2
    exact ⟨k, hmem, (hb hedge.2 t ht k hbound j).mpr hj⟩

/-- A repeated regular expression matches what the repeated expression matches. -/
theorem star (h : Denotes r a) :
  Denotes (.star r) (.star a)
  := by
  rintro ⟨-, hedge⟩ t ht i hi j
  rw [Regex.mem_ends_star hi]
  constructor
  -- Every link of the chain starts within the text, where `r` matches what `a` matches.
  · intro hchain
    have hgeneral : j ≤ t.length ∧ Relation.ReflTransGen (a.Matches t) i j := by
      induction hchain with
      | refl => exact ⟨hi, Relation.ReflTransGen.refl⟩
      | tail _ hlast ih =>
          obtain ⟨hbound, hmatches⟩ := ih
          exact ⟨(Regex.bounds_of_mem_ends hbound hlast).2,
            hmatches.tail ((h hedge t ht _ hbound _).mp hlast)⟩
    exact hgeneral.2
  · intro hchain
    have hgeneral : j ≤ t.length
        ∧ Relation.ReflTransGen (fun k l => l ∈ ends false t.toArray r k) i j := by
      induction hchain with
      | refl => exact ⟨hi, Relation.ReflTransGen.refl⟩
      | tail _ hlast ih =>
          obtain ⟨hbound, hmem⟩ := ih
          have hnext := (h hedge t ht _ hbound _).mpr hlast
          exact ⟨(Regex.bounds_of_mem_ends hbound hnext).2, hmem.tail hnext⟩
    exact hgeneral.2

/-- A group whose last branch is `rs` and has no other denotes what the branch denotes. -/
theorem last (h : Denotes (sequence rs) e) :
  Denotes (Regex.Frame.finish ⟨[], rs.reverse⟩) e
  := by
  simpa [Regex.Frame.finish] using h

/-- A group with one more branch in front matches also what that branch matches. -/
theorem more {branches : List (List Regex)} {items : List Regex} (ha : Denotes (sequence rs) a)
    (hb : Denotes (Regex.Frame.finish ⟨branches, items⟩) b) :
  Denotes (Regex.Frame.finish ⟨branches ++ [rs], items⟩) (.alt a b)
  := by
  intro hedge t ht i hi j
  change _ ↔ a.Matches t i j ∨ b.Matches t i j
  rw [← ha hedge.1 t ht i hi j, ← hb hedge.2 t ht i hi j, Regex.mem_ends_finish,
    Regex.mem_ends_finish]
  simp only [List.mem_append, List.mem_singleton, or_and_right, exists_or, exists_eq_left]
  rw [or_assoc, or_left_comm]

end Denotes

end TagNavigator.Pattern
