import TagNavigator.Regex.Match
import TagNavigator.Regex.Parser
import Mathlib.Order.Bounds.Basic

/-!
# The ends of matches as a relation

`ends` lists the places where a match can end.  Its members are described expression by
expression: a match of a sequence ends where a match of its last part ends that starts where a
match of the parts before ends.  A matcher finds a place in a text exactly when the place is
the least one where a match starts (`Matcher.first_eq_some_iff`), and it finds none exactly
when a match starts nowhere (`Matcher.first_eq_none_iff`).
-/

namespace TagNavigator

namespace Regex

theorem mem_insertPlace {i j : Nat} {l : List Nat} :
  j ∈ insertPlace i l ↔ j = i ∨ j ∈ l
  := by
  induction l with
  | nil => simp [insertPlace]
  | cons k l ih =>
      simp only [insertPlace]
      split
      · simp
      · split
        · subst k
          simp
        · simp only [List.mem_cons, ih]
          tauto

theorem mem_unionPlaces {j : Nat} {l₁ l₂ : List Nat} :
  j ∈ unionPlaces l₁ l₂ ↔ j ∈ l₁ ∨ j ∈ l₂
  := by
  induction l₁ with
  | nil => simp [unionPlaces]
  | cons i l₁ ih =>
      have hunion : unionPlaces (i :: l₁) l₂ = insertPlace i (unionPlaces l₁ l₂) := rfl
      rw [hunion, mem_insertPlace, ih, List.mem_cons, or_assoc]

/-- A match of one character ends after it. -/
theorem mem_endsOne {t : Array Char} {p : Char → Bool} {i j : Nat} :
  j ∈ endsOne t p i ↔ (∃ c, t[i]? = some c ∧ p c = true) ∧ j = i + 1
  := by
  simp only [endsOne]
  cases t[i]? with
  | none => simp
  | some c =>
      cases h : p c with
      | false => simp [h]
      | true => simp [h]

/-- An empty match ends where it starts. -/
theorem mem_endsHere {p : Bool} {i j : Nat} :
  j ∈ endsHere p i ↔ p = true ∧ j = i
  := by
  cases p with
  | false => simp [endsHere]
  | true => simp [endsHere]

variable {ignoreCase : Bool} {t : Array Char}

/-- A match of `b` after a match of `a` starts where the match of `a` ends. -/
theorem mem_ends_seq {a b : Regex} {i j : Nat} :
  j ∈ ends ignoreCase t (.seq a b) i
    ↔ ∃ k ∈ ends ignoreCase t a i, j ∈ ends ignoreCase t b k
  := by
  simp only [ends]
  induction ends ignoreCase t a i with
  | nil => simp
  | cons k places ih =>
      rw [List.foldr_cons, mem_unionPlaces, ih]
      simp

theorem mem_ends_sequence_nil {i j : Nat} :
  j ∈ ends ignoreCase t (sequence []) i ↔ j = i
  := by
  simp [sequence, ends]

/-- A match of a sequence is a match of its first item and then one of the others. -/
theorem mem_ends_sequence_cons {r : Regex} {items : List Regex} {i j : Nat} :
  j ∈ ends ignoreCase t (sequence (r :: items)) i
    ↔ ∃ k ∈ ends ignoreCase t r i, j ∈ ends ignoreCase t (sequence items) k
  := by
  cases items with
  | nil => simp [sequence, ends]
  | cons s items =>
      rw [sequence, mem_ends_seq]
      simp

theorem mem_ends_sequence_append {items others : List Regex} {i j : Nat} :
  j ∈ ends ignoreCase t (sequence (items ++ others)) i
    ↔ ∃ k ∈ ends ignoreCase t (sequence items) i, j ∈ ends ignoreCase t (sequence others) k
  := by
  induction items generalizing i with
  | nil => simp [mem_ends_sequence_nil]
  | cons r items ih =>
      simp only [List.cons_append, mem_ends_sequence_cons, ih]
      constructor
      · rintro ⟨k, hk, l, hl, hj⟩
        exact ⟨l, ⟨k, hk, hl⟩, hj⟩
      · rintro ⟨l, ⟨k, hk, hl⟩, hj⟩
        exact ⟨k, hk, l, hl, hj⟩

end Regex

namespace Matcher

variable {m : Matcher} {t : Text}

/-- A match starts at a place exactly when it ends somewhere. -/
theorem matchesAt_iff {a : Array Char} {i : Nat} :
  m.matchesAt a i = true ↔ ∃ j, j ∈ m.regex.ends m.ignoreCase a i
  := by
  rw [matchesAt, Bool.not_eq_true', List.isEmpty_eq_false_iff_exists_mem]

/-- A matcher finds the least place from `start` on where a match starts. -/
theorem firstFrom_eq_some_iff {start p : Nat} :
  m.firstFrom t start = some p
    ↔ IsLeast {i | start ≤ i ∧ i ≤ t.length ∧ m.matchesAt t.toArray i = true} p
  := by
  simp only [firstFrom, List.size_toArray, List.find?_range'_eq_some, List.mem_range'_1]
  constructor
  · rintro ⟨hmatch, hrange, hleast⟩
    constructor
    · exact ⟨hrange.1, by omega, hmatch⟩
    · rintro i ⟨hstart, hlength, hi⟩
      by_contra hlt
      have hno := hleast i hstart (by omega)
      simp [hi] at hno
  · rintro ⟨⟨hstart, hlength, hmatch⟩, hleast⟩
    refine ⟨hmatch, ⟨hstart, by omega⟩, ?_⟩
    intro i hi hlt
    rw [Bool.not_eq_true']
    by_contra hne
    have hle := hleast ⟨hi, by omega, Bool.not_eq_false _ ▸ hne⟩
    omega

theorem firstFrom_eq_none_iff {start : Nat} :
  m.firstFrom t start = none
    ↔ ∀ i, start ≤ i → i ≤ t.length → m.matchesAt t.toArray i = false
  := by
  simp only [firstFrom, List.size_toArray, List.find?_range'_eq_none, Bool.not_eq_true']
  constructor
  · intro h i hstart hlength
    apply h i hstart
    omega
  · intro h i hstart hlength
    apply h i hstart
    omega

/-- A matcher finds the least place where a match starts. -/
theorem first_eq_some_iff {p : Nat} :
  m.first t = some p ↔ IsLeast {i | i ≤ t.length ∧ m.matchesAt t.toArray i = true} p
  := by
  rw [first, firstFrom_eq_some_iff]
  simp

/-- A matcher finds no place exactly when a match starts nowhere. -/
theorem first_eq_none_iff :
  m.first t = none ↔ ∀ i ≤ t.length, m.matchesAt t.toArray i = false
  := by
  rw [first, firstFrom_eq_none_iff]
  simp

theorem find?_reverse_range_eq_some_iff {n i : Nat} {p : Nat → Bool} :
  (List.range n).reverse.find? p = some i ↔ IsGreatest {i | i < n ∧ p i = true} i
  := by
  induction n with
  | zero => simp [IsGreatest]
  | succ n ih =>
      rw [List.range_succ, List.reverse_append, List.reverse_singleton, List.singleton_append]
      cases hn : p n with
      | true =>
          rw [List.find?_cons_of_pos hn, Option.some.injEq]
          have hgreatest : IsGreatest {i | i < n + 1 ∧ p i = true} n := by
            constructor
            · exact ⟨Nat.lt_succ_self n, hn⟩
            · rintro j ⟨hj, -⟩
              omega
          constructor
          · rintro rfl
            apply hgreatest
          · intro h
            apply hgreatest.unique h
      | false =>
          have hset : {i | i < n + 1 ∧ p i = true} = {i | i < n ∧ p i = true} := by
            ext j
            constructor
            · rintro ⟨hj, hp⟩
              have hne : j ≠ n := by
                rintro rfl
                rw [hn] at hp
                contradiction
              exact ⟨by omega, hp⟩
            · rintro ⟨hj, hp⟩
              exact ⟨by omega, hp⟩
          rw [List.find?_cons_of_neg (by simp [hn]), ih, hset]

/-- A matcher finds the greatest of the first `count` places where a match starts. -/
theorem lastAmong_eq_some_iff {count p : Nat} :
  m.lastAmong t count = some p
    ↔ IsGreatest {i | i < count ∧ i ≤ t.length ∧ m.matchesAt t.toArray i = true} p
  := by
  have hset : {i | i < min count (t.length + 1) ∧ m.matchesAt t.toArray i = true}
      = {i | i < count ∧ i ≤ t.length ∧ m.matchesAt t.toArray i = true} := by
    ext i
    constructor
    · rintro ⟨hi, hmatch⟩
      exact ⟨by omega, by omega, hmatch⟩
    · rintro ⟨hi, hlength, hmatch⟩
      exact ⟨by omega, hmatch⟩
  rw [lastAmong, List.size_toArray, find?_reverse_range_eq_some_iff, hset]

theorem lastAmong_eq_none_iff {count : Nat} :
  m.lastAmong t count = none
    ↔ ∀ i, i < count → i ≤ t.length → m.matchesAt t.toArray i = false
  := by
  simp only [lastAmong, List.size_toArray, List.find?_eq_none, List.mem_reverse, List.mem_range,
    Bool.not_eq_true]
  constructor
  · intro h i hi hlength
    apply h i
    omega
  · intro h i hi
    apply h i <;> omega

end Matcher

end TagNavigator
