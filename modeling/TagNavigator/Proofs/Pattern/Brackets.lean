import Mathlib.Data.List.Basic
import TagNavigator.Pattern.Source
import TagNavigator.Proofs.Outcome
import TagNavigator.Proofs.Pattern.Grammar
import TagNavigator.Proofs.Regex.Branches

/-!
# Brackets

What is read after an opening bracket is what the grammar allows (`written_of_bracket?`,
`bracket?_of_written`).  The set of characters that brackets compile to admits the characters that
the brackets stand for (`mem_ends_charSet`).
-/

namespace TagNavigator.Pattern

/-! ### Reading -/

theorem listRead_of_bracketBody {t : Text} {cs : List BracketChar} {n : Nat}
    (h : bracketBody t = some (cs, n)) :
  ListRead t cs (t.drop n)
  := by
  fun_induction bracketBody t generalizing cs n with
  | case1 => contradiction
  | case2 c t ih =>
      obtain ⟨⟨cs', n'⟩, hbody, heq⟩ := Option.map_eq_some_iff.mp h
      obtain ⟨rfl, rfl⟩ := Prod.mk.inj heq
      apply ListRead.quoted c (ih hbody)
  | case3 t hquote =>
      obtain ⟨rfl, rfl⟩ := Prod.mk.inj (Option.some.inj h)
      apply ListRead.close t
  | case4 c t hquote hclose ih =>
      obtain ⟨⟨cs', n'⟩, hbody, heq⟩ := Option.map_eq_some_iff.mp h
      obtain ⟨rfl, rfl⟩ := Prod.mk.inj heq
      apply ListRead.bare hclose ?_ (ih hbody)
      rintro rfl
      cases t with
      | nil => contradiction
      | cons d t => exact hquote d t rfl rfl

theorem bracketBody_of_listRead {t u : Text} {cs : List BracketChar} (h : ListRead t cs u) :
  ∃ n, bracketBody t = some (cs, n) ∧ t.drop n = u
  := by
  induction h with
  | close u => exact ⟨1, by simp [bracketBody], rfl⟩
  | quoted c h ih =>
      obtain ⟨n, hbody, hrest⟩ := ih
      exact ⟨n + 2, by simp [bracketBody, hbody], hrest⟩
  | bare hclose hquote h ih =>
      obtain ⟨n, hbody, hrest⟩ := ih
      refine ⟨n + 1, ?_, hrest⟩
      rw [bracketBody.eq_def]
      simp [hclose, hquote, hbody]

theorem Bracket.length_opening (b : Bracket) :
  b.opening.length = b.negated.toNat + b.startsWithClosing.toNat
  := by
  cases hn : b.negated <;> cases hc : b.startsWithClosing <;> simp [opening, hn, hc]

theorem skipOne_eq_iff {c : Char} {t rest : Text} {found : Bool} :
  skipOne c t = (found, rest)
    ↔ t = (if found then [c] else []) ++ rest ∧ (found = false → rest.head? ≠ some c)
  := by
  cases t with
  | nil =>
      cases found <;> simp [skipOne, eq_comm]
      rintro rfl
      simp
  | cons d t =>
      by_cases hd : d = c
      · subst hd
        cases found with
        | false =>
            simp only [skipOne, if_true, Prod.mk.injEq, Bool.true_eq_false, false_and, false_iff,
              Bool.false_eq_true, if_false, List.nil_append, true_imp_iff, not_and, not_not]
            rintro rfl
            rfl
        | true => simp [skipOne]
      · cases found with
        | false =>
            simp only [skipOne, if_neg hd, Prod.mk.injEq, true_and, Bool.false_eq_true, if_false,
              List.nil_append, true_imp_iff]
            constructor
            · rintro rfl
              exact ⟨rfl, by simpa using hd⟩
            · rintro ⟨rfl, -⟩
              rfl
        | true => simp [skipOne, hd]

/-- A bracket expression is read after its opening bracket if its characters are read up to the
closing one. -/
theorem bracket?_eq_some_iff {t : Text} {b : Bracket} {n : Nat} :
  bracket? t = some (b, n)
    ↔ ∃ s m, t = b.opening ++ s ∧ (b.negated = false → t.head? ≠ some '^')
      ∧ (b.startsWithClosing = false → s.head? ≠ some ']')
      ∧ bracketBody s = some (b.body, m) ∧ n = b.opening.length + m
  := by
  constructor
  · intro h
    obtain ⟨negated, t₁, hcaret⟩ : ∃ negated t₁, skipOne '^' t = (negated, t₁) := ⟨_, _, rfl⟩
    obtain ⟨closing, t₂, hclosing⟩ : ∃ closing t₂, skipOne ']' t₁ = (closing, t₂) := ⟨_, _, rfl⟩
    simp only [bracket?, hcaret, hclosing, Option.map_eq_some_iff, Prod.mk.injEq] at h
    obtain ⟨⟨body, m⟩, hbody, rfl, rfl⟩ := h
    obtain ⟨rfl, hnegated⟩ := skipOne_eq_iff.mp hcaret
    obtain ⟨rfl, hfirst⟩ := skipOne_eq_iff.mp hclosing
    refine ⟨t₂, m, (List.append_assoc _ _ _).symm, ?_, hfirst, hbody, ?_⟩
    · rintro rfl
      apply hnegated rfl
    · rw [Bracket.length_opening]
  · rintro ⟨s, m, rfl, hcaret, hclosing, hbody, rfl⟩
    have hfirst : skipOne '^' (b.opening ++ s)
        = (b.negated, (if b.startsWithClosing then [']'] else []) ++ s) := by
      apply skipOne_eq_iff.mpr
      rw [Bracket.opening, List.append_assoc]
      refine ⟨rfl, ?_⟩
      intro hnegated
      simpa [Bracket.opening, hnegated] using hcaret hnegated
    have hsecond : skipOne ']' ((if b.startsWithClosing then [']'] else []) ++ s)
        = (b.startsWithClosing, s) := skipOne_eq_iff.mpr ⟨rfl, hclosing⟩
    simp [bracket?, hfirst, hsecond, hbody, b.length_opening]

/-- What is read after an opening bracket is a bracket expression. -/
theorem written_of_bracket? {t : Text} {b : Bracket} {n : Nat} (h : bracket? t = some (b, n)) :
  b.Written t (t.drop n)
  := by
  obtain ⟨s, m, rfl, hcaret, hclosing, hbody, rfl⟩ := bracket?_eq_some_iff.mp h
  rw [List.drop_length_add_append]
  exact ⟨hcaret, s, rfl, listRead_of_bracketBody hbody, hclosing⟩

/-- A bracket expression is read after its opening bracket. -/
theorem bracket?_of_written {t u : Text} {b : Bracket} (h : b.Written t u) :
  ∃ n, bracket? t = some (b, n) ∧ t.drop n = u
  := by
  obtain ⟨hcaret, s, rfl, hread, hclosing⟩ := h
  obtain ⟨n, hbody, hrest⟩ := bracketBody_of_listRead hread
  refine ⟨b.opening.length + n, ?_, ?_⟩
  · exact bracket?_eq_some_iff.mpr ⟨s, n, rfl, hcaret, hclosing, hbody, rfl⟩
  · rw [List.drop_length_add_append, hrest]

theorem bracket?_eq_none_iff {t : Text} :
  bracket? t = none ↔ ∀ b u, ¬ Bracket.Written b t u
  := by
  constructor
  · intro hnone b u h
    obtain ⟨n, hsome, -⟩ := bracket?_of_written h
    rw [hnone] at hsome
    contradiction
  · intro h
    cases hb : bracket? t with
    | none => rfl
    | some r => exact absurd (written_of_bracket? hb) (h _ _)

theorem ListRead.bare_of_mem {t u : Text} {cs : List BracketChar} (h : ListRead t cs u)
    {a : BracketChar} (ha : a ∈ cs) (hbare : a.quoted = false) :
  a.char ≠ ']' ∧ a.char ≠ '\\'
  := by
  induction h with
  | close u => contradiction
  | quoted c h ih =>
      rcases List.mem_cons.mp ha with rfl | ha
      · contradiction
      · apply ih ha
  | bare hclose hquote h ih =>
      rcases List.mem_cons.mp ha with rfl | ha
      · exact ⟨hclose, hquote⟩
      · apply ih ha

theorem ListRead.head?_of_caret {t u : Text} {cs : List BracketChar} (h : ListRead t cs u)
    (hcaret : cs.head? = some ⟨false, '^'⟩) :
  t.head? = some '^'
  := by
  cases h with
  | close => contradiction
  | quoted c h => simp at hcaret
  | bare hclose hquote h => simpa using hcaret

theorem ListRead.length_lt {t u : Text} {cs : List BracketChar} (h : ListRead t cs u) :
  u.length < t.length
  := by
  induction h with
  | close u => exact Nat.lt_succ_self _
  | quoted c h ih =>
      rw [List.length_cons, List.length_cons]
      omega
  | bare hclose hquote h ih =>
      rw [List.length_cons]
      omega

theorem Bracket.Written.length_lt {b : Bracket} {t u : Text} (h : b.Written t u) :
  u.length < t.length
  := by
  obtain ⟨-, s, rfl, hread, -⟩ := h
  have hlt := hread.length_lt
  rw [List.length_append]
  omega

/-- Brackets that can be written: they contain something, what needs a backslash has one, and
brackets of which the first character is a caret without backslash are negated. -/
structure Bracket.Proper (b : Bracket) : Prop where
  bare : ∀ a ∈ b.listed, a.quoted = false → a.char ≠ ']' ∧ a.char ≠ '\\'
  nonempty : b.listed ≠ []
  caret : b.negated = false → b.listed.head? ≠ some ⟨false, '^'⟩

theorem Bracket.Written.proper {b : Bracket} {t u : Text} (h : b.Written t u) :
  b.Proper
  := by
  obtain ⟨hcaret, s, rfl, hread, hclosing⟩ := h
  cases hb : b.startsWithClosing with
  | false =>
      have hlisted : b.listed = b.body := by simp [listed, hb]
      constructor
      · rw [hlisted]
        exact fun a => hread.bare_of_mem
      · rw [hlisted]
        intro hnil
        rw [hnil] at hread
        cases hread
        apply hclosing hb rfl
      · rw [hlisted]
        intro hnegated hhead
        apply hcaret hnegated
        simpa [opening, hb, hnegated] using hread.head?_of_caret hhead
  | true =>
      have hlisted : b.listed = ⟨true, ']'⟩ :: b.body := by simp [listed, hb]
      constructor
      · rw [hlisted]
        intro a ha hbare
        rcases List.mem_cons.mp ha with rfl | ha
        · contradiction
        · apply hread.bare_of_mem ha hbare
      · simp [hlisted]
      · simp [hlisted]

/-! ### Sets -/

/-- A character between brackets, as it is read from the written set. -/
def BracketChar.unit (a : BracketChar) : Regex.SetUnit :=
  ⟨if a.quoted then Regex.specialChars.contains a.char else a.char = '[', a.char⟩

/-- The set items that characters between brackets write. -/
def setItems : List BracketChar → List SetItem
  | [] => []
  | lo :: ⟨false, '-'⟩ :: hi :: rest => .range lo.char hi.char :: setItems rest
  | a :: rest => .single a.char :: setItems rest

/-- The set that brackets compile to. -/
def Bracket.charSet (b : Bracket) : CharSet :=
  ⟨b.negated, (setItems b.listed).eraseDups⟩

theorem BracketChar.source_eq (a : BracketChar) :
  a.source = if a.unit.escaped then ['\\', a.char] else [a.char]
  := by
  cases hq : a.quoted with
  | false =>
      by_cases hc : a.char = '[' <;> simp [source, unit, hq, hc]
  | true => simp [source, unit, hq, Regex.escape]

/-- A hyphen makes a range exactly if no backslash precedes it. -/
theorem BracketChar.unit_eq_hyphen_iff (a : BracketChar) :
  a.unit = ⟨false, '-'⟩ ↔ a = ⟨false, '-'⟩
  := by
  obtain ⟨quoted, c⟩ := a
  simp only [unit, Regex.SetUnit.mk.injEq, BracketChar.mk.injEq]
  constructor
  · rintro ⟨hescaped, rfl⟩
    cases quoted with
    | false => exact ⟨rfl, rfl⟩
    | true => exact absurd hescaped (by decide)
  · rintro ⟨rfl, rfl⟩
    decide

/-- Characters between brackets write set items unless a range ends before it starts. -/
theorem setItems_eq_ok_iff {cs : List BracketChar} {items : List SetItem} :
  Regex.setItems (cs.map BracketChar.unit) = .ok items
    ↔ (∀ r ∈ ranges cs, r.1 ≤ r.2) ∧ items = setItems cs
  := by
  fun_induction ranges cs generalizing items with
  | case1 =>
      rw [List.map_nil, Regex.setItems, setItems, Except.ok.injEq, eq_comm (b := items)]
      simp
  | case2 lo hi rest ih =>
      have hhyphen : BracketChar.unit ⟨false, '-'⟩ = ⟨false, '-'⟩ := by decide
      rw [List.map_cons, List.map_cons, List.map_cons, hhyphen, Regex.setItems, setItems,
        List.forall_mem_cons]
      split
      next hlt =>
        constructor
        · intro h
          contradiction
        · rintro ⟨⟨hle, -⟩, -⟩
          apply absurd hlt (Char.not_lt.mpr hle)
      next hle =>
        simp only [map_eq_ok_iff, ih]
        constructor
        · rintro ⟨_, ⟨hrest, rfl⟩, rfl⟩
          exact ⟨⟨Char.not_lt.mp hle, hrest⟩, rfl⟩
        · rintro ⟨⟨-, hrest⟩, rfl⟩
          exact ⟨_, ⟨hrest, rfl⟩, rfl⟩
  | case3 a rest hrange ih =>
      rw [List.map_cons, Regex.setItems, setItems, List.forall_mem_cons]
      · simp only [map_eq_ok_iff, ih]
        constructor
        · rintro ⟨_, ⟨hrest, rfl⟩, rfl⟩
          exact ⟨⟨Char.le_refl _, hrest⟩, rfl⟩
        · rintro ⟨⟨-, hrest⟩, rfl⟩
          exact ⟨_, ⟨hrest, rfl⟩, rfl⟩
      · exact hrange
      · intro hi units hunits
        obtain ⟨hyphen, rest, rfl, hhyphen, hrest⟩ := List.map_eq_cons_iff.mp hunits
        obtain ⟨next, rest, rfl, -, -⟩ := List.map_eq_cons_iff.mp hrest
        apply hrange next rest (by rw [(BracketChar.unit_eq_hyphen_iff _).mp hhyphen])

theorem Bracket.not_reversed_iff (b : Bracket) :
  ¬ b.Reversed ↔ ∀ r ∈ ranges b.listed, r.1 ≤ r.2
  := by
  simp only [Reversed, not_exists, not_and, Char.not_lt]

theorem admits_single_iff {a c : Char} :
  (SetItem.single a).admits c = true ↔ a ≤ c ∧ c ≤ a
  := by
  rw [SetItem.admits, beq_iff_eq]
  constructor
  · rintro rfl
    exact ⟨Char.le_refl a, Char.le_refl a⟩
  · rintro ⟨hle, hge⟩
    apply Char.le_antisymm hle hge

theorem admits_range_iff {lo hi c : Char} :
  (SetItem.range lo hi).admits c = true ↔ lo ≤ c ∧ c ≤ hi
  := by
  simp only [SetItem.admits, Bool.and_eq_true, decide_eq_true_eq]

theorem exists_mem_setItems_iff {cs : List BracketChar} {c : Char} :
  (∃ item ∈ setItems cs, item.admits c = true) ↔ ∃ r ∈ ranges cs, r.1 ≤ c ∧ c ≤ r.2
  := by
  fun_induction ranges cs with
  | case1 => simp [setItems]
  | case2 lo hi rest ih =>
      rw [setItems, List.exists_mem_cons_iff, List.exists_mem_cons_iff, admits_range_iff, ih]
  | case3 a rest hrange ih =>
      rw [setItems]
      · rw [List.exists_mem_cons_iff, List.exists_mem_cons_iff, admits_single_iff, ih]
      · exact hrange

/-- The set of brackets admits the characters that the brackets stand for. -/
theorem Bracket.admits_charSet (b : Bracket) (c : Char) :
  b.charSet.admits false c = true ↔ b.Admits c
  := by
  have hholds : b.charSet.holds false c = true ↔ b.Lists c := by
    simp only [CharSet.holds, charSet, Bool.false_eq_true, if_false, List.any_eq_true,
      List.mem_eraseDups]
    exact exists_mem_setItems_iff
  rw [CharSet.admits, Admits, ← hholds, charSet]
  cases b.negated <;> simp

theorem mem_ends_ofSet {t : Array Char} {s : CharSet} {i j : Nat} :
  j ∈ Regex.ends false t (Regex.ofSet s) i ↔ j ∈ Regex.ends false t (.set s) i
  := by
  rw [Regex.ofSet.eq_def]
  split
  · rw [Regex.mem_ends_set_iff, Regex.mem_ends_char_iff]
    simp [SetItem.admits]
  · rfl

/-- Brackets match a character that they stand for. -/
theorem mem_ends_charSet {t : Text} {b : Bracket} {i j : Nat} :
  j ∈ Regex.ends false t.toArray (Regex.ofSet b.charSet) i
    ↔ (∃ c, t[i]? = some c ∧ b.Admits c) ∧ j = i + 1
  := by
  simp only [mem_ends_ofSet, Regex.ends, Regex.mem_endsOne, b.admits_charSet,
    List.getElem?_toArray]

end TagNavigator.Pattern
