import TagNavigator.Proofs.Text.Terminal

/-!
# What sanitizing does

A text is sanitized by spelling out, one by one, the characters that act on a terminal; that a text
without any is left alone makes no difference.  So nothing that acts on a terminal is left, every
other character stays in its place, and a second time nothing changes (`sanitize_spells_out`).
-/

namespace TagNavigator.Text

/-- The character acts on a terminal: it is a control character of the first or of the second set,
but no tab and no line end. -/
def ActsOnTerminal (c : Char) : Prop :=
  (c.toNat ≤ 0x1f ∧ c ≠ '\t' ∧ c ≠ '\n' ∧ c ≠ '\r') ∨ (0x7f ≤ c.toNat ∧ c.toNat ≤ 0x9f)

instance (c : Char) : Decidable (ActsOnTerminal c) :=
  inferInstanceAs (Decidable (_ ∨ _))

/-- The lower-case hexadecimal digit with the value `n`. -/
def hexDigit (n : Nat) : Char :=
  "0123456789abcdef".toList.getD n '0'

/-- A character with what acts on a terminal spelled out: a backslash, an `x` and two digits. -/
def spelledOut (c : Char) : Text :=
  if ActsOnTerminal c then ['\\', 'x', hexDigit (c.toNat / 16), hexDigit (c.toNat % 16)] else [c]

variable {c : Char} {t : Text}

/-! ### Characters -/

theorem isControl_iff_actsOnTerminal :
  isControl c = true ↔ ActsOnTerminal c
  := by
  rw [isControl_iff, ActsOnTerminal]
  have htab : c = '\t' ↔ c.toNat = 9 := Char.toNat_inj.symm
  have hlineFeed : c = '\n' ↔ c.toNat = 10 := Char.toNat_inj.symm
  have hreturn : c = '\r' ↔ c.toNat = 13 := Char.toNat_inj.symm
  simp only [ne_eq, htab, hlineFeed, hreturn]
  omega

theorem digitChar_eq_hexDigit {n : Nat} (h : n < 16) :
  n.digitChar = hexDigit n
  := by
  have hall : ∀ m < 16, Nat.digitChar m = hexDigit m := by decide
  exact hall n h

theorem hex_two {n : Nat} (h : n < 256) :
  hex 2 n = [hexDigit (n / 16), hexDigit (n % 16)]
  := by
  have hlow : n % 16 < 16 := Nat.mod_lt n (by decide)
  rw [hex, Nat.toDigits_eq_if (by decide)]
  split
  · rename_i hsmall
    rw [Nat.div_eq_of_lt hsmall, Nat.mod_eq_of_lt hsmall, digitChar_eq_hexDigit hsmall]
    rfl
  · have hhigh : n / 16 < 16 := by omega
    rw [Nat.toDigits_of_lt_base hhigh, digitChar_eq_hexDigit hhigh, digitChar_eq_hexDigit hlow]
    rfl

theorem inert_eq_spelledOut (c : Char) :
  inert c = spelledOut c
  := by
  rw [inert_eq, spelledOut]
  simp only [isControl_iff_actsOnTerminal]
  split
  · rename_i h
    rw [ActsOnTerminal] at h
    rw [hex_two (by omega)]
  · rfl

theorem spelledOut_of_not_acts (h : ¬ ActsOnTerminal c) :
  spelledOut c = [c]
  := if_neg h

theorem lineFeed_notMem_spelledOut (h : ActsOnTerminal c) :
  '\n' ∉ spelledOut c
  := by
  have hdigit : ∀ n < 16, '\n' ≠ hexDigit n := by decide
  rw [spelledOut, if_pos h]
  rw [ActsOnTerminal] at h
  simp only [List.mem_cons, List.not_mem_nil, or_false, not_or]
  exact ⟨by decide, by decide, hdigit _ (by omega), hdigit _ (by omega)⟩

/-! ### Texts -/

theorem flatMap_spelledOut_eq_self (h : ∀ c ∈ t, ¬ ActsOnTerminal c) :
  t.flatMap spelledOut = t
  := by
  induction t with
  | nil => rfl
  | cons c t ih =>
      obtain ⟨hc, ht⟩ := List.forall_mem_cons.mp h
      rw [List.flatMap_cons, spelledOut_of_not_acts hc, ih ht]
      rfl

theorem flatMap_inert (t : Text) :
  t.flatMap inert = t.flatMap spelledOut
  := by
  rw [funext inert_eq_spelledOut]

theorem any_isControl_iff :
  t.any isControl = true ↔ ∃ c ∈ t, ActsOnTerminal c
  := by
  simp only [List.any_eq_true, isControl_iff_actsOnTerminal]

theorem sanitize_eq (t : Text) :
  sanitize t = t.flatMap spelledOut
  := by
  rw [sanitize, flatMap_inert]
  split
  · rfl
  · rename_i h
    rw [any_isControl_iff] at h
    exact (flatMap_spelledOut_eq_self fun c hc hacts => h ⟨c, hc, hacts⟩).symm

theorem not_acts_of_mem_sanitize (h : c ∈ sanitize t) :
  ¬ ActsOnTerminal c
  := by
  have hclean := clean_sanitize t c h
  rw [← isControl_iff_actsOnTerminal, hclean]
  exact Bool.false_ne_true

/-- What does not act on a terminal is kept, in order. -/
theorem filter_sublist_flatMap_spelledOut (t : Text) :
  (t.filter fun c => ¬ ActsOnTerminal c).Sublist (t.flatMap spelledOut)
  := by
  induction t with
  | nil => exact List.Sublist.slnil
  | cons c t ih =>
      rw [List.flatMap_cons]
      by_cases hc : ActsOnTerminal c
      · rw [List.filter_cons_of_neg (by simpa using hc)]
        exact ih.trans (List.sublist_append_right _ _)
      · rw [List.filter_cons_of_pos (by simpa using hc), spelledOut_of_not_acts hc]
        exact ih.cons_cons c

theorem count_lineFeed_spelledOut (c : Char) :
  (spelledOut c).count '\n' = [c].count '\n'
  := by
  by_cases hc : ActsOnTerminal c
  · have hne : c ≠ '\n' := by
      rintro rfl
      exact absurd hc (by decide)
    rw [List.count_eq_zero.mpr (lineFeed_notMem_spelledOut hc), List.count_singleton,
      if_neg (by simpa using hne)]
  · rw [spelledOut_of_not_acts hc]

theorem count_lineFeed_flatMap_spelledOut (t : Text) :
  (t.flatMap spelledOut).count '\n' = t.count '\n'
  := by
  induction t with
  | nil => rfl
  | cons c t ih =>
      rw [List.flatMap_cons, List.count_append, ih, count_lineFeed_spelledOut, ← List.count_append]
      rfl

/-- To sanitize a text is to spell out what acts on a terminal, and only a text that holds something
of the kind is gone through; going through any other would not change it.  So what is sanitized acts
on no terminal, keeps the other characters in order, has the line feeds that there were, and is not
changed by being sanitized again. -/
theorem sanitize_spells_out (t : Text) :
  sanitize t = t.flatMap spelledOut
    ∧ (t.any isControl = true ↔ ∃ c ∈ t, ActsOnTerminal c)
    ∧ t.flatMap inert = sanitize t
    ∧ (∀ c ∈ sanitize t, ¬ ActsOnTerminal c)
    ∧ (t.filter fun c => ¬ ActsOnTerminal c).Sublist (sanitize t)
    ∧ (sanitize t).count '\n' = t.count '\n'
    ∧ sanitize (sanitize t) = sanitize t
  := by
  have hclean : ∀ c ∈ sanitize t, ¬ ActsOnTerminal c := fun c => not_acts_of_mem_sanitize
  refine ⟨sanitize_eq t, any_isControl_iff, ?_, hclean, ?_, ?_, ?_⟩
  · rw [flatMap_inert, sanitize_eq]
  · rw [sanitize_eq]
    apply filter_sublist_flatMap_spelledOut
  · rw [sanitize_eq]
    apply count_lineFeed_flatMap_spelledOut
  · rw [sanitize_eq (sanitize t)]
    exact flatMap_spelledOut_eq_self hclean

example : sanitize "a\x1b[1m\t\u0085\n".toList = "a\\x1b[1m\t\\x85\n".toList := by decide

end TagNavigator.Text
