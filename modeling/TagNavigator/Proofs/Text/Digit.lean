import Mathlib.Data.Nat.Digits.Defs
import TagNavigator.Text.Digit

/-!
# Decimal numerals

A row of decimal digits, of whatever scripts, writes the number that has these digits, most
significant first.  A numeral of admissible length is read as that number.
-/

namespace TagNavigator.Text

/-- A row of decimal digits, at least one, and the number that it writes. -/
structure Numeral (t : Text) (n : Nat) : Prop where
  ne_nil : t ≠ []
  value : ∃ digits : List Nat,
    t.map digitValue? = digits.map some ∧ Nat.ofDigits 10 digits.reverse = n

variable {t : Text} {c : Char} {n : Nat}

/-! ### Digits -/

theorem isDigit_iff :
  isDigit c = true ↔ ∃ d, digitValue? c = some d
  := Option.isSome_iff_exists

/-- A digit is the zero of its script or one of the nine characters after it. -/
theorem exists_zero_of_isDigit (h : isDigit c = true) :
  ∃ z ∈ digitZeros, ∃ d < 10, c.toNat = z + d
  := by
  rw [isDigit, digitValue?, Option.isSome_map, List.find?_isSome] at h
  obtain ⟨z, hz, hrange⟩ := h
  simp only [Bool.and_eq_true, decide_eq_true_eq] at hrange
  exact ⟨z, hz, c.toNat - z, by omega, by omega⟩

theorem not_isBlank_of_isDigit (h : isDigit c = true) :
  isBlank c = false
  := by
  have hall : ∀ z ∈ digitZeros, ∀ d < 10,
      (blankRanges.any fun r => r.1 ≤ z + d && z + d ≤ r.2) = false := by
    decide +kernel
  obtain ⟨z, hz, d, hd, hc⟩ := exists_zero_of_isDigit h
  rw [isBlank, isBlankPoint, hc]
  exact hall z hz d hd

/-! ### Numerals -/

theorem isDigit_of_map_eq {digits : List Nat} (h : t.map digitValue? = digits.map some) :
  ∀ c ∈ t, isDigit c = true
  := by
  intro c hc
  have hmem : digitValue? c ∈ digits.map some := h ▸ List.mem_map_of_mem hc
  obtain ⟨d, -, hd⟩ := List.mem_map.mp hmem
  exact isDigit_iff.mpr ⟨d, hd.symm⟩

theorem exists_map_eq_of_isDigit (h : ∀ c ∈ t, isDigit c = true) :
  ∃ digits : List Nat, t.map digitValue? = digits.map some
  := by
  induction t with
  | nil => exact ⟨[], rfl⟩
  | cons c t ih =>
      obtain ⟨hc, ht⟩ := List.forall_mem_cons.mp h
      obtain ⟨d, hd⟩ := isDigit_iff.mp hc
      obtain ⟨digits, hdigits⟩ := ih ht
      exact ⟨d :: digits, by rw [List.map_cons, hd, hdigits]; rfl⟩

/-- Digits that come after others are worth what they are, the others ten times more for each. -/
theorem foldl_digits (digits : List Nat) (m : Nat) :
  digits.foldl (fun n d => 10 * n + d) m
    = Nat.ofDigits 10 (digits.reverse ++ [m])
  := by
  induction digits generalizing m with
  | nil => simp
  | cons d digits ih =>
      rw [List.foldl_cons, ih, List.reverse_cons, List.append_assoc, Nat.ofDigits_append,
        Nat.ofDigits_append]
      congr 2
      simp [Nat.ofDigits_cons]
      omega

theorem valueOfDigits_eq {digits : List Nat} (h : t.map digitValue? = digits.map some) :
  valueOfDigits t = Nat.ofDigits 10 digits.reverse
  := by
  have hfold : valueOfDigits t = digits.foldl (fun n d => 10 * n + d) 0 := by
    have hgetD : t.map (fun c => (digitValue? c).getD 0) = digits := by
      have hmap := congrArg (List.map (Option.getD · 0)) h
      simpa [List.map_map, Function.comp_def] using hmap
    rw [← hgetD, List.foldl_map, valueOfDigits]
  rw [hfold, foldl_digits]
  simp [Nat.ofDigits_append]

theorem numeral_iff :
  Numeral t n ↔ t ≠ [] ∧ (∀ c ∈ t, isDigit c = true) ∧ valueOfDigits t = n
  := by
  constructor
  · rintro ⟨hne, digits, hdigits, rfl⟩
    exact ⟨hne, isDigit_of_map_eq hdigits, valueOfDigits_eq hdigits⟩
  · rintro ⟨hne, hdigit, rfl⟩
    obtain ⟨digits, hdigits⟩ := exists_map_eq_of_isDigit hdigit
    exact ⟨hne, digits, hdigits, (valueOfDigits_eq hdigits).symm⟩

theorem readDigits_of_le (h : t.length ≤ digitLimit) :
  readDigits t = .ok (valueOfDigits t)
  := if_neg (Nat.not_lt.mpr h)

end TagNavigator.Text
