import Mathlib.Data.List.Basic
import TagNavigator.Json.Printer
import TagNavigator.Json.Token

/-!
# Numbers in JSON texts

A numeral is a number as it is written: a whole part, a fraction and an exponent.  It is read as one
number if no character follows that could belong to it (`scanNumber?_text`).  Every number
that is printed is printed as a numeral.
-/

namespace TagNavigator

/-- An integer that does not have too many digits to be written. -/
def IsShort (n : Int) : Prop := (Text.ofNat n.natAbs).length ≤ Text.digitLimit

instance (n : Int) : Decidable (IsShort n) :=
  inferInstanceAs (Decidable ((Text.ofNat n.natAbs).length ≤ Text.digitLimit))

namespace Json

/-- A text that does not go on with a number. -/
def EndsNumber (t : Text) : Prop :=
  ∀ c ∈ t.head?, c.isDigit = false ∧ c ≠ '.' ∧ c ≠ 'e' ∧ c ≠ 'E'

/-- A row of digits. -/
def AllDigits (t : Text) : Prop := ∀ c ∈ t, c.isDigit = true

/-- A zero alone, or digits that do not start with one. -/
def IsWhole (t : Text) : Prop :=
  t = ['0'] ∨ AllDigits t ∧ ∃ c ∈ t.head?, c ≠ '0'

/-- A number as it is written: its sign, its whole part, its fraction, and its exponent with the
sign of it. -/
structure Numeral where
  negative : Bool
  whole : Text
  fraction : Text
  exponent : Option (Bool × Text)

namespace Numeral

/-- A minus sign, if there is one. -/
def signText (negative : Bool) : Text := if negative then ['-'] else []

/-- A fraction with its point. -/
def fractionText (fraction : Text) : Text := if fraction.isEmpty then [] else '.' :: fraction

/-- An exponent with its letter and its sign. -/
def exponentText : Option (Bool × Text) → Text
  | none => []
  | some (negative, digits) => 'e' :: (if negative then '-' else '+') :: digits

/-- The characters of the numeral. -/
def text (n : Numeral) : Text :=
  signText n.negative ++ (n.whole ++ (fractionText n.fraction ++ exponentText n.exponent))

/-- The parts of a numeral are rows of digits. -/
structure WellFormed (n : Numeral) : Prop where
  whole : IsWhole n.whole
  fraction : AllDigits n.fraction
  exponent : ∀ e ∈ n.exponent, e.2 ≠ [] ∧ AllDigits e.2

/-- The power of ten of an exponent. -/
def power : Option (Bool × Text) → Int
  | none => 0
  | some (negative, digits) =>
    if negative then -(Text.valueOfDigits digits : Int) else Text.valueOfDigits digits

end Numeral

variable {t rest : Text} {n : Nat}

/-! ### The parts of a numeral -/

theorem takeWhile_isDigit_append (ht : AllDigits t) (hrest : ∀ c ∈ rest.head?, c.isDigit = false) :
  (t ++ rest).takeWhile Char.isDigit = t
  := by
  rw [List.takeWhile_append_of_pos ht]
  cases rest with
  | nil => rw [List.takeWhile_nil, List.append_nil]
  | cons c rest =>
      rw [List.takeWhile_cons_of_neg, List.append_nil]
      rw [hrest c rfl]
      exact Bool.false_ne_true

theorem integerDigits_append (ht : IsWhole t) (hrest : ∀ c ∈ rest.head?, c.isDigit = false) :
  integerDigits (t ++ rest) = t
  := by
  rcases ht with rfl | ⟨hdigits, c, hc, hne⟩
  · rfl
  · rw [integerDigits, takeWhile_isDigit_append hdigits hrest]
    intro u hu
    obtain ⟨d, t, rfl⟩ := List.exists_cons_of_ne_nil (List.ne_nil_of_mem (List.mem_of_mem_head? hc))
    obtain rfl := Option.some.inj hc
    exact hne (List.cons.inj hu).1

theorem fractionDigits_append (ht : AllDigits t)
    (hrest : ∀ c ∈ rest.head?, c.isDigit = false ∧ c ≠ '.') :
  fractionDigits (Numeral.fractionText t ++ rest) = t
  := by
  cases t with
  | nil =>
      cases rest with
      | nil => rfl
      | cons c rest =>
          rw [Numeral.fractionText, if_pos List.isEmpty_nil, List.nil_append, fractionDigits]
          intro u hu
          exact (hrest c rfl).2 (List.cons.inj hu).1
  | cons d t =>
      exact takeWhile_isDigit_append ht fun c hc => (hrest c hc).1

theorem exponentOf_append {e : Option (Bool × Text)} (he : ∀ p ∈ e, p.2 ≠ [] ∧ AllDigits p.2)
    (hrest : EndsNumber rest) :
  exponentOf (Numeral.exponentText e ++ rest)
    = (Numeral.power e, (Numeral.exponentText e).length)
  := by
  cases e with
  | none =>
      cases rest with
      | nil => rfl
      | cons c rest =>
          obtain ⟨-, -, hlower, hupper⟩ := hrest c rfl
          rw [Numeral.exponentText, List.nil_append, exponentOf, if_neg]
          · rfl
          · simp [hlower, hupper]
  | some p =>
      obtain ⟨negative, digits⟩ := p
      obtain ⟨hne, hdigits⟩ := he _ rfl
      have hscan := takeWhile_isDigit_append hdigits fun c hc => (hrest c hc).1
      cases negative with
      | false =>
          simp [Numeral.exponentText, Numeral.power, exponentOf, hscan, hne]
          omega
      | true =>
          simp [Numeral.exponentText, Numeral.power, exponentOf, hscan, hne]
          omega

/-! ### Scanning a numeral -/

namespace Numeral

variable {m : Numeral}

/-- The value of a numeral. -/
def value? (m : Numeral) : Option Json :=
  if m.fraction = [] ∧ m.exponent = none then
    match Text.readDigits m.whole with
    | .error _ => none
    | .ok n => some (.int (if m.negative then -(n : Int) else n))
  else
    some (.float (Binary64.ofDecimal m.negative (Text.valueOfDigits (m.whole ++ m.fraction))
      ((m.whole ++ m.fraction).dropWhile (· == '0')).length
      (power m.exponent - m.fraction.length)))

theorem exists_whole_eq_cons (hm : m.WellFormed) :
  ∃ c u, m.whole = c :: u ∧ c.isDigit = true
  := by
  rcases hm.whole with hzero | ⟨hdigits, c, hc, -⟩
  · exact ⟨'0', [], hzero, rfl⟩
  · obtain ⟨d, u, hu⟩ := List.exists_cons_of_ne_nil (List.ne_nil_of_mem (List.mem_of_mem_head? hc))
    exact ⟨d, u, hu, hdigits d (hu ▸ List.mem_cons_self)⟩

theorem length_fractionText :
  (fractionText m.fraction).length = if m.fraction.isEmpty then 0 else m.fraction.length + 1
  := by
  rw [fractionText]
  split
  · rfl
  · rfl

theorem head?_exponentText {e : Option (Bool × Text)} (hrest : EndsNumber rest) :
  ∀ c ∈ (exponentText e ++ rest).head?, c.isDigit = false ∧ c ≠ '.'
  := by
  intro c hc
  cases e with
  | none => exact ⟨(hrest c hc).1, (hrest c hc).2.1⟩
  | some p =>
      obtain rfl := Option.some.inj hc
      decide

theorem head?_fractionText (hrest : ∀ c ∈ rest.head?, c.isDigit = false) :
  ∀ c ∈ (fractionText t ++ rest).head?, c.isDigit = false
  := by
  intro c hc
  cases t with
  | nil => exact hrest c hc
  | cons d t =>
      obtain rfl := Option.some.inj hc
      rfl

theorem head?_text (hm : m.WellFormed) :
  ((m.text ++ rest).head? == some '-') = m.negative
  := by
  obtain ⟨c, u, hwhole, hc⟩ := exists_whole_eq_cons hm
  rw [text, hwhole]
  cases m.negative with
  | false =>
      apply beq_false_of_ne
      intro hminus
      obtain rfl := Option.some.inj hminus
      exact absurd hc (by decide)
  | true => rfl

theorem drop_signText {negative : Bool} :
  (if negative then (signText negative ++ t).drop 1 else signText negative ++ t) = t
  := by
  cases negative with
  | false => rfl
  | true => rfl

theorem length_text :
  m.text.length = m.negative.toNat + m.whole.length + (fractionText m.fraction).length
    + (exponentText m.exponent).length
  := by
  have hsign : (signText m.negative).length = m.negative.toNat := by
    cases m.negative with
    | false => rfl
    | true => rfl
  simp only [text, List.length_append, hsign]
  omega

theorem length_eq_zero_iff :
  (fractionText m.fraction).length + (exponentText m.exponent).length = 0
    ↔ m.fraction = [] ∧ m.exponent = none
  := by
  rw [Nat.add_eq_zero_iff, List.length_eq_zero_iff, List.length_eq_zero_iff]
  apply and_congr
  · cases m.fraction with
    | nil => exact iff_of_true rfl rfl
    | cons c t => exact iff_of_false (List.cons_ne_nil _ _) (List.cons_ne_nil _ _)
  · cases m.exponent with
    | none => exact iff_of_true rfl rfl
    | some e => exact iff_of_false (List.cons_ne_nil _ _) (Option.some_ne_none e)

/-- A numeral is read as one number. -/
theorem scanNumber?_text (hm : m.WellFormed) (hrest : EndsNumber rest) :
  scanNumber? (m.text ++ rest) = m.value?.map fun j => (j, m.text.length)
  := by
  have hexponent := exponentOf_append hm.exponent hrest
  have hfraction := fractionDigits_append hm.fraction (head?_exponentText (e := m.exponent) hrest)
  have hwhole := integerDigits_append hm.whole (head?_fractionText (t := m.fraction)
    fun c hc => (head?_exponentText (e := m.exponent) hrest c hc).1)
  have hne : m.whole.isEmpty = false := by
    obtain ⟨c, u, hwhole, -⟩ := exists_whole_eq_cons hm
    rw [hwhole]
    rfl
  have hsign : ((m.text ++ rest).head? == some '-') = m.negative := head?_text hm
  have hbody : (if m.negative then (m.text ++ rest).drop 1 else m.text ++ rest)
      = m.whole ++ (fractionText m.fraction ++ (exponentText m.exponent ++ rest)) := by
    rw [text, List.append_assoc, List.append_assoc, List.append_assoc]
    exact drop_signText
  simp only [scanNumber?, hsign, hbody, hwhole, hne, Bool.false_eq_true, if_false,
    List.drop_left, hfraction, ← length_fractionText, hexponent, ← length_text,
    length_eq_zero_iff, value?]
  split
  · cases Text.readDigits m.whole with
    | error e => rfl
    | ok n => rfl
  · rfl

end Numeral

/-! ### Decimal digits -/

theorem allDigits_ofNat (n : Nat) :
  AllDigits (Text.ofNat n)
  := fun _ hc => Nat.isDigit_of_mem_toDigits (by decide) (by decide) hc

theorem digitValue?_digitChar (hn : n < 10) :
  Text.digitValue? n.digitChar = some n
  := by
  have hall : ∀ m < 10, Text.digitValue? (Nat.digitChar m) = some m := by decide
  exact hall n hn

theorem valueOfDigits_ofNat (n : Nat) :
  Text.valueOfDigits (Text.ofNat n) = n
  := by
  induction n using Nat.strongRecOn with
  | ind n ih =>
      rcases Nat.lt_or_ge n 10 with hlt | hge
      · simp [Text.ofNat, Nat.toDigits_of_lt_base hlt, Text.valueOfDigits,
          digitValue?_digitChar hlt]
      · have hlast := digitValue?_digitChar (Nat.mod_lt n (by decide : 0 < 10))
        have hrest := ih (n / 10) (by omega)
        rw [Text.valueOfDigits, Text.ofNat] at hrest
        rw [Text.ofNat, Nat.toDigits_of_base_le (by decide) hge, Text.valueOfDigits,
          List.foldl_append, hrest]
        simp only [List.foldl_cons, List.foldl_nil, hlast, Option.getD_some]
        omega

theorem head?_ofNat (hn : n ≠ 0) :
  ∃ c ∈ (Text.ofNat n).head?, c ≠ '0'
  := by
  induction n using Nat.strongRecOn with
  | ind n ih =>
      rcases Nat.lt_or_ge n 10 with hlt | hge
      · rw [Text.ofNat, Nat.toDigits_of_lt_base hlt]
        refine ⟨n.digitChar, rfl, ?_⟩
        have hall : ∀ m < 10, m ≠ 0 → Nat.digitChar m ≠ '0' := by decide
        exact hall n hlt hn
      · obtain ⟨c, hc, hne⟩ := ih (n / 10) (by omega) (by omega)
        rw [Text.ofNat, Nat.toDigits_of_base_le (by decide) hge]
        exact ⟨c, List.mem_head?_append_of_mem_head? hc, hne⟩

theorem isWhole_ofNat (n : Nat) :
  IsWhole (Text.ofNat n)
  := by
  by_cases hn : n = 0
  · left
    rw [hn]
    rfl
  · right
    exact ⟨allDigits_ofNat n, head?_ofNat hn⟩

theorem readDigits_ofNat (hn : (Text.ofNat n).length ≤ Text.digitLimit) :
  Text.readDigits (Text.ofNat n) = .ok n
  := by
  rw [Text.readDigits, if_neg (Nat.not_lt.mpr hn), valueOfDigits_ofNat]

/-! ### Integers -/

/-- The numeral of an integer. -/
def numeralOf : Int → Numeral
  | .ofNat n => ⟨false, Text.ofNat n, [], none⟩
  | .negSucc n => ⟨true, Text.ofNat (n + 1), [], none⟩

theorem numeralOf_wellFormed (n : Int) :
  (numeralOf n).WellFormed
  := by
  cases n with
  | ofNat n =>
      exact ⟨isWhole_ofNat n, List.forall_mem_nil _, fun _ he => absurd he (Option.not_mem_none _)⟩
  | negSucc n =>
      exact ⟨isWhole_ofNat (n + 1), List.forall_mem_nil _,
        fun _ he => absurd he (Option.not_mem_none _)⟩

theorem text_numeralOf (n : Int) :
  (numeralOf n).text = Text.ofInt n
  := by
  cases n with
  | ofNat n => exact List.append_nil _
  | negSucc n => exact congrArg ('-' :: ·) (List.append_nil _)

theorem value?_numeralOf {n : Int} (hn : IsShort n) :
  (numeralOf n).value? = some (.int n)
  := by
  cases n with
  | ofNat n =>
      have hread : Text.readDigits (Text.ofNat n) = .ok n := readDigits_ofNat hn
      simp only [Numeral.value?, numeralOf, hread]
      rfl
  | negSucc n =>
      have hread : Text.readDigits (Text.ofNat (n + 1)) = .ok (n + 1) := readDigits_ofNat hn
      simp only [Numeral.value?, numeralOf, hread]
      rfl

/-! ### Shortest decimals -/

theorem unitRatio_fst_pos (e k : Int) :
  0 < (Decimal.unitRatio e k).1
  := Nat.mul_pos (Nat.pow_pos (by decide)) (Nat.pow_pos (by decide))

theorem reads_of_eq_some {reads : Nat → Bool} {candidates : Nat × Nat} {c : Nat}
    (h : (if reads candidates.1 then some candidates.1
      else if reads candidates.2 then some candidates.2 else none) = some c) :
  reads c = true
  := by
  split at h
  · rename_i hfirst
    obtain rfl := Option.some.inj h
    exact hfirst
  split at h
  · rename_i hsecond
    obtain rfl := Option.some.inj h
    exact hsecond
  · contradiction

/-- A decimal on the grid lies in the interval, so it is not zero. -/
theorem ne_zero_of_onGrid {i : Decimal.Interval} {e k : Int} {c : Nat} (hlow : 0 < i.low)
    (h : Decimal.onGrid i e k = some c) :
  c ≠ 0
  := by
  rintro rfl
  have hpos := Nat.mul_pos hlow (unitRatio_fst_pos (e - 2) k)
  rw [Decimal.onGrid] at h
  generalize Decimal.unitRatio (e - 2) k = ratio at h hpos
  obtain ⟨a, b⟩ := ratio
  have hreads := @reads_of_eq_some
    (fun c => if i.closed then decide (i.low * a ≤ c * b) && decide (c * b ≤ i.high * a)
      else decide (i.low * a < c * b) && decide (c * b < i.high * a)) _ _ h
  have hle : i.low * a ≤ 0 * b := by
    split at hreads
    · exact of_decide_eq_true (Bool.and_eq_true_iff.mp hreads).1
    · exact Nat.le_of_lt (of_decide_eq_true (Bool.and_eq_true_iff.mp hreads).1)
  rw [Nat.zero_mul] at hle
  exact absurd hpos (Nat.not_lt.mpr hle)

theorem ne_zero_of_search {i : Decimal.Interval} {e p k : Int} {c : Nat} {l : List Nat}
    (hlow : 0 < i.low) (h : Decimal.search i e p l = (c, k)) :
  c ≠ 0 ∨ c = 0 ∧ k = 0
  := by
  induction l with
  | nil =>
      obtain ⟨rfl, rfl⟩ := Prod.mk.inj h
      exact .inr ⟨rfl, rfl⟩
  | cons n l ih =>
      rw [Decimal.search] at h
      split at h
      · rename_i hgrid
        obtain ⟨rfl, -⟩ := Prod.mk.inj h
        exact .inl (ne_zero_of_onGrid hlow hgrid)
      · exact ih h

theorem trimZeros_zero (steps : Nat) (k : Int) :
  Decimal.trimZeros steps (0, k) = (0, k + steps)
  := by
  induction steps generalizing k with
  | zero => simp [Decimal.trimZeros]
  | succ steps ih =>
      rw [Decimal.trimZeros, if_pos (Nat.zero_mod 10), Nat.zero_div, ih]
      congr 1
      omega

theorem trimZeros_ne_zero {steps : Nat} {c : Nat} {k : Int} (hc : c ≠ 0) :
  (Decimal.trimZeros steps (c, k)).1 ≠ 0
  := by
  induction steps generalizing c k with
  | zero => exact hc
  | succ steps ih =>
      rw [Decimal.trimZeros]
      split
      · rename_i hlast
        apply ih
        omega
      · exact hc

/-- The search for a shortest decimal gives up with twenty as the power of ten. -/
theorem shortest_eq_zero {m : Nat} {e : Int} (hm : m ≠ 0)
    (h : (Decimal.shortest m e).1 = 0) :
  (Decimal.shortest m e).2 = 20
  := by
  have hlow : 0 < (Decimal.intervalOf m e).low := by
    rw [Decimal.intervalOf]
    dsimp only
    split
    · omega
    · omega
  rw [Decimal.shortest] at h ⊢
  generalize hfound : Decimal.search (Decimal.intervalOf m e) e (Decimal.magnitude m e)
    (List.range' 1 17) = found at h ⊢
  obtain ⟨c, k⟩ := found
  rcases ne_zero_of_search hlow hfound with hc | ⟨rfl, rfl⟩
  · exact absurd h (trimZeros_ne_zero hc)
  · rw [trimZeros_zero]
    rfl

/-! ### Floating-point numbers -/

theorem allDigits_append {u : Text} (ht : AllDigits t) (hu : AllDigits u) :
  AllDigits (t ++ u)
  := List.forall_mem_append.mpr ⟨ht, hu⟩

theorem allDigits_replicate (n : Nat) :
  AllDigits (List.replicate n '0')
  := by
  intro c hc
  rw [List.eq_of_mem_replicate hc]
  rfl

theorem isWhole_append {u : Text} (ht : AllDigits t) (hu : AllDigits u)
    (hhead : ∃ c ∈ t.head?, c ≠ '0') :
  IsWhole (t ++ u)
  := by
  obtain ⟨c, hc, hne⟩ := hhead
  exact .inr ⟨allDigits_append ht hu, c, List.mem_head?_append_of_mem_head? hc, hne⟩

theorem isWhole_take_one (ht : AllDigits t) (hne : t ≠ []) :
  IsWhole (t.take 1)
  := by
  obtain ⟨c, t, rfl⟩ := List.exists_cons_of_ne_nil hne
  by_cases hc : c = '0'
  · left
    rw [hc]
    rfl
  · right
    exact ⟨fun d hd => ht d (List.mem_of_mem_take hd), c, rfl, hc⟩

/-- The numeral of `0.d₁d₂… * 10 ^ point` with the digits `d`. -/
def digitsNumeral (negative : Bool) (d : Text) (point : Int) : Numeral :=
  if -4 < point ∧ point ≤ 16 then
    if point ≤ 0 then ⟨negative, ['0'], List.replicate (-point).toNat '0' ++ d, none⟩
    else if d.length ≤ point.toNat then
      ⟨negative, d ++ List.replicate (point.toNat - d.length) '0', ['0'], none⟩
    else ⟨negative, d.take point.toNat, d.drop point.toNat, none⟩
  else
    let power := Text.ofNat (point - 1).natAbs
    ⟨negative, d.take 1, d.drop 1,
      some (decide (point < 1), List.replicate (2 - power.length) '0' ++ power)⟩

variable {d : Text} {point : Int} {negative : Bool}

theorem fractionText_of_ne_nil (ht : t ≠ []) :
  Numeral.fractionText t = '.' :: t
  := by
  rw [Numeral.fractionText, if_neg]
  simpa using ht

theorem text_digitsNumeral (hne : d ≠ []) :
  (digitsNumeral negative d point).text = Numeral.signText negative ++ printDigits d point
  := by
  have hcond : (-4 < point && point ≤ 16) = true ↔ -4 < point ∧ point ≤ 16 := by
    rw [Bool.and_eq_true, decide_eq_true_iff, decide_eq_true_iff]
  rw [digitsNumeral, printDigits]
  by_cases hplain : -4 < point ∧ point ≤ 16
  · rw [if_pos hplain, if_pos (hcond.mpr hplain)]
    by_cases hsmall : point ≤ 0
    · have hfraction : List.replicate (-point).toNat '0' ++ d ≠ [] :=
        List.append_ne_nil_of_right_ne_nil _ hne
      rw [if_pos hsmall, if_pos hsmall, Numeral.text, fractionText_of_ne_nil hfraction]
      simp [Numeral.exponentText]
    rw [if_neg hsmall, if_neg hsmall]
    by_cases hlong : d.length ≤ point.toNat
    · rw [if_pos hlong, if_pos hlong]
      simp [Numeral.text, Numeral.fractionText, Numeral.exponentText]
    · have hfraction : d.drop point.toNat ≠ [] := by
        simpa using hlong
      rw [if_neg hlong, if_neg hlong, Numeral.text, fractionText_of_ne_nil hfraction,
        Numeral.exponentText, List.append_nil]
  · rw [if_neg hplain, if_neg (mt hcond.mp hplain)]
    have hfraction : Numeral.fractionText (d.drop 1)
        = if d.length ≤ 1 then [] else '.' :: d.drop 1 := by
      simp only [Numeral.fractionText, List.isEmpty_iff, List.drop_eq_nil_iff]
    simp only [Numeral.text, hfraction, Numeral.exponentText, decide_eq_true_iff,
      List.append_assoc, List.cons_append, List.nil_append]

theorem digitsNumeral_wellFormed (hd : AllDigits d) (hne : d ≠ [])
    (hhead : (∃ c ∈ d.head?, c ≠ '0') ∨ 16 < point) :
  (digitsNumeral negative d point).WellFormed
  := by
  have hnone (q : Option (Bool × Text)) (hq : q = none) : ∀ e ∈ q, e.2 ≠ [] ∧ AllDigits e.2 := by
    rintro e he
    rw [hq] at he
    exact absurd he (Option.not_mem_none e)
  rw [digitsNumeral]
  by_cases hplain : -4 < point ∧ point ≤ 16
  · have hhead := hhead.resolve_right (Int.not_lt.mpr hplain.2)
    rw [if_pos hplain]
    by_cases hsmall : point ≤ 0
    · rw [if_pos hsmall]
      exact ⟨.inl rfl, allDigits_append (allDigits_replicate _) hd, hnone _ rfl⟩
    rw [if_neg hsmall]
    by_cases hlong : d.length ≤ point.toNat
    · rw [if_pos hlong]
      exact ⟨isWhole_append hd (allDigits_replicate _) hhead, allDigits_replicate 1, hnone _ rfl⟩
    · rw [if_neg hlong]
      refine ⟨.inr ⟨fun c hc => hd c (List.mem_of_mem_take hc), ?_⟩,
        fun c hc => hd c (List.mem_of_mem_drop hc), hnone _ rfl⟩
      rw [List.head?_take, if_neg (by omega)]
      exact hhead
  · rw [if_neg hplain]
    refine ⟨isWhole_take_one hd hne, fun c hc => hd c (List.mem_of_mem_drop hc), ?_⟩
    intro e he
    obtain rfl := Option.some.inj he
    exact ⟨List.append_ne_nil_of_right_ne_nil _ Nat.toDigits_ne_nil,
      allDigits_append (allDigits_replicate _) (allDigits_ofNat _)⟩

theorem digitsNumeral_isFloat (hne : d ≠ []) :
  (digitsNumeral negative d point).fraction ≠ [] ∨ (digitsNumeral negative d point).exponent ≠ none
  := by
  rw [digitsNumeral]
  by_cases hplain : -4 < point ∧ point ≤ 16
  · left
    rw [if_pos hplain]
    by_cases hsmall : point ≤ 0
    · rw [if_pos hsmall]
      exact List.append_ne_nil_of_right_ne_nil _ hne
    rw [if_neg hsmall]
    by_cases hlong : d.length ≤ point.toNat
    · rw [if_pos hlong]
      exact List.cons_ne_nil _ _
    · rw [if_neg hlong]
      simpa using hlong
  · right
    rw [if_neg hplain]
    exact Option.some_ne_none _

/-- A finite floating-point number is written with a fraction or an exponent. -/
theorem exists_numeral_printFloat (negative : Bool) (m : Nat) (e : Int) :
  ∃ n : Numeral, n.WellFormed ∧ (n.fraction ≠ [] ∨ n.exponent ≠ none)
    ∧ printFloat (.finite negative m e) = n.text
  := by
  rw [printFloat]
  by_cases hm : m = 0
  · refine ⟨⟨negative, ['0'], ['0'], none⟩, ⟨.inl rfl, allDigits_replicate 1, ?_⟩,
      .inl (List.cons_ne_nil _ _), ?_⟩
    · intro e he
      exact absurd he (Option.not_mem_none e)
    · rw [if_pos hm]
      rfl
  · have hdigits := allDigits_ofNat (Decimal.shortest m e).1
    have hne : Text.ofNat (Decimal.shortest m e).1 ≠ [] := Nat.toDigits_ne_nil
    refine ⟨digitsNumeral negative (Text.ofNat (Decimal.shortest m e).1)
      ((Text.ofNat (Decimal.shortest m e).1).length + (Decimal.shortest m e).2), ?_,
      digitsNumeral_isFloat hne, ?_⟩
    · apply digitsNumeral_wellFormed hdigits hne
      by_cases hzero : (Decimal.shortest m e).1 = 0
      · right
        rw [shortest_eq_zero hm hzero, hzero]
        decide
      · left
        exact head?_ofNat hzero
    · rw [if_neg hm, text_digitsNumeral hne]
      rfl

/-- The number that is read back for a printed floating-point number. -/
def reread (x : Binary64) : Binary64 :=
  match x with
  | .finite _ _ _ =>
    match scanNumber? (printFloat x) with
    | some (.float y, _) => y
    | _ => x
  | x => x

/-- A finite floating-point number is read back as a floating-point number. -/
theorem exists_numeral_value? (negative : Bool) (m : Nat) (e : Int) :
  ∃ n : Numeral, n.WellFormed ∧ n.value? = some (.float (reread (.finite negative m e)))
    ∧ printFloat (.finite negative m e) = n.text
  := by
  obtain ⟨n, hn, hfloat, htext⟩ := exists_numeral_printFloat negative m e
  obtain ⟨y, hy⟩ : ∃ y, n.value? = some (.float y) := by
    rw [Numeral.value?, if_neg (not_and_or.mpr hfloat)]
    exact ⟨_, rfl⟩
  have hnil : EndsNumber [] := fun c hc => absurd hc (Option.not_mem_none c)
  have hread := Numeral.scanNumber?_text hn hnil
  rw [List.append_nil, hy, Option.map_some] at hread
  refine ⟨n, hn, ?_, htext⟩
  rw [hy, reread, htext, hread]

end Json

end TagNavigator
