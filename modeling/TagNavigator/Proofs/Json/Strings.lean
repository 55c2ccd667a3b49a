import Mathlib.Data.List.Chain
import TagNavigator.Json.Printer
import TagNavigator.Json.Token

/-!
# Strings in JSON texts

A code point above U+FFFF is written as the two halves of a surrogate pair, and a reader joins such
halves.  So a string that holds the first half of a pair directly before a second half does not read
back.  All others do (`scanString?_quoted`, `joinSurrogates_codeUnits`), and a reader gives no
such string (`joined_of_scanString?`).
-/

namespace TagNavigator.Json

/-- The first half of a surrogate pair. -/
def IsFirstHalf (n : Nat) : Prop := 0xD800 ≤ n ∧ n < 0xDC00

/-- The second half of a surrogate pair. -/
def IsSecondHalf (n : Nat) : Prop := 0xDC00 ≤ n ∧ n < 0xE000

/-- A string of code points, without halves of a surrogate pair one after the other. -/
structure Joined (s : JsonString) : Prop where
  lt : ∀ n ∈ s, n < 0x110000
  chain : s.IsChain fun a b => ¬ (IsFirstHalf a ∧ IsSecondHalf b)

variable {s : JsonString} {n a b : Nat} {t : Text}

theorem joined_nil :
  Joined []
  := ⟨List.forall_mem_nil _, List.isChain_nil⟩

theorem Joined.cons (hn : n < 0x110000) (hs : Joined s)
    (h : ∀ b ∈ s.head?, ¬ (IsFirstHalf n ∧ IsSecondHalf b)) :
  Joined (n :: s)
  := by
  constructor
  · intro m hm
    rcases List.mem_cons.mp hm with rfl | hm
    · exact hn
    · exact hs.lt m hm
  · exact List.isChain_cons.mpr ⟨h, hs.chain⟩

/-- A segment of a joined string is joined. -/
theorem Joined.of_isInfix {u : JsonString} (hs : Joined s) (h : u <:+: s) :
  Joined u
  := by
  refine ⟨fun n hn => hs.lt n (h.subset hn), ?_⟩
  obtain ⟨before, after, rfl⟩ := h
  exact hs.chain.left_of_append.right_of_append

/-- The characters of a text are no halves of surrogate pairs. -/
theorem joined_ofText (t : Text) :
  Joined (JsonString.ofText t)
  := by
  have hvalid : ∀ n ∈ JsonString.ofText t, n.isValidChar := by
    intro n hn
    obtain ⟨c, -, rfl⟩ := List.mem_map.mp hn
    exact c.valid
  constructor
  · intro n hn
    rcases hvalid n hn with h | h
    · omega
    · exact h.2
  · apply List.Pairwise.isChain
    apply List.pairwise_iff_forall_sublist.mpr
    intro a b hab
    rintro ⟨ha, -⟩
    have := hvalid a (hab.subset List.mem_cons_self)
    rw [IsFirstHalf] at ha
    rcases this with h | h
    · omega
    · omega

/-- A string is the string of a text just if it is read as that text. -/
theorem toText?_eq_some_iff :
  s.toText? = some t ↔ s = JsonString.ofText t
  := by
  induction s generalizing t with
  | nil => simp [JsonString.toText?, JsonString.ofText, eq_comm]
  | cons n s ih =>
      rw [JsonString.toText?] at ih ⊢
      simp only [List.mapM_cons, Option.bind_eq_bind, Option.bind_eq_some_iff, Option.pure_def,
        Option.some.injEq, ih]
      constructor
      · rintro ⟨c, hc, u, rfl, rfl⟩
        split at hc
        · rename_i hn
          cases hc
          have htoNat : (Char.ofNat n).toNat = n := by
            rw [Char.ofNat, dif_pos hn]
            rfl
          rw [JsonString.ofText, JsonString.ofText, List.map_cons, htoNat]
        · cases hc
      · intro h
        cases t with
        | nil => cases h
        | cons c t =>
            rw [JsonString.ofText, List.map_cons] at h
            cases h
            exact ⟨c, (if_pos c.valid).trans (congrArg some (Char.ofNat_toNat c)), t, rfl, rfl⟩

theorem ofText_injective :
  Function.Injective JsonString.ofText
  := by
  intro t u h
  exact Option.some.inj ((toText?_eq_some_iff.mpr rfl).symm.trans (toText?_eq_some_iff.mpr h))

/-! ### Surrogate pairs -/

/-- The first half of the pair that stands for a code point above U+FFFF. -/
def firstHalf (n : Nat) : Nat := 0xD800 + (n - 0x10000) / 0x400

/-- The second half of the pair that stands for a code point above U+FFFF. -/
def secondHalf (n : Nat) : Nat := 0xDC00 + (n - 0x10000) % 0x400

/-- The code units of a code point. -/
def codeUnits (n : Nat) : JsonString :=
  if n < 0x10000 then [n] else [firstHalf n, secondHalf n]

theorem joinSurrogates_pair (ha : IsFirstHalf a) (hb : IsSecondHalf b) :
  joinSurrogates (a :: b :: s) = (0x10000 + (a - 0xD800) * 0x400 + (b - 0xDC00)) :: joinSurrogates s
  := by
  rw [joinSurrogates, if_pos]
  simpa [IsFirstHalf, IsSecondHalf, and_assoc] using And.intro ha hb

theorem joinSurrogates_cons_of_not (h : ∀ b ∈ s.head?, ¬ (IsFirstHalf a ∧ IsSecondHalf b)) :
  joinSurrogates (a :: s) = a :: joinSurrogates s
  := by
  cases s with
  | nil => rfl
  | cons b s =>
      rw [joinSurrogates, if_neg]
      have hnot := h b rfl
      simpa [IsFirstHalf, IsSecondHalf, and_assoc] using hnot

theorem joinSurrogates_units_pair (hlow : 0x10000 ≤ n) (hhigh : n < 0x110000) :
  joinSurrogates (firstHalf n :: secondHalf n :: s) = n :: joinSurrogates s
  := by
  have hfirst : IsFirstHalf (firstHalf n) := by
    rw [IsFirstHalf, firstHalf]
    omega
  have hsecond : IsSecondHalf (secondHalf n) := by
    rw [IsSecondHalf, secondHalf]
    omega
  have hjoin : 0x10000 + (firstHalf n - 0xD800) * 0x400 + (secondHalf n - 0xDC00) = n := by
    rw [firstHalf, secondHalf]
    omega
  rw [joinSurrogates_pair hfirst hsecond, hjoin]

/-- The second half of a pair comes first among the code units only if it stands alone. -/
theorem eq_of_mem_head?_codeUnits (hn : n < 0x110000) (hb : b ∈ (codeUnits n ++ s).head?)
    (hsecond : IsSecondHalf b) :
  b = n
  := by
  rw [codeUnits] at hb
  split at hb
  · exact (Option.some.inj hb).symm
  · obtain rfl := Option.some.inj hb
    rw [IsSecondHalf, firstHalf] at hsecond
    omega

/-- Joining the code units of a string gives the string back. -/
theorem joinSurrogates_codeUnits (hs : Joined s) :
  joinSurrogates (s.flatMap codeUnits) = s
  := by
  obtain ⟨hlt, hchain⟩ := hs
  induction s with
  | nil => rfl
  | cons n s ih =>
      have hrest := ih (fun m hm => hlt m (List.mem_cons_of_mem n hm)) hchain.of_cons
      have hn := hlt n List.mem_cons_self
      rw [List.flatMap_cons, codeUnits]
      split
      · rw [List.singleton_append, joinSurrogates_cons_of_not, hrest]
        rintro b hb ⟨hfirst, hsecond⟩
        cases s with
        | nil => contradiction
        | cons m s =>
            have hm := hlt m (List.mem_cons_of_mem n List.mem_cons_self)
            obtain rfl := eq_of_mem_head?_codeUnits hm hb hsecond
            exact (List.isChain_cons_cons.mp hchain).1 ⟨hfirst, hsecond⟩
      · rw [List.cons_append, List.singleton_append, joinSurrogates_units_pair (by omega) hn, hrest]

theorem head?_joinSurrogates_of_isSecondHalf (hb : b ∈ (joinSurrogates s).head?)
    (hsecond : IsSecondHalf b) :
  b ∈ s.head?
  := by
  cases s with
  | nil => exact hb
  | cons a s =>
      cases s with
      | nil => exact hb
      | cons c s =>
          rw [joinSurrogates] at hb
          split at hb
          · -- A pair joins to a code point above U+FFFF.
            obtain rfl := Option.some.inj hb
            rw [IsSecondHalf] at hsecond
            omega
          · exact hb

/-- Joining leaves no halves of a pair one after the other. -/
theorem joined_joinSurrogates (hs : ∀ n ∈ s, n < 0x110000) :
  Joined (joinSurrogates s)
  := by
  induction s using joinSurrogates.induct with
  | case1 => exact joined_nil
  | case2 a => exact ⟨hs, List.isChain_singleton a⟩
  | case3 a b s hpair ih =>
      have hrest := ih fun n hn => hs n (List.mem_cons_of_mem a (List.mem_cons_of_mem b hn))
      simp only [Bool.and_eq_true, decide_eq_true_eq] at hpair
      rw [joinSurrogates_pair ⟨hpair.1.1.1, hpair.1.1.2⟩ ⟨hpair.1.2, hpair.2⟩]
      apply Joined.cons (by omega) hrest
      rintro c - ⟨hfirst, -⟩
      rw [IsFirstHalf] at hfirst
      omega
  | case4 a b s hpair ih =>
      have hrest := ih fun n hn => hs n (List.mem_cons_of_mem a hn)
      have hnot : ¬ (IsFirstHalf a ∧ IsSecondHalf b) := by
        simpa [IsFirstHalf, IsSecondHalf, and_assoc] using hpair
      rw [joinSurrogates, if_neg hpair]
      apply Joined.cons (hs a List.mem_cons_self) hrest
      rintro c hc ⟨hfirst, hsecond⟩
      obtain rfl := Option.some.inj (head?_joinSurrogates_of_isSecondHalf hc hsecond)
      exact hnot ⟨hfirst, hsecond⟩

/-! ### Escapes -/

theorem hexValue?_digitChar (hn : n < 16) :
  hexValue? n.digitChar = some n
  := by
  have hall : ∀ m < 16, hexValue? (Nat.digitChar m) = some m := by decide
  exact hall n hn

theorem hex_one (hn : n < 16) :
  Text.hex 1 n = [n.digitChar]
  := by
  rw [Text.hex, Nat.toDigits_of_lt_base hn]
  rfl

/-- The digits of a number are those of its sixteenth part, and then that of the remainder. -/
theorem hex_succ {width : Nat} (hwidth : 0 < width) (n : Nat) :
  Text.hex (width + 1) n = Text.hex width (n / 16) ++ [(n % 16).digitChar]
  := by
  rcases Nat.lt_or_ge n 16 with hlt | hge
  · rw [Nat.div_eq_of_lt hlt, Nat.mod_eq_of_lt hlt]
    simp only [Text.hex, Nat.toDigits_of_lt_base hlt, Nat.toDigits_zero, List.length_singleton,
      Nat.add_sub_cancel]
    obtain ⟨width, rfl⟩ := Nat.exists_eq_add_one.mpr hwidth
    rw [List.replicate_succ', Nat.add_sub_cancel]
  · simp only [Text.hex, Nat.toDigits_of_base_le (by decide) hge, List.length_append,
      List.length_singleton, Nat.add_sub_add_right, List.append_assoc]

theorem hex_four (hn : n < 0x10000) :
  Text.hex 4 n = [(n / 16 / 16 / 16).digitChar, (n / 16 / 16 % 16).digitChar,
    (n / 16 % 16).digitChar, (n % 16).digitChar]
  := by
  rw [hex_succ (by decide), hex_succ (by decide), hex_succ (by decide), hex_one (by omega)]
  rfl

theorem hexFour?_hex (hn : n < 0x10000) :
  ∃ c₁ c₂ c₃ c₄, Text.hex 4 n = [c₁, c₂, c₃, c₄] ∧ hexFour? c₁ c₂ c₃ c₄ = some n
  := by
  refine ⟨_, _, _, _, hex_four hn, ?_⟩
  rw [hexFour?, hexValue?_digitChar (by omega), hexValue?_digitChar (by omega),
    hexValue?_digitChar (by omega), hexValue?_digitChar (by omega)]
  apply congrArg some
  omega

theorem scanString?_unicodeEscape (hn : n < 0x10000) :
  scanString? (unicodeEscape n ++ t) = (scanString? t).map fun r => (n :: r.1, r.2 + 6)
  := by
  obtain ⟨c₁, c₂, c₃, c₄, hhex, hvalue⟩ := hexFour?_hex hn
  rw [unicodeEscape, hhex]
  simp only [List.cons_append, List.nil_append]
  rw [scanString?, hvalue]
  cases scanString? t with
  | none => rfl
  | some r => rfl

theorem scanString?_shortEscape {e c : Char} (he : e ≠ 'u') (hc : shortEscape? e = some c) :
  scanString? ('\\' :: e :: t) = (scanString? t).map fun r => (c.toNat :: r.1, r.2 + 2)
  := by
  rw [scanString?, hc]
  · cases scanString? t with
    | none => rfl
    | some r => rfl
  · intro _ _ _ _ _ h
    exact absurd h he

theorem scanString?_cons {c : Char} (hquote : c ≠ '"') (hbackslash : c ≠ '\\')
    (hc : 0x20 ≤ c.toNat) :
  scanString? (c :: t) = (scanString? t).map fun r => (c.toNat :: r.1, r.2 + 1)
  := by
  rw [scanString?, if_neg hquote, if_neg]
  · cases scanString? t with
    | none => rfl
    | some r => rfl
  · simp [hbackslash, hc]
  · intro _ _ _ _ _ h
    exact absurd h hbackslash
  · intro _ _ h
    exact absurd h hbackslash

theorem codeUnits_of_lt (hn : n < 0x10000) :
  codeUnits n = [n]
  := if_pos hn

theorem toNat_ofNat_of_lt (hn : n < 0xD800) :
  (Char.ofNat n).toNat = n
  := by
  have hvalid : n.isValidChar := .inl hn
  rw [Char.ofNat, dif_pos hvalid]
  rfl

theorem scanString?_ofNat (hlow : 0x20 ≤ n) (hhigh : n ≤ 0x7E) (hquote : n ≠ 0x22)
    (hbackslash : n ≠ 0x5C) :
  scanString? (Char.ofNat n :: t) = (scanString? t).map fun r => (n :: r.1, r.2 + 1)
  := by
  have hn : (Char.ofNat n).toNat = n := toNat_ofNat_of_lt (by omega)
  rw [scanString?_cons, hn]
  · intro h
    rw [h] at hn
    exact hquote hn.symm
  · intro h
    rw [h] at hn
    exact hbackslash hn.symm
  · omega

/-- The code points that are written as a backslash and one more character. -/
def shortEscapes : List (Nat × Char) := [
  (0x22, '"'), (0x5C, '\\'), (0x0A, 'n'), (0x0D, 'r'), (0x09, 't'), (0x0C, 'f'), (0x08, 'b')]

theorem printCodePoint_shortEscape :
  ∀ p ∈ shortEscapes, p.1 < 0xD800 ∧ printCodePoint p.1 = ['\\', p.2]
    ∧ shortEscape? p.2 = some (Char.ofNat p.1) ∧ p.2 ≠ 'u'
  := by
  decide

theorem printCodePoint_of_notMem (h : n ∉ shortEscapes.map Prod.fst) :
  printCodePoint n
    = if 0x20 ≤ n && n ≤ 0x7E then [Char.ofNat n]
      else if n < 0x10000 then unicodeEscape n
      else unicodeEscape (firstHalf n) ++ unicodeEscape (secondHalf n)
  := by
  simp only [shortEscapes, List.map_cons, List.map_nil, List.mem_cons, List.not_mem_nil, not_or,
    or_false] at h
  simp only [printCodePoint, h, if_false]
  rfl

/-- A code point is read as its code units. -/
theorem scanString?_printCodePoint (hn : n < 0x110000) :
  scanString? (printCodePoint n ++ t)
    = (scanString? t).map fun r => (codeUnits n ++ r.1, r.2 + (printCodePoint n).length)
  := by
  by_cases hshort : n ∈ shortEscapes.map Prod.fst
  · obtain ⟨p, hp, rfl⟩ := List.mem_map.mp hshort
    obtain ⟨hlt, hprint, hescape, hne⟩ := printCodePoint_shortEscape p hp
    rw [hprint, codeUnits_of_lt (by omega)]
    simp only [List.cons_append, List.nil_append]
    rw [scanString?_shortEscape hne hescape, toNat_ofNat_of_lt hlt]
    rfl
  · rw [printCodePoint_of_notMem hshort]
    split
    · rename_i hplain
      simp only [Bool.and_eq_true, decide_eq_true_eq] at hplain
      have hquote : n ≠ 0x22 := by
        rintro rfl
        exact hshort (by decide)
      have hbackslash : n ≠ 0x5C := by
        rintro rfl
        exact hshort (by decide)
      rw [codeUnits_of_lt (by omega)]
      exact scanString?_ofNat hplain.1 hplain.2 hquote hbackslash
    split
    · rename_i hlow
      obtain ⟨c₁, c₂, c₃, c₄, hhex, -⟩ := hexFour?_hex hlow
      rw [codeUnits_of_lt hlow, scanString?_unicodeEscape hlow, unicodeEscape, hhex]
      rfl
    · rename_i hhigh
      have hfirst : firstHalf n < 0x10000 := by
        rw [firstHalf]
        omega
      have hsecond : secondHalf n < 0x10000 := by
        rw [secondHalf]
        omega
      rw [List.append_assoc, scanString?_unicodeEscape hfirst, scanString?_unicodeEscape hsecond,
        codeUnits, if_neg hhigh, Option.map_map]
      obtain ⟨_, _, _, _, hhex, -⟩ := hexFour?_hex hfirst
      obtain ⟨_, _, _, _, hhex', -⟩ := hexFour?_hex hsecond
      rw [unicodeEscape, unicodeEscape, hhex, hhex']
      rfl

/-- The code points of a string are read up to the closing quote. -/
theorem scanString?_quoted (hs : ∀ n ∈ s, n < 0x110000) :
  scanString? (s.flatMap printCodePoint ++ '"' :: t)
    = some (s.flatMap codeUnits, (s.flatMap printCodePoint).length + 1)
  := by
  induction s with
  | nil => rfl
  | cons n s ih =>
      have hrest := ih fun m hm => hs m (List.mem_cons_of_mem n hm)
      rw [List.flatMap_cons, List.append_assoc, scanString?_printCodePoint (hs n List.mem_cons_self),
        hrest, List.length_append, List.flatMap_cons]
      apply congrArg some
      apply congrArg (Prod.mk _)
      dsimp only
      omega

/-! ### Strings that are read -/

theorem lt_of_hexValue? {c : Char} (h : hexValue? c = some n) :
  n < 16
  := by
  rw [hexValue?] at h
  split at h
  · rename_i hc
    obtain rfl := Option.some.inj h
    obtain ⟨hlow, hhigh⟩ := Char.isDigit_iff_toNat.mp hc
    have hnine : '9'.toNat = '0'.toNat + 9 := rfl
    omega
  split at h
  · rename_i hc
    simp only [Bool.and_eq_true, decide_eq_true_eq] at hc
    obtain rfl := Option.some.inj h
    have hhigh : c.toNat ≤ 'f'.toNat := hc.2
    have hf : 'f'.toNat = 'a'.toNat + 5 := rfl
    omega
  split at h
  · rename_i hc
    simp only [Bool.and_eq_true, decide_eq_true_eq] at hc
    obtain rfl := Option.some.inj h
    have hhigh : c.toNat ≤ 'F'.toNat := hc.2
    have hf : 'F'.toNat = 'A'.toNat + 5 := rfl
    omega
  · contradiction

theorem lt_of_hexFour? {c₁ c₂ c₃ c₄ : Char} (h : hexFour? c₁ c₂ c₃ c₄ = some n) :
  n < 0x10000
  := by
  obtain ⟨n₁, h₁, h⟩ := Option.bind_eq_some_iff.mp h
  obtain ⟨n₂, h₂, h⟩ := Option.bind_eq_some_iff.mp h
  obtain ⟨n₃, h₃, h⟩ := Option.bind_eq_some_iff.mp h
  obtain ⟨n₄, h₄, h⟩ := Option.bind_eq_some_iff.mp h
  obtain rfl := Option.some.inj h
  have := lt_of_hexValue? h₁
  have := lt_of_hexValue? h₂
  have := lt_of_hexValue? h₃
  have := lt_of_hexValue? h₄
  omega

theorem toNat_lt (c : Char) :
  c.toNat < 0x110000
  := by
  rcases c.valid with h | h
  · exact Nat.lt_trans h (by decide)
  · exact h.2

theorem lt_of_scanString? {k : Nat} (h : scanString? t = some (s, k)) :
  ∀ n ∈ s, n < 0x110000
  := by
  induction t using scanString?.induct generalizing s k with
  | case1 => contradiction
  | case2 c₁ c₂ c₃ c₄ t ih =>
      rw [scanString?] at h
      obtain ⟨n, hn, h⟩ := Option.bind_eq_some_iff.mp h
      obtain ⟨⟨s, k⟩, hs, h⟩ := Option.bind_eq_some_iff.mp h
      obtain ⟨rfl, rfl⟩ := Prod.mk.inj (Option.some.inj h)
      intro m hm
      rcases List.mem_cons.mp hm with rfl | hm
      · exact Nat.lt_trans (lt_of_hexFour? hn) (by decide)
      · exact ih hs m hm
  | case3 e t hu ih =>
      rw [scanString?] at h
      · obtain ⟨c, -, h⟩ := Option.bind_eq_some_iff.mp h
        obtain ⟨⟨s, k⟩, hs, h⟩ := Option.bind_eq_some_iff.mp h
        obtain ⟨rfl, rfl⟩ := Prod.mk.inj (Option.some.inj h)
        intro m hm
        rcases List.mem_cons.mp hm with rfl | hm
        · exact toNat_lt c
        · exact ih hs m hm
      · exact hu
  | case4 t _ _ =>
      obtain ⟨rfl, rfl⟩ := Prod.mk.inj (Option.some.inj h)
      exact List.forall_mem_nil _
  | case5 c t hu he hquote hc =>
      rw [scanString?, if_neg hquote, if_pos hc] at h
      · contradiction
      · exact hu
      · exact he
  | case6 c t hu he hquote hc ih =>
      rw [scanString?, if_neg hquote, if_neg hc] at h
      · obtain ⟨⟨s, k⟩, hs, h⟩ := Option.bind_eq_some_iff.mp h
        obtain ⟨rfl, rfl⟩ := Prod.mk.inj (Option.some.inj h)
        intro m hm
        rcases List.mem_cons.mp hm with rfl | hm
        · exact toNat_lt c
        · exact ih hs m hm
      · exact hu
      · exact he

/-- A string that is read holds no halves of a pair one after the other. -/
theorem joined_of_scanString? {k : Nat} (h : scanString? t = some (s, k)) :
  Joined (joinSurrogates s)
  := joined_joinSurrogates (lt_of_scanString? h)

end TagNavigator.Json
