import TagNavigator.Proofs.Json.Tokens
import TagNavigator.Text.Lines

/-!
# Printed values in files

A value is printed in ASCII and without carriage returns (`plain_printIndented`).  So the file that
it is written to has no line ends but line feeds, and the text of the file is the text that was
printed (`unifyLineEnds_of_plain`).
-/

namespace TagNavigator

/-- A character of ASCII other than a carriage return. -/
def IsPlain (c : Char) : Prop := c.toNat < 0x80 ∧ c ≠ '\r'

instance (c : Char) : Decidable (IsPlain c) :=
  inferInstanceAs (Decidable (c.toNat < 0x80 ∧ c ≠ '\r'))

/-- A text of plain characters. -/
def Plain (t : Text) : Prop := ∀ c ∈ t, IsPlain c

instance (t : Text) : Decidable (Plain t) :=
  decidable_of_iff (t.all fun c => decide (IsPlain c)) (by simp [Plain])

variable {t u : Text} {c : Char}

theorem plain_nil :
  Plain []
  := List.forall_mem_nil _

theorem plain_cons_iff :
  Plain (c :: t) ↔ IsPlain c ∧ Plain t
  := List.forall_mem_cons

theorem plain_append_iff :
  Plain (t ++ u) ↔ Plain t ∧ Plain u
  := List.forall_mem_append

theorem unifyLineEnds_of_plain (h : Plain t) :
  Text.unifyLineEnds t = t
  := by
  induction t with
  | nil => rfl
  | cons c t ih =>
      obtain ⟨hc, ht⟩ := plain_cons_iff.mp h
      rw [Text.unifyLineEnds, if_neg hc.2, ih ht]
      rintro u rfl
      exact absurd rfl hc.2

/-! ### Printed values -/

theorem isPlain_of_isDigit (h : c.isDigit = true) :
  IsPlain c
  := by
  have hnine : '9'.toNat = 57 := rfl
  have hle := (Char.isDigit_iff_toNat.mp h).2
  constructor
  · omega
  · rintro rfl
    contradiction

theorem plain_of_allDigits (h : Json.AllDigits t) :
  Plain t
  := fun c hc => isPlain_of_isDigit (h c hc)

namespace Json

theorem plain_text {m : Numeral} (hm : m.WellFormed) :
  Plain m.text
  := by
  have hwhole : AllDigits m.whole := by
    rcases hm.whole with h | ⟨h, -⟩
    · rw [h]
      exact allDigits_replicate 1
    · exact h
  rw [Numeral.text]
  refine plain_append_iff.mpr ⟨?_, plain_append_iff.mpr ⟨plain_of_allDigits hwhole,
    plain_append_iff.mpr ⟨?_, ?_⟩⟩⟩
  · cases m.negative with
    | false => exact plain_nil
    | true => decide
  · rw [Numeral.fractionText]
    split
    · exact plain_nil
    · exact plain_cons_iff.mpr ⟨by decide, plain_of_allDigits hm.fraction⟩
  · cases he : m.exponent with
    | none => exact plain_nil
    | some e =>
        obtain ⟨negative, digits⟩ := e
        refine plain_cons_iff.mpr ⟨by decide, plain_cons_iff.mpr ⟨?_, ?_⟩⟩
        · cases negative with
          | false => decide
          | true => decide
        · exact plain_of_allDigits (hm.exponent _ he).2

theorem plain_ofInt (n : Int) :
  Plain (Text.ofInt n)
  := by
  rw [← text_numeralOf]
  exact plain_text (numeralOf_wellFormed n)

theorem plain_printFloat (x : Binary64) :
  Plain (printFloat x)
  := by
  cases x with
  | nan => decide
  | infinite negative =>
      cases negative with
      | false => decide
      | true => decide
  | finite negative m e =>
      obtain ⟨n, hn, -, htext⟩ := exists_numeral_value? negative m e
      rw [htext]
      exact plain_text hn

theorem isPlain_digitChar {n : Nat} (hn : n < 16) :
  IsPlain n.digitChar
  := by
  have hall : ∀ m < 16, IsPlain (Nat.digitChar m) := by decide
  exact hall n hn

theorem plain_unicodeEscape {n : Nat} (hn : n < 0x10000) :
  Plain (unicodeEscape n)
  := by
  have hlast {m : Nat} : IsPlain (m % 16).digitChar :=
    isPlain_digitChar (Nat.mod_lt m (by decide))
  rw [unicodeEscape, hex_four hn]
  simp only [plain_cons_iff, plain_nil, hlast, and_true]
  exact ⟨by decide, by decide, isPlain_digitChar (by omega)⟩

theorem plain_printCodePoint {n : Nat} (hn : n < 0x110000) :
  Plain (printCodePoint n)
  := by
  by_cases hshort : n ∈ shortEscapes.map Prod.fst
  · obtain ⟨p, hp, rfl⟩ := List.mem_map.mp hshort
    have hall : ∀ p ∈ shortEscapes, Plain (printCodePoint p.1) := by decide
    exact hall p hp
  · rw [printCodePoint_of_notMem hshort]
    split
    · rename_i hplain
      rw [Bool.and_eq_true, decide_eq_true_iff, decide_eq_true_iff] at hplain
      have htoNat : (Char.ofNat n).toNat = n := toNat_ofNat_of_lt (by omega)
      refine plain_cons_iff.mpr ⟨⟨by omega, ?_⟩, plain_nil⟩
      intro h
      rw [h] at htoNat
      obtain rfl : 13 = n := htoNat
      omega
    split
    · rename_i hlow
      exact plain_unicodeEscape hlow
    · apply plain_append_iff.mpr
      constructor
      · apply plain_unicodeEscape
        rw [firstHalf]
        omega
      · apply plain_unicodeEscape
        rw [secondHalf]
        omega

theorem plain_printString {s : JsonString} (hs : ∀ n ∈ s, n < 0x110000) :
  Plain (printString s)
  := by
  have hbody : Plain (s.flatMap printCodePoint) := by
    intro c hc
    obtain ⟨n, hn, hc⟩ := List.mem_flatMap.mp hc
    exact plain_printCodePoint (hs n hn) c hc
  exact plain_cons_iff.mpr ⟨by decide, plain_append_iff.mpr ⟨hbody, by decide⟩⟩

theorem plain_lineBreak (depth : Nat) :
  Plain (lineBreak depth)
  := by
  refine plain_cons_iff.mpr ⟨by decide, ?_⟩
  intro c hc
  rw [List.eq_of_mem_replicate hc]
  decide

theorem plain_join {parts : List Text} (h : ∀ t ∈ parts, Plain t) :
  Plain (Text.join [','] parts)
  := by
  rw [Text.join]
  induction parts with
  | nil => exact plain_nil
  | cons t parts ih =>
      obtain ⟨ht, hparts⟩ := List.forall_mem_cons.mp h
      cases parts with
      | nil =>
          rw [List.intercalate_singleton]
          exact ht
      | cons u parts =>
          rw [List.intercalate_cons_cons]
          exact plain_append_iff.mpr ⟨plain_append_iff.mpr ⟨ht, by decide⟩, ih hparts⟩

theorem plain_lines {first last : Char} {parts : List Text} (hfirst : IsPlain first)
    (hlast : IsPlain last) (h : ∀ t ∈ parts, Plain t) (depth : Nat) :
  Plain (first :: Text.join [','] parts ++ lineBreak depth ++ [last])
  := plain_append_iff.mpr ⟨plain_append_iff.mpr ⟨plain_cons_iff.mpr ⟨hfirst, plain_join h⟩,
    plain_lineBreak depth⟩, plain_cons_iff.mpr ⟨hlast, plain_nil⟩⟩

/-- A value is printed in ASCII and without carriage returns. -/
theorem plain_printIndented {j : Json} {room : Nat} (h : Sound room j) (depth : Nat) :
  Plain (printIndented depth j)
  := by
  induction h generalizing depth with
  | null => exact (by decide : Plain "null".toList)
  | bool b =>
      cases b with
      | false => exact (by decide : Plain "false".toList)
      | true => exact (by decide : Plain "true".toList)
  | int h => exact plain_ofInt _
  | float x => exact plain_printFloat x
  | string h => exact plain_printString h.lt
  | @array room items h ih =>
      cases items with
      | nil => exact (by decide : Plain ['[', ']'])
      | cons j items =>
          rw [printIndented, indentedItems_eq_map]
          apply plain_lines (by decide) (by decide)
          intro t ht
          obtain ⟨k, hk, rfl⟩ := List.mem_map.mp ht
          exact plain_append_iff.mpr ⟨plain_lineBreak _, ih k hk (depth + 1)⟩
  | @object room fields names joined h ih =>
      cases fields with
      | nil => exact (by decide : Plain ['{', '}'])
      | cons f fields =>
          rw [printIndented, indentedFields_eq_map]
          apply plain_lines (by decide) (by decide)
          intro t ht
          obtain ⟨g, hg, rfl⟩ := List.mem_map.mp ht
          exact plain_append_iff.mpr ⟨plain_append_iff.mpr ⟨plain_append_iff.mpr
            ⟨plain_lineBreak _, plain_printString (joined g hg).lt⟩, by decide⟩, ih g hg (depth + 1)⟩

/-! ### Values that can be printed -/

theorem areItemsPrintable_eq_all (items : List Json) :
  areItemsPrintable items = items.all isPrintable
  := by
  induction items with
  | nil => rfl
  | cons j items ih => rw [areItemsPrintable, ih, List.all_cons]

theorem areFieldsPrintable_eq_all (fields : List (JsonString × Json)) :
  areFieldsPrintable fields = fields.all fun f => isPrintable f.2
  := by
  induction fields with
  | nil => rfl
  | cons f fields ih =>
      obtain ⟨name, j⟩ := f
      rw [areFieldsPrintable, ih, List.all_cons]

theorem isPrintable_of_sound {j : Json} {room : Nat} (h : Sound room j) :
  isPrintable j = true
  := by
  induction h with
  | null => rfl
  | bool b => rfl
  | int h => exact decide_eq_true h
  | float x => rfl
  | string h => rfl
  | array h ih =>
      rw [isPrintable, areItemsPrintable_eq_all]
      exact List.all_eq_true.mpr ih
  | object names joined h ih =>
      rw [isPrintable, areFieldsPrintable_eq_all]
      exact List.all_eq_true.mpr ih

end Json

end TagNavigator
