import TagNavigator.Preview
import TagNavigator.Proofs.Text.Parts

/-!
# Texts that a terminal only shows

A clean text holds no control characters, tab and line ends aside.  What is sanitized is clean, and
so is a preview, whatever the lines are that it shows.
-/

namespace TagNavigator

namespace Text

/-- A text without control characters, tab and line ends aside. -/
def Clean (t : Text) : Prop :=
  ∀ c ∈ t, isControl c = false

instance (t : Text) : Decidable (Clean t) :=
  decidable_of_iff (t.all (!isControl ·) = true) (by simp [Clean])

variable {t t' : Text}

/-! ### Clean texts -/

@[simp]
theorem clean_nil :
  Clean []
  := by
  simp [Clean]

@[simp]
theorem clean_cons_iff {c : Char} :
  Clean (c :: t) ↔ isControl c = false ∧ Clean t
  :=
  List.forall_mem_cons

@[simp]
theorem clean_append_iff :
  Clean (t ++ t') ↔ Clean t ∧ Clean t'
  :=
  List.forall_mem_append

theorem Clean.of_subset (h : Clean t) (hsub : ∀ c ∈ t', c ∈ t) :
  Clean t'
  :=
  fun c hc => h c (hsub c hc)

theorem clean_replicate {c : Char} (h : isControl c = false) (n : Nat) :
  Clean (List.replicate n c)
  := by
  intro d hd
  rw [List.eq_of_mem_replicate hd]
  exact h

theorem clean_join {sep : Text} (hsep : Clean sep) {parts : List Text}
    (h : ∀ part ∈ parts, Clean part) :
  Clean (join sep parts)
  := by
  unfold join
  induction parts with
  | nil => exact clean_nil
  | cons part rest ih =>
      obtain ⟨hpart, hrest⟩ := List.forall_mem_cons.mp h
      cases rest with
      | nil =>
          rw [List.intercalate_singleton]
          exact hpart
      | cons next rest =>
          rw [List.intercalate_cons_cons, clean_append_iff, clean_append_iff]
          exact ⟨⟨hpart, hsep⟩, ih hrest⟩

/-- The lines of a text that is printed line by line. -/
theorem clean_lines_iff {lines : List Text} :
  Clean (lines.flatMap (· ++ ['\n'])) ↔ ∀ line ∈ lines, Clean line
  := by
  induction lines with
  | nil => simp
  | cons line rest ih =>
      rw [List.flatMap_cons, clean_append_iff, clean_append_iff, ih, List.forall_mem_cons]
      simp [isControl]

/-! ### Numbers -/

theorem isControl_digitChar {n : Nat} (h : n < 16) :
  isControl n.digitChar = false
  := by
  have hall : ∀ m < 16, isControl (Nat.digitChar m) = false := by decide
  exact hall n h

theorem clean_toDigits {base : Nat} (hbase : 1 < base) (hbase' : base ≤ 16) (n : Nat) :
  Clean (Nat.toDigits base n)
  := by
  induction n using Nat.strongRecOn with
  | ind n ih =>
      rw [Nat.toDigits_eq_if hbase]
      split
      · rename_i hsmall
        exact clean_cons_iff.mpr ⟨isControl_digitChar (Nat.lt_of_lt_of_le hsmall hbase'), clean_nil⟩
      · rename_i hlarge
        have hless : n / base < n := Nat.div_lt_self (by omega) hbase
        have hdigit : n % base < 16 := Nat.lt_of_lt_of_le (Nat.mod_lt n (by omega)) hbase'
        exact clean_append_iff.mpr
          ⟨ih _ hless, clean_cons_iff.mpr ⟨isControl_digitChar hdigit, clean_nil⟩⟩

theorem clean_ofInt (n : Int) :
  Clean (ofInt n)
  := by
  cases n with
  | ofNat n => exact clean_toDigits (by decide) (by decide) n
  | negSucc n => exact clean_cons_iff.mpr ⟨rfl, clean_toDigits (by decide) (by decide) (n + 1)⟩

theorem clean_hex (width n : Nat) :
  Clean (hex width n)
  :=
  clean_append_iff.mpr ⟨clean_replicate rfl _, clean_toDigits (by decide) (by decide) n⟩

theorem clean_padLeft (width : Nat) (h : Clean t) :
  Clean (padLeft width t)
  :=
  clean_append_iff.mpr ⟨clean_replicate rfl _, h⟩

/-! ### What is sanitized -/

theorem isControl_iff {c : Char} :
  isControl c = true
    ↔ ¬ (c = '\n' ∨ c = '\r' ∨ c = '\t')
      ∧ (c.toNat < 32 ∨ c.toNat = 127 ∨ (0x80 ≤ c.toNat ∧ c.toNat ≤ 0x9f))
  := by
  have heq (d : Char) : c = d ↔ c.toNat = d.toNat := Char.toNat_inj.symm
  simp only [isControl, heq, Bool.or_eq_true, Bool.and_eq_true, decide_eq_true_eq, beq_iff_eq]
  simp only [Char.reduceToNat]
  omega

/-- A character is spelled out just if it is a control character. -/
theorem inert_eq (c : Char) :
  inert c = if isControl c = true then '\\' :: 'x' :: hex 2 c.toNat else [c]
  := by
  unfold inert
  simp only [isControl_iff, Bool.or_eq_true, Bool.and_eq_true, decide_eq_true_eq, or_assoc]
  by_cases hkept : c = '\n' ∨ c = '\r' ∨ c = '\t'
  · simp only [hkept, not_true_eq_false, false_and, if_true, if_false]
  · simp only [hkept, not_false_eq_true, true_and, if_false]

theorem clean_inert (c : Char) :
  Clean (inert c)
  := by
  rw [inert_eq]
  split
  · exact clean_cons_iff.mpr ⟨rfl, clean_cons_iff.mpr ⟨rfl, clean_hex 2 c.toNat⟩⟩
  · rename_i h
    exact clean_cons_iff.mpr ⟨eq_false_of_ne_true h, clean_nil⟩

theorem clean_sanitize (t : Text) :
  Clean (sanitize t)
  := by
  unfold sanitize
  split
  · intro c hc
    obtain ⟨d, -, hd⟩ := List.mem_flatMap.mp hc
    exact clean_inert d c hd
  · rename_i h
    intro c hc
    exact eq_false_of_ne_true fun hcontrol => h (List.any_eq_true.mpr ⟨c, hc, hcontrol⟩)

end Text

namespace Preview

open Text (Clean)

theorem clean_row (line : Int) (width : Nat) (number : Int) {t : Text} (h : Clean t) :
  Clean (row line width number t)
  := by
  have hmark : Text.isControl (if number = line then '>' else ' ') = false := by
    split <;> rfl
  have hnumber := Text.clean_padLeft width (Text.clean_ofInt number)
  exact Text.clean_append_iff.mpr
    ⟨Text.clean_append_iff.mpr ⟨Text.clean_cons_iff.mpr ⟨hmark, hnumber⟩, by decide⟩, h⟩

theorem clean_of_mem_rows {line : Int} {width : Nat} {first : Int} {texts : List Text}
    (h : ∀ t ∈ texts, Clean t) {t : Text} (ht : t ∈ rows line width first texts) :
  Clean t
  := by
  induction texts generalizing first with
  | nil => cases ht
  | cons text rest ih =>
      obtain ⟨htext, hrest⟩ := List.forall_mem_cons.mp h
      rcases List.mem_cons.mp ht with rfl | ht
      · exact clean_row line width first htext
      · exact ih hrest ht

/-- A preview without highlighting is clean, whatever the lines are. -/
theorem clean_render (lines : List Text) (line context : Int) :
  Clean (render lines line context false)
  := by
  unfold render
  split
  · exact Text.clean_nil
  · dsimp only
    have hsnippet (shown : List Text) :
        Clean (Text.join ['\n'] (shown.map Text.sanitize) ++ ['\n']) := by
      refine Text.clean_append_iff.mpr ⟨Text.clean_join (by decide) ?_, by decide⟩
      intro part hpart
      obtain ⟨t, -, rfl⟩ := List.mem_map.mp hpart
      exact Text.clean_sanitize t
    refine Text.clean_append_iff.mpr ⟨Text.clean_join (by decide) ?_, by decide⟩
    intro text htext
    apply clean_of_mem_rows _ htext
    intro part hpart
    apply (hsnippet _).of_subset
    intro c hc
    exact Text.mem_of_mem_dropTrailing (Text.mem_of_mem_cutAt hpart hc)

end Preview

end TagNavigator
