import Mathlib.Data.List.Induction
import Mathlib.Data.List.Nodup
import TagNavigator.Cursor
import TagNavigator.Proofs.Text.Terminal

/-!
# The rows of a preview

A preview joins the lines around a line, drops the line feeds at the end, and cuts the text at the
others.  What it shows is one row for each line up to the last one that is not blank, and one row if
all of them are blank (`shown_cutAt`).  So the blank lines at the end have no rows, also if the line
in question is one of them, and then no row has the mark (`render_rows`).
-/

namespace TagNavigator

namespace Text

variable {t : Text}

/-! ### Cutting and joining -/

/-- The text that has a line feed after each of the lines. -/
def unlines (lines : List Text) : Text := lines.flatMap (· ++ ['\n'])

theorem unlines_append (lines more : List Text) :
  unlines (lines ++ more) = unlines lines ++ unlines more
  := List.flatMap_append

theorem unlines_eq_nil_iff {lines : List Text} :
  unlines lines = [] ↔ lines = []
  := by
  cases lines <;> simp [unlines]

theorem join_lineFeed {lines : List Text} (h : lines ≠ []) :
  join ['\n'] lines ++ ['\n'] = unlines lines
  := by
  unfold join
  induction lines with
  | nil => exact absurd rfl h
  | cons line rest ih =>
      cases rest with
      | nil =>
          rw [List.intercalate_singleton]
          exact (List.append_nil _).symm
      | cons next rest =>
          rw [List.intercalate_cons_cons, List.append_assoc, ih (List.cons_ne_nil _ _)]
          rfl

theorem cutAt_unlines_append {lines : List Text} (h : ∀ line ∈ lines, '\n' ∉ line) (ht : '\n' ∉ t) :
  cutAt '\n' (unlines lines ++ t) = lines ++ [t]
  := by
  induction lines with
  | nil => exact cutAt_of_notMem ht
  | cons line rest ih =>
      obtain ⟨hline, hrest⟩ := List.forall_mem_cons.mp h
      have hsplit : unlines (line :: rest) ++ t = line ++ '\n' :: (unlines rest ++ t) := by
        simp [unlines]
      rw [hsplit, cutAt_append_sep hline, ih hrest]
      rfl

/-! ### Blank lines at the end -/

theorem dropTrailing_concat_of_pos {p : Char → Bool} {c : Char} (h : p c = true) (t : Text) :
  dropTrailing p (t ++ [c]) = dropTrailing p t
  := by
  rw [dropTrailing, dropTrailing, List.reverse_append, List.reverse_singleton,
    List.singleton_append, List.dropWhile_cons_of_pos h]

theorem dropTrailing_append_of_neg {p : Char → Bool} {u : Text} (hne : u ≠ [])
    (h : ∀ c ∈ u, p c = false) (t : Text) :
  dropTrailing p (t ++ u) = t ++ u
  := by
  obtain ⟨c, rest, hreverse⟩ := List.exists_cons_of_ne_nil (mt List.reverse_eq_nil_iff.mp hne)
  have hc : ¬ p c = true := by
    have hmem : c ∈ u := List.mem_reverse.mp (hreverse ▸ List.mem_cons_self)
    exact Bool.eq_false_iff.mp (h c hmem)
  rw [dropTrailing, List.reverse_append, hreverse, List.cons_append, List.dropWhile_cons_of_neg hc,
    ← List.cons_append, ← hreverse, ← List.reverse_append, List.reverse_reverse]

/-- A count of lines that leaves out the blank ones at the end, but not the first line. -/
structure Shown (lines : List Text) (count : Nat) : Prop where
  pos : 1 ≤ count
  le : count ≤ lines.length
  blank : ∀ i line, count ≤ i → lines[i]? = some line → line = []
  filled : count = 1 ∨ lines[count - 1]? ≠ some []

theorem shown_concat {lines : List Text} {line : Text} (h : line ≠ []) :
  Shown (lines ++ [line]) (lines.length + 1)
  := by
  constructor
  · apply Nat.succ_pos
  · simp
  · intro i next hi hnext
    rw [List.getElem?_eq_none (by simpa using hi)] at hnext
    cases hnext
  · right
    rw [Nat.add_sub_cancel, List.getElem?_concat_length]
    simpa using h

theorem shown_blank :
  Shown [[]] 1
  := by
  constructor
  · apply Nat.le_refl 1
  · apply Nat.le_refl 1
  · intro i line hi hline
    rw [List.getElem?_eq_none hi] at hline
    cases hline
  · exact .inl rfl

theorem Shown.concat_blank {lines : List Text} {count : Nat} (h : Shown lines count) :
  Shown (lines ++ [[]]) count
  := by
  have hpos := h.pos
  have hle := h.le
  constructor
  · exact hpos
  · rw [List.length_append]
    omega
  · intro i line hi hline
    rcases Nat.lt_trichotomy i lines.length with hlt | rfl | hgt
    · rw [List.getElem?_append_left hlt] at hline
      exact h.blank i line hi hline
    · rw [List.getElem?_concat_length] at hline
      exact (Option.some.inj hline).symm
    · rw [List.getElem?_eq_none (by simpa using Nat.succ_le_of_lt hgt)] at hline
      cases hline
  · apply h.filled.imp_right
    rw [List.getElem?_append_left (by omega)]
    exact id

/-- Dropping the line feeds at the end and cutting at the others leaves the lines that are shown. -/
theorem shown_cutAt {lines : List Text} (hne : lines ≠ []) (h : ∀ line ∈ lines, '\n' ∉ line) :
  ∃ count, Shown lines count
    ∧ cutAt '\n' (dropTrailing (· == '\n') (unlines lines)) = lines.take count
  := by
  induction lines using List.reverseRecOn with
  | nil => exact absurd rfl hne
  | append_singleton lines line ih =>
      obtain ⟨hlines, hline⟩ := List.forall_mem_append.mp h
      have hlast : '\n' ∉ line := hline line (List.mem_singleton_self line)
      have hdrop : dropTrailing (· == '\n') (unlines (lines ++ [line]))
          = dropTrailing (· == '\n') (unlines lines ++ line) := by
        have hsplit : unlines (lines ++ [line]) = unlines lines ++ line ++ ['\n'] := by
          simp [unlines]
        rw [hsplit, dropTrailing_concat_of_pos (by simp)]
      rw [hdrop]
      by_cases hblank : line = []
      · -- a blank line at the end is shown only if it is the first one
        subst hblank
        rw [List.append_nil]
        by_cases hfirst : lines = []
        · subst hfirst
          exact ⟨1, shown_blank, rfl⟩
        · obtain ⟨count, hshown, hcut⟩ := ih hfirst hlines
          refine ⟨count, hshown.concat_blank, ?_⟩
          rw [hcut, List.take_append_of_le_length hshown.le]
      · refine ⟨_, shown_concat hblank, ?_⟩
        have hplain : ∀ c ∈ line, (c == '\n') = false := by
          intro c hc
          apply beq_false_of_ne
          rintro rfl
          exact hlast hc
        rw [dropTrailing_append_of_neg hblank hplain, cutAt_unlines_append hlines hlast,
          List.take_of_length_le (by simp)]

/-! ### What is sanitized -/

theorem lineFeed_notMem_sanitize (h : '\n' ∉ t) :
  '\n' ∉ sanitize t
  := by
  have hhex : ∀ n < 0xa0, '\n' ∉ hex 2 n := by decide +kernel
  have hinert : ∀ c ∈ t, '\n' ∉ inert c := by
    intro c hc
    rw [inert_eq]
    split
    · rename_i hcontrol
      have hcode := (isControl_iff.mp hcontrol).2
      have hdigits := hhex c.toNat (by omega)
      simpa using hdigits
    · rintro hmem
      rw [← List.mem_singleton.mp hmem] at hc
      exact h hc
  rw [sanitize]
  split
  · simpa using hinert
  · exact h

theorem sanitize_eq_nil_iff :
  sanitize t = [] ↔ t = []
  := by
  have hinert (c : Char) : inert c ≠ [] := by
    rw [inert_eq]
    split <;> apply List.cons_ne_nil
  cases t with
  | nil => simp [sanitize]
  | cons c t =>
      rw [sanitize]
      split <;> simp [hinert]

end Text

namespace Preview

variable {lines : List Text} {line context : Int}

/-! ### The lines around a line -/

/-- The first number of the lines around `line`. -/
def firstAround (line context : Int) : Int := max 1 (line - context)

/-- The last number of the lines around `line`. -/
def lastAround (lines : List Text) (line context : Int) : Int :=
  min (lines.length : Int) (line + context)

/-- The numbers from `first` to `last`. -/
def numbers (first last : Int) : List Int :=
  (List.range (last + 1 - first).toNat).map fun (i : Nat) => first + i

theorem numbers_append {first stop last : Int} (hfirst : first ≤ stop) (hstop : stop ≤ last) :
  numbers first last = numbers first stop ++ numbers (stop + 1) last
  := by
  have hlength : (last + 1 - first).toNat
      = (stop + 1 - first).toNat + (last + 1 - (stop + 1)).toNat := by
    omega
  rw [numbers, hlength, List.range_add, List.map_append, List.map_map]
  congr 1
  apply List.map_congr_left
  intro i _
  simp only [Function.comp_apply]
  omega

theorem mem_numbers_iff {first last number : Int} :
  number ∈ numbers first last ↔ first ≤ number ∧ number ≤ last
  := by
  rw [numbers, List.mem_map]
  constructor
  · rintro ⟨i, hi, rfl⟩
    have := List.mem_range.mp hi
    omega
  · rintro ⟨hfirst, hlast⟩
    exact ⟨(number - first).toNat, List.mem_range.mpr (by omega), by omega⟩

theorem nodup_numbers (first last : Int) :
  (numbers first last).Nodup
  := by
  apply List.Nodup.map _ List.nodup_range
  intro i j h
  exact Int.ofNat.inj (Int.add_left_cancel h)

/-- The lines from `first` to `last` are blank after the line `stop`, which is not, unless it is the
first one. -/
structure StopsAt (lines : List Text) (first last stop : Int) : Prop where
  first_le : first ≤ stop
  le_last : stop ≤ last
  blank : ∀ number, stop < number → number ≤ last → Cursor.lineText lines number = []
  filled : stop = first ∨ Cursor.lineText lines stop ≠ []

theorem length_between {first last : Int} (hfirst : 1 ≤ first) (hle : first ≤ last)
    (hlast : last ≤ lines.length) :
  (between lines first last).length = (last + 1 - first).toNat
  := by
  simp only [between, if_neg (show ¬ last < 0 by omega), List.length_drop, List.length_take]
  omega

theorem getElem?_between {first last : Int} {i : Nat} (hfirst : 1 ≤ first) (hi : first + i ≤ last)
    (hlast : last ≤ lines.length) :
  (between lines first last)[i]? = some (Cursor.lineText lines (first + i))
  := by
  have hindex : (first - 1).toNat + i = (first + i - 1).toNat := by omega
  have hlt : (first + i - 1).toNat < lines.length := by omega
  have hbelow : (first + i - 1).toNat < last.toNat := by omega
  simp only [between, if_neg (show ¬ last < 0 by omega), List.getElem?_drop, hindex,
    List.getElem?_take_of_lt hbelow, Cursor.lineText, if_neg (show ¬ first + i < 1 by omega),
    List.getElem?_eq_getElem hlt, Option.getD_some]

/-- The lines that are shown end at the line where the rows stop. -/
theorem StopsAt.of_shown {first last : Int} (hfirst : 1 ≤ first) (hle : first ≤ last)
    (hlast : last ≤ lines.length) {count : Nat}
    (h : Text.Shown ((between lines first last).map Text.sanitize) count) :
  StopsAt lines first last (first + count - 1)
  := by
  have hpos := h.pos
  have hcount := h.le
  rw [List.length_map, length_between hfirst hle hlast] at hcount
  have htext {i : Nat} (hi : first + i ≤ last) :
      ((between lines first last).map Text.sanitize)[i]?
        = some (Text.sanitize (Cursor.lineText lines (first + i))) := by
    rw [List.getElem?_map, getElem?_between hfirst hi hlast, Option.map_some]
  constructor
  · omega
  · omega
  · intro number hstop hnumber
    obtain ⟨i, rfl⟩ : ∃ i : Nat, number = first + i := ⟨(number - first).toNat, by omega⟩
    exact Text.sanitize_eq_nil_iff.mp (h.blank i _ (by omega) (htext hnumber))
  · rcases h.filled with hone | hfilled
    · left
      omega
    · right
      have hlastRow : first + (count - 1 : Nat) = first + count - 1 := by omega
      rw [htext (by omega), hlastRow] at hfilled
      intro hblank
      apply hfilled
      rw [hblank]
      rfl

/-! ### The rows -/

/-- The row of a line: the mark if it is the one in question, the number, as wide as the last one,
and the text. -/
def rowOf (lines : List Text) (line context number : Int) : Text :=
  (if number = line then '>' else ' ')
    :: Text.padLeft (Text.ofInt (lastAround lines line context)).length (Text.ofInt number)
    ++ "  ".toList ++ Text.sanitize (Cursor.lineText lines number)

/-- The rows of the lines around `line`, up to the line `stop`. -/
def rowsTo (lines : List Text) (line context stop : Int) : List Text :=
  (numbers (firstAround line context) stop).map (rowOf lines line context)

theorem getElem?_rows {width : Nat} {first : Int} {texts : List Text} (i : Nat) :
  (rows line width first texts)[i]? = texts[i]?.map (row line width (first + i))
  := by
  induction texts generalizing first i with
  | nil => rfl
  | cons t rest ih =>
      cases i with
      | zero => simp [rows]
      | succ i =>
          have hnumber : first + 1 + i = first + (i + 1 : Nat) := by omega
          rw [rows, List.getElem?_cons_succ, ih, hnumber, List.getElem?_cons_succ]

/-- The rows of the first lines of a window. -/
theorem rows_take {count : Nat} (hline : 1 ≤ firstAround line context)
    (hcount : firstAround line context + count - 1 ≤ lastAround lines line context) :
  rows line (Text.ofInt (lastAround lines line context)).length (firstAround line context)
      (((between lines (firstAround line context) (lastAround lines line context)).map
        Text.sanitize).take count)
    = rowsTo lines line context (firstAround line context + count - 1)
  := by
  apply List.ext_getElem?
  intro i
  have hnumbers : (firstAround line context + count - 1 + 1 - firstAround line context).toNat
      = count := by
    omega
  rw [getElem?_rows, rowsTo, numbers, hnumbers, List.getElem?_map, List.getElem?_map]
  by_cases hi : i < count
  · have hwindow := getElem?_between (i := i) hline
      (show firstAround line context + i ≤ lastAround lines line context by omega)
      (Int.min_le_left _ _)
    rw [List.getElem?_take_of_lt hi, List.getElem?_map, hwindow, List.getElem?_range hi]
    rfl
  · rw [List.getElem?_eq_none (by simp; omega), List.getElem?_eq_none (by simpa using hi)]
    rfl

/-- A preview has the rows up to the line where they stop. -/
theorem exists_render (hlines : ∀ t ∈ lines, '\n' ∉ t) (hline : 1 ≤ line)
    (hline' : line ≤ lines.length) (hcontext : 0 ≤ context) :
  ∃ stop, StopsAt lines (firstAround line context) (lastAround lines line context) stop
    ∧ render lines line context false = Text.unlines (rowsTo lines line context stop)
  := by
  have hfirst : 1 ≤ firstAround line context := Int.le_max_left _ _
  have hlast : lastAround lines line context ≤ lines.length := Int.min_le_left _ _
  have hle : firstAround line context ≤ lastAround lines line context := by
    rw [firstAround, lastAround]
    omega
  have hshown : ¬ (decide (context < 0) || lines.isEmpty) = true := by
    cases lines with
    | nil => simp at hline'; omega
    | cons t rest => simpa using hcontext
  let texts := (between lines (firstAround line context) (lastAround lines line context)).map
    Text.sanitize
  have hne : texts ≠ [] := by
    apply List.ne_nil_of_length_pos
    rw [List.length_map, length_between hfirst hle hlast]
    omega
  have htexts : ∀ t ∈ texts, '\n' ∉ t := by
    intro t ht
    obtain ⟨u, hu, rfl⟩ := List.mem_map.mp ht
    apply Text.lineFeed_notMem_sanitize
    exact hlines u (List.mem_of_mem_take (List.mem_of_mem_drop hu))
  obtain ⟨count, hcount, hcut⟩ := Text.shown_cutAt hne htexts
  have hstops := StopsAt.of_shown hfirst hle hlast hcount
  refine ⟨_, hstops, ?_⟩
  have hrows : rowsTo lines line context (firstAround line context + count - 1) ≠ [] := by
    apply List.ne_nil_of_length_pos
    have hpos := hcount.pos
    rw [rowsTo, numbers, List.length_map, List.length_map, List.length_range]
    omega
  rw [← Text.join_lineFeed hrows, ← rows_take hfirst hstops.le_last, ← hcut,
    ← Text.join_lineFeed hne, render, if_neg hshown]
  rfl

/-- Of the rows up to a line, the row of the line in question has the mark. -/
theorem marked_rowsTo (hcontext : 0 ≤ context) (hline : 1 ≤ line) (stop : Int) :
  (rowsTo lines line context stop).filter (·.head? == some '>')
    = if line ≤ stop then [rowOf lines line context line] else []
  := by
  have hmark (number : Int) : ((rowOf lines line context number).head? == some '>')
      = decide (number = line) := by
    by_cases h : number = line <;> simp [rowOf, h]
  have hfirst : firstAround line context ≤ line := by
    rw [firstAround]
    omega
  have hcount : (numbers (firstAround line context) stop).filter (· = line)
      = if line ≤ stop then [line] else [] := by
    rw [List.filter_eq]
    split
    · rename_i hstop
      rw [List.count_eq_one_of_mem (nodup_numbers _ _) (mem_numbers_iff.mpr ⟨hfirst, hstop⟩)]
      rfl
    · rename_i hstop
      rw [List.count_eq_zero.mpr fun hmem => hstop (mem_numbers_iff.mp hmem).2]
      rfl
  rw [rowsTo, List.filter_map]
  simp only [Function.comp_def, hmark, hcount]
  split <;> rfl

theorem unlines_rowsTo_inj {stop stop' : Int} (hstop : firstAround line context ≤ stop)
    (hle : stop ≤ stop') :
  Text.unlines (rowsTo lines line context stop) = Text.unlines (rowsTo lines line context stop')
    ↔ stop = stop'
  := by
  constructor
  · intro heq
    have hrows : rowsTo lines line context stop'
        = rowsTo lines line context stop
          ++ (numbers (stop + 1) stop').map (rowOf lines line context) := by
      rw [rowsTo, numbers_append hstop hle, List.map_append]
      rfl
    rw [hrows, Text.unlines_append] at heq
    have hnone := Text.unlines_eq_nil_iff.mp (List.self_eq_append_right.mp heq)
    have hempty : stop + 1 ∉ numbers (stop + 1) stop' := by
      rw [List.map_eq_nil_iff.mp hnone]
      apply List.not_mem_nil
    rw [mem_numbers_iff] at hempty
    omega
  · rintro rfl
    rfl

/-- The preview of the lines around a line has one row for each of them, with its number and its
text, in their order, up to the last one that is not blank.  So the blank ones at the end have no
row, other than the first one of all, and the mark is on the row of the line in question unless that
line is one of them. -/
theorem render_rows (hlines : ∀ t ∈ lines, '\n' ∉ t) (hline : 1 ≤ line)
    (hline' : line ≤ lines.length) (hcontext : 0 ≤ context) :
  ∃ stop, StopsAt lines (firstAround line context) (lastAround lines line context) stop
    ∧ render lines line context false = Text.unlines (rowsTo lines line context stop)
    ∧ (rowsTo lines line context stop).filter (·.head? == some '>')
      = (if line ≤ stop then [rowOf lines line context line] else [])
    ∧ (render lines line context false
        = Text.unlines (rowsTo lines line context (lastAround lines line context))
      ↔ firstAround line context = lastAround lines line context
        ∨ Cursor.lineText lines (lastAround lines line context) ≠ [])
  := by
  obtain ⟨stop, hstops, hrender⟩ := exists_render hlines hline hline' hcontext
  refine ⟨stop, hstops, hrender, marked_rowsTo hcontext hline stop, ?_⟩
  rw [hrender, unlines_rowsTo_inj hstops.first_le hstops.le_last]
  constructor
  · rintro rfl
    exact hstops.filled.imp_left Eq.symm
  · intro hlast
    apply Int.le_antisymm hstops.le_last
    apply Int.not_lt.mp
    intro hlt
    rcases hlast with hone | hfilled
    · have := hstops.first_le
      omega
    · exact hfilled (hstops.blank _ hlt (Int.le_refl _))

/-- A blank line between two others has its row, and its mark. -/
theorem render_rows_blank_inside :
  render ["a".toList, [], "b".toList] 2 1 false
    = Text.unlines (rowsTo ["a".toList, [], "b".toList] 2 1 3)
  := by
  have hlines : ∀ t ∈ ["a".toList, [], "b".toList], '\n' ∉ t := by decide
  obtain ⟨_, _, _, _, hall⟩ := @render_rows _ 2 1 hlines (by decide) (by decide) (by decide)
  exact hall.mpr (.inr (by decide))

/-- A blank line at the end has none, also if it is the line in question: then there are fewer rows
than lines, and none of them has the mark. -/
theorem render_blank_line_at_end :
  ¬ (∀ (lines : List Text) (line context : Int), lines ≠ [] →
      (∀ t ∈ lines, '\r' ∉ t ∧ '\n' ∉ t) → 1 ≤ line → line ≤ lines.length → 0 ≤ context →
      render lines line context false
        = Text.unlines (rowsTo lines line context (lastAround lines line context)))
    ∧ (Text.cutAt '\n' (render ["a".toList, []] 2 3 false)).filter (·.head? == some '>') = []
  := by
  constructor
  · intro h
    have hrows := h ["a".toList, []] 2 3 (by decide) (by decide) (by decide) (by decide) (by decide)
    revert hrows
    decide
  · decide

end Preview

end TagNavigator
