import TagNavigator.Text.Lines

/-!
# Lines of a text

The lines of a text are counted by its line ends (`countedLines`).  A buffer breaks the text, its
line ends made line feeds, at every line boundary.  So the lines of a buffer hold no boundary
(`unbroken_of_mem_bufferLines`), and its first lines are the counted ones just if these hold none
(`take_bufferLines_iff`).  A character in front of the text that is no boundary is in front of the
first line (`bufferLines_cons`).
-/

namespace TagNavigator.Text

variable {ends : Char → Bool} {c : Char} {t line : Text} {k : Nat}

/-- A line that no boundary breaks. -/
def Unbroken (line : Text) : Prop := ∀ c ∈ line, isLineBoundary c = false

instance (line : Text) : Decidable (Unbroken line) :=
  decidable_of_iff (line.all (!isLineBoundary ·)) (by simp [Unbroken])

/-- The lines of a text as they are counted by its line ends, of which a carriage return with a line
feed after it is one; one empty line for the empty text. -/
def countedLines (t : Text) : List Text :=
  match segments isLineEnd t with
  | [] => [[]]
  | lines => lines

/-! ### Segments -/

theorem segments_lineFeed (h : ends '\n' = true) (t : Text) :
  segments ends ('\n' :: t) = [] :: segments ends t
  := by
  rw [segments, if_pos h]
  nofun

theorem segments_cons_of_neg (hc : c ≠ '\r') (h : ends c = false) (t : Text) :
  segments ends (c :: t)
    = match segments ends t with
      | [] => [[c]]
      | s :: rest => (c :: s) :: rest
  := by
  have hpair : ∀ u, c = '\r' → t = '\n' :: u → False := by
    intro u hreturn
    exact absurd hreturn hc
  rw [segments.eq_3 ends c t hpair]
  exact if_neg (by simp [h])

theorem segments_eq_nil_iff :
  segments ends t = [] ↔ t = []
  := by
  fun_cases segments ends t <;> simp

theorem ne_of_not_isLineBoundary (h : isLineBoundary c = false) :
  c ≠ '\r'
  := by
  rintro rfl
  contradiction

theorem unbroken_of_mem_segments (h : line ∈ segments isLineBoundary t) :
  Unbroken line
  := by
  fun_induction segments isLineBoundary t generalizing line with
  | case1 => contradiction
  | case2 t ih =>
      rcases List.mem_cons.mp h with rfl | h
      · exact List.forall_mem_nil _
      · exact ih h
  | case3 b t hb hend ih =>
      rcases List.mem_cons.mp h with rfl | h
      · exact List.forall_mem_nil _
      · exact ih h
  | case4 b t hb hend hrest ih =>
      obtain rfl := List.mem_singleton.mp h
      exact List.forall_mem_singleton.mpr (eq_false_of_ne_true hend)
  | case5 b t hb hend first more hrest ih =>
      rw [hrest] at ih
      rcases List.mem_cons.mp h with rfl | h
      · exact List.forall_mem_cons.mpr ⟨eq_false_of_ne_true hend, ih List.mem_cons_self⟩
      · exact ih (List.mem_cons_of_mem _ h)

theorem unifyLineEnds_cons_of_ne (hc : c ≠ '\r') (t : Text) :
  unifyLineEnds (c :: t) = c :: unifyLineEnds t
  := by
  rw [unifyLineEnds, if_neg hc]
  rintro _ rfl
  exact absurd rfl hc

/-- A line end becomes a line feed. -/
theorem unifyLineEnds_lineEnd (hc : isLineEnd c = true) (h : ∀ u, c = '\r' → t ≠ '\n' :: u) :
  unifyLineEnds (c :: t) = '\n' :: unifyLineEnds t
  := by
  rw [unifyLineEnds]
  · rcases Bool.or_eq_true_iff.mp hc with hc | hc
    · rw [if_pos (beq_iff_eq.mp hc)]
    · obtain rfl := beq_iff_eq.mp hc
      rfl
  · exact h

/-- The segments between boundaries are those between line ends as far as these are unbroken. -/
theorem take_segments_unifyLineEnds (h : ∀ line ∈ (segments isLineEnd t).take k, Unbroken line) :
  (segments isLineBoundary (unifyLineEnds t)).take k = (segments isLineEnd t).take k
  := by
  have hlineFeed : isLineBoundary '\n' = true := rfl
  fun_induction segments isLineEnd t generalizing k with
  | case1 => rfl
  | case2 t ih =>
      rw [unifyLineEnds, segments_lineFeed hlineFeed]
      cases k with
      | zero => rfl
      | succ k =>
          rw [List.take_succ_cons, List.take_succ_cons, ih (List.forall_mem_cons.mp h).2]
  | case3 c t hc hend ih =>
      rw [unifyLineEnds_lineEnd hend hc, segments_lineFeed hlineFeed]
      cases k with
      | zero => rfl
      | succ k =>
          rw [List.take_succ_cons, List.take_succ_cons, ih (List.forall_mem_cons.mp h).2]
  | case4 c t hc hend hrest ih =>
      cases k with
      | zero => rfl
      | succ k =>
          obtain rfl := segments_eq_nil_iff.mp hrest
          have hplain := (List.forall_mem_cons.mp h).1 c List.mem_cons_self
          rw [unifyLineEnds_cons_of_ne (ne_of_not_isLineBoundary hplain),
            segments_cons_of_neg (ne_of_not_isLineBoundary hplain) hplain]
          rfl
  | case5 c t hc hend first more hrest ih =>
      cases k with
      | zero => rfl
      | succ k =>
          obtain ⟨hfirst, hmore⟩ := List.forall_mem_cons.mp h
          obtain ⟨hplain, hfirst⟩ := List.forall_mem_cons.mp hfirst
          rw [hrest] at ih
          have hrest := ih (k := k + 1) (List.forall_mem_cons.mpr ⟨hfirst, hmore⟩)
          rw [unifyLineEnds_cons_of_ne (ne_of_not_isLineBoundary hplain),
            segments_cons_of_neg (ne_of_not_isLineBoundary hplain) hplain]
          cases hu : segments isLineBoundary (unifyLineEnds t) with
          | nil =>
              rw [hu] at hrest
              cases hrest
          | cons s rest =>
              rw [hu] at hrest
              obtain ⟨rfl, htake⟩ := List.cons.inj hrest
              dsimp only
              rw [List.take_succ_cons, List.take_succ_cons, htake]

/-! ### Lines -/

theorem countedLines_of_ne_nil (h : t ≠ []) :
  countedLines t = segments isLineEnd t
  := by
  rw [countedLines]
  split
  · rename_i hnone
    exact absurd (segments_eq_nil_iff.mp hnone) h
  · rfl

theorem bufferLines_of_ne_nil (h : t ≠ []) :
  bufferLines t = segments isLineBoundary t
  := by
  rw [bufferLines]
  split
  · rename_i hnone
    exact absurd (segments_eq_nil_iff.mp hnone) h
  · rfl

theorem bufferLines_ne_nil (t : Text) :
  bufferLines t ≠ []
  := by
  rw [bufferLines]
  split
  · exact List.cons_ne_nil _ _
  next hne => exact hne

theorem unifyLineEnds_ne_nil (h : t ≠ []) :
  unifyLineEnds t ≠ []
  := by
  fun_cases unifyLineEnds t
  · exact absurd rfl h
  · apply List.cons_ne_nil
  · apply List.cons_ne_nil

/-- No line of a buffer holds a boundary. -/
theorem unbroken_of_mem_bufferLines (h : line ∈ bufferLines t) :
  Unbroken line
  := by
  rw [bufferLines] at h
  split at h
  · obtain rfl := List.mem_singleton.mp h
    exact List.forall_mem_nil _
  · exact unbroken_of_mem_segments h

/-- The first lines of a buffer are the first counted ones just if these hold no boundary. -/
theorem take_bufferLines_iff :
  (bufferLines (unifyLineEnds t)).take k = (countedLines t).take k
    ↔ ∀ line ∈ (countedLines t).take k, Unbroken line
  := by
  constructor
  · intro h line hline
    rw [← h] at hline
    exact unbroken_of_mem_bufferLines (List.mem_of_mem_take hline)
  · intro h
    by_cases ht : t = []
    · subst ht
      rfl
    · rw [countedLines_of_ne_nil ht] at h ⊢
      rw [bufferLines_of_ne_nil (unifyLineEnds_ne_nil ht)]
      exact take_segments_unifyLineEnds h

/-- A character that is no boundary lengthens the first line of what follows it. -/
theorem bufferLines_cons (h : isLineBoundary c = false) (t : Text) :
  bufferLines (c :: t) = (bufferLines t).modifyHead (c :: ·)
  := by
  rw [bufferLines_of_ne_nil (List.cons_ne_nil c t),
    segments_cons_of_neg (ne_of_not_isLineBoundary h) h, bufferLines]
  cases segments isLineBoundary t <;> rfl

/-- A text starts as its first line does, unless that line is empty. -/
theorem head?_of_head?_countedLines (h : line ∈ (countedLines t).head?) (hc : c ∈ line.head?) :
  c ∈ t.head?
  := by
  by_cases ht : t = []
  · subst ht
    obtain rfl := Option.some.inj h
    contradiction
  · rw [countedLines_of_ne_nil ht] at h
    revert h
    fun_cases segments isLineEnd t with
    | case1 => exact absurd rfl ht
    | case2 t =>
        rintro h
        obtain rfl := Option.some.inj h
        contradiction
    | case3 b t =>
        rintro h
        obtain rfl := Option.some.inj h
        contradiction
    | case4 b t =>
        rintro h
        obtain rfl := Option.some.inj h
        exact hc
    | case5 b t =>
        rintro h
        obtain rfl := Option.some.inj h
        exact hc

end TagNavigator.Text
