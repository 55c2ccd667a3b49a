import TagNavigator.Proofs.Tag.ExtensionFields
import TagNavigator.Proofs.Text.Blank

/-!
# Line commands in fields

The field of a line command holds the command up to the marker of extension fields or the end of the
line, whichever comes first (`commandText_iff`).
-/

namespace TagNavigator

namespace Text

variable {mark t : Text}

theorem before_of_not_occurs (h : occurs mark t = false) :
  before mark t = t
  := by
  induction t with
  | nil => rfl
  | cons c t ih =>
      obtain ⟨hhere, hlater⟩ := Bool.or_eq_false_iff.mp h
      rw [before, hhere, if_neg Bool.false_ne_true, ih hlater]

theorem exists_before_append (mark t : Text) :
  ∃ rest, t = before mark t ++ rest ∧ (rest = [] ∨ mark <+: rest)
  := by
  induction t with
  | nil => exact ⟨[], rfl, .inl rfl⟩
  | cons c t ih =>
      rw [before]
      split
      · rename_i h
        exact ⟨c :: t, rfl, .inr (List.isPrefixOf_iff_prefix.mp h)⟩
      · obtain ⟨rest, heq, hrest⟩ := ih
        exact ⟨rest, congrArg (c :: ·) heq, hrest⟩

/-- A mark does not occur before the first place where it occurs. -/
theorem not_occurs_before (hmark : mark ≠ []) (t : Text) :
  occurs mark (before mark t) = false
  := by
  have hnil : occurs mark [] = false := List.isEmpty_eq_false_iff.mpr hmark
  induction t with
  | nil => exact hnil
  | cons c t ih =>
      rw [before]
      split
      · exact hnil
      · rename_i h
        rw [occurs, ih, Bool.or_false, ← Bool.not_eq_true, List.isPrefixOf_iff_prefix]
        rw [List.isPrefixOf_iff_prefix] at h
        obtain ⟨rest, heq, -⟩ := exists_before_append mark t
        intro hprefix
        apply h
        rw [heq]
        exact hprefix.trans (List.prefix_append (c :: before mark t) rest)

end Text

namespace TagCommand

/-- What a line command ends before: the marker of extension fields, a line end, or nothing. -/
def EndsCommand (rest : Text) : Prop :=
  extensionMarker <+: rest ∨ ∀ c ∈ rest.head?, Text.isLineEnd c = true

/-- The text of the line command in a field: it starts after the blanks, and goes up to the first
marker of extension fields or line end. -/
structure CommandText (field text : Text) : Prop where
  rest : ∃ rest, unindented field = text ++ rest ∧ EndsCommand rest
  lineEnd : ∀ c ∈ text, Text.isLineEnd c = false
  marker : ¬ extensionMarker <:+: text

variable {field text t : Text}

/-- The line command that is read from a text without blanks before it. -/
def lineCommand (t : Text) : Text :=
  (Text.before extensionMarker t).takeWhile (!Text.isLineEnd ·)

theorem dropExtension_of_lineCommand (h : delimiter? t = none) :
  dropExtension t = Text.before extensionMarker t
  := by
  cases hoccurs : Text.occurs extensionMarker t with
  | false => rw [dropExtension_of_not_occurs hoccurs, Text.before_of_not_occurs hoccurs]
  | true =>
      cases t with
      | nil => rfl
      | cons c t =>
          have hc : isDelimiter c = false := by simpa [delimiter?] using h
          simp [dropExtension, hoccurs, hc]

theorem toSearch?_eq_none (magic : Bool) (h : delimiter? t = none) :
  toSearch? magic t = none
  := by
  cases t with
  | nil => rfl
  | cons c t =>
      have hc : isDelimiter c = false := by simpa [delimiter?] using h
      simp [toSearch?, hc]

theorem ofField_of_isLineCommand (magic : Bool) (h : IsLineCommand field) :
  ofField magic field = ⟨lineCommand (unindented field), false⟩
  := by
  have hdrop := dropExtension_of_lineCommand h
  have hbefore : delimiter? (Text.before extensionMarker (unindented field)) = none := by
    obtain ⟨rest, heq, -⟩ := Text.exists_before_append extensionMarker (unindented field)
    rw [IsLineCommand, heq] at h
    cases hcommand : Text.before extensionMarker (unindented field) with
    | nil => rfl
    | cons c t =>
        rw [hcommand] at h
        exact h
  rw [unindented] at hdrop hbefore
  rw [ofField, hdrop, toSearch?_eq_none magic hbefore]
  rfl

/-! ### The text of the command -/

/-- The marker does not start in the text of a command and end in what comes after it. -/
theorem not_extensionMarker_isPrefix {c : Char} {rest : Text}
    (hmarker : ¬ extensionMarker <:+: c :: t) (hrest : EndsCommand rest) :
  ¬ extensionMarker <+: c :: (t ++ rest)
  := by
  rintro ⟨u, heq⟩
  obtain ⟨rfl, htail⟩ := List.cons.inj heq
  cases t with
  | nil =>
      obtain rfl : '"' :: u = rest := htail
      rcases hrest with ⟨v, hv⟩ | hrest
      · cases hv
      · exact absurd (hrest '"' rfl) (by decide)
  | cons d t =>
      obtain ⟨rfl, -⟩ := List.cons.inj htail
      exact hmarker ⟨[], t, rfl⟩

theorem lineCommand_of_endsCommand {rest : Text} (hrest : EndsCommand rest) :
  lineCommand rest = []
  := by
  rcases hrest with ⟨u, rfl⟩ | hhead
  · rfl
  · cases rest with
    | nil => rfl
    | cons c rest =>
        have hc := hhead c rfl
        rw [lineCommand, Text.before]
        split
        · rfl
        · exact List.takeWhile_cons_of_neg (by simp [hc])

/-- The text of a command is a part of its field. -/
theorem CommandText.trim_isInfix (h : CommandText field text) :
  Text.trim text <:+: field
  := by
  obtain ⟨rest, heq, -⟩ := h.rest
  have hunindented : unindented field <:+ field := List.dropWhile_suffix _
  have htext : text <+: unindented field := ⟨rest, heq.symm⟩
  exact (Text.trimBy_isInfix Text.isBlank text).trans (htext.isInfix.trans hunindented.isInfix)

theorem CommandText.eq_lineCommand (h : CommandText field text) :
  text = lineCommand (unindented field)
  := by
  obtain ⟨⟨rest, heq, hrest⟩, hlineEnd, hmarker⟩ := h
  rw [heq]
  clear heq
  induction text with
  | nil => exact (lineCommand_of_endsCommand hrest).symm
  | cons c text ih =>
      obtain ⟨hc, htext⟩ := List.forall_mem_cons.mp hlineEnd
      have hnot := not_extensionMarker_isPrefix hmarker hrest
      have hlater := ih htext fun h => hmarker (h.trans (List.suffix_cons c text).isInfix)
      rw [← List.isPrefixOf_iff_prefix] at hnot
      rw [lineCommand, List.cons_append, Text.before, if_neg hnot,
        List.takeWhile_cons_of_pos (by simp [hc])]
      exact congrArg (c :: ·) hlater

theorem commandText_lineCommand (field : Text) :
  CommandText field (lineCommand (unindented field))
  := by
  generalize hcommand : Text.before extensionMarker (unindented field) = command
  obtain ⟨rest, heq, hrest⟩ := Text.exists_before_append extensionMarker (unindented field)
  have hmarker : Text.occurs extensionMarker (Text.before extensionMarker (unindented field))
      = false := Text.not_occurs_before (by decide) _
  rw [hcommand] at heq hmarker
  rw [lineCommand, hcommand]
  constructor
  · refine ⟨command.dropWhile (!Text.isLineEnd ·) ++ rest, ?_, ?_⟩
    · rw [← List.append_assoc, List.takeWhile_append_dropWhile, heq]
    · cases hcut : command.dropWhile (!Text.isLineEnd ·) with
      | nil =>
          rcases hrest with rfl | hrest
          · exact .inr nofun
          · exact .inl hrest
      | cons c cut =>
          right
          rintro _ ⟨⟩
          have hnot := List.head?_dropWhile_not (!Text.isLineEnd ·) command
          rw [hcut] at hnot
          simpa using hnot
  · intro c hc
    simpa using List.all_eq_true.mp List.all_takeWhile c hc
  · have hcut := Text.not_occurs_of_isInfix hmarker
      (List.takeWhile_prefix (!Text.isLineEnd ·)).isInfix
    rw [← Text.occurs_iff_isInfix, hcut]
    exact Bool.false_ne_true

/-- The field of a line command is read as its text. -/
theorem commandText_iff (magic : Bool) (h : IsLineCommand field) :
  CommandText field text ↔ ofField magic field = ⟨text, false⟩
  := by
  rw [ofField_of_isLineCommand magic h]
  constructor
  · intro htext
    rw [htext.eq_lineCommand]
  · intro heq
    obtain ⟨rfl, -⟩ := TagCommand.mk.inj heq
    exact commandText_lineCommand field

end TagCommand

end TagNavigator
