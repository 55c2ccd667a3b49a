import TagNavigator.Proofs.Tag.Records
import TagNavigator.Proofs.Tag.WrittenCommand

/-!
# The fields of a line

A line of an index has a tag, a defining file and a search command, with runs of spaces and tabs
between them, and a line end that belongs to none of them.  A line without a defining file is
rejected, and so is a record without a search command, but for one case: where spaces or tabs stand
in front of the missing field, it is read as an empty one with the line end in it
(`rejects_missing_field`).
-/

namespace TagNavigator.TagRecord

open TagCommand (LineEnd)

/-- The text `t` is a field, a run of separators, and `rest`, which has no separator in front. -/
structure FieldThen (t field rest : Text) : Prop where
  exists_separator : ∃ separator, Separates separator ∧ t = field ++ separator ++ rest
  isField : ∀ c ∈ field, isSeparator c = false
  starts : ∀ c, rest.head? = some c → isSeparator c = false

/-- The line without its line end: a line feed, with or without a carriage return before it. -/
def body (line : Text) : Text :=
  match line.reverse with
  | '\n' :: '\r' :: before => before.reverse
  | '\n' :: before => before.reverse
  | _ => line

/-- Something is left of the line after the tag and the separators behind it. -/
def HasFile (line : Text) : Prop :=
  ∃ tag rest, FieldThen (body line) tag rest ∧ rest ≠ []

/-- Something is left of the line after the defining file and the separators behind it. -/
def HasCommand (line : Text) : Prop :=
  ∃ tag rest file command, FieldThen (body line) tag rest ∧ FieldThen rest file command
    ∧ command ≠ []

/-- The line ends with the separators behind the tag. -/
def EndsAfterTag (line : Text) : Prop :=
  ∃ tag, FieldThen (body line) tag []

/-- The line ends with the separators behind the defining file. -/
def EndsAfterFile (line : Text) : Prop :=
  ∃ tag rest file, FieldThen (body line) tag rest ∧ FieldThen rest file []

variable {t field rest line : Text}

/-! ### Splitting off a field -/

theorem dropWhile_of_starts {p : Char → Bool} (h : ∀ c, rest.head? = some c → p c = false) :
  rest.dropWhile p = rest
  := by
  cases rest with
  | nil => rfl
  | cons c rest => rw [List.dropWhile_cons_of_neg (by simp [h c rfl])]

theorem FieldThen.splitField (h : FieldThen t field rest) :
  splitField t = some (field, rest)
  := by
  obtain ⟨separator, hseparates, rfl⟩ := h.exists_separator
  rw [splitField_append h.isField hseparates, dropWhile_of_starts h.starts]

theorem starts_dropWhile (p : Char → Bool) (t : Text) :
  ∀ c, (t.dropWhile p).head? = some c → p c = false
  := by
  intro c hc
  have hhead := List.head?_dropWhile_not p t
  rw [hc] at hhead
  exact hhead

theorem fieldThen_of_splitField (h : splitField t = some (field, rest)) :
  FieldThen t field rest
  := by
  rw [splitField] at h
  split at h
  · cases h
  · rename_i hne
    cases h
    obtain ⟨c, more, hrest⟩ := List.exists_cons_of_ne_nil
      (mt List.isEmpty_iff.mpr hne : t.dropWhile (!isSeparator ·) ≠ [])
    have hc : isSeparator c = true := by
      simpa using starts_dropWhile (!isSeparator ·) t c (by rw [hrest, List.head?_cons])
    constructor
    · refine ⟨(t.dropWhile (!isSeparator ·)).takeWhile isSeparator, ⟨?_, ?_⟩, ?_⟩
      · rw [hrest, List.takeWhile_cons_of_pos hc]
        exact List.cons_ne_nil _ _
      · intro c hc
        exact List.mem_takeWhile_imp hc
      · rw [List.append_assoc, List.takeWhile_append_dropWhile, List.takeWhile_append_dropWhile]
    · intro c hc
      simpa using List.mem_takeWhile_imp hc
    · exact starts_dropWhile isSeparator _

theorem splitField_eq_some_iff :
  splitField t = some (field, rest) ↔ FieldThen t field rest
  := ⟨fieldThen_of_splitField, FieldThen.splitField⟩

/-- There is no field to split off just if nothing is left behind one, separators at the end of the
text apart. -/
theorem splitField_none_iff_missing (t : Text) :
  (splitField t = none ↔ ¬ ∃ field rest, FieldThen t field rest ∧ rest ≠ [])
    ↔ ¬ ∃ field, FieldThen t field []
  := by
  simp only [← splitField_eq_some_iff]
  cases h : splitField t with
  | none => simp
  | some f =>
      obtain ⟨field, rest⟩ := f
      by_cases hrest : rest = []
      · simp [hrest]
      · simp [hrest, eq_comm]

/-! ### The line end -/

/-- Characters other than separators, at the end of a text, belong to what is left. -/
theorem FieldThen.append (h : FieldThen t field rest) {e : Text}
    (he : ∀ c ∈ e, isSeparator c = false) :
  FieldThen (t ++ e) field (rest ++ e)
  := by
  obtain ⟨separator, hseparates, rfl⟩ := h.exists_separator
  refine ⟨⟨separator, hseparates, by simp⟩, h.isField, ?_⟩
  intro c hc
  cases rest with
  | nil => exact he c (List.mem_of_mem_head? hc)
  | cons d rest => exact h.starts c hc

theorem splitField_append_eq_none_iff {e : Text} (he : ∀ c ∈ e, isSeparator c = false) :
  splitField (t ++ e) = none ↔ splitField t = none
  := by
  simp only [Lookup.splitField_eq_none_iff, List.forall_mem_append, and_iff_left he]

theorem exists_lineEnd (line : Text) :
  ∃ e, LineEnd e ∧ line = body line ++ e
  := by
  unfold body
  split
  · rename_i before h
    refine ⟨_, .carriageReturn, ?_⟩
    rw [← List.reverse_reverse line, h]
    simp
  · rename_i before _ h
    refine ⟨_, .lineFeed, ?_⟩
    rw [← List.reverse_reverse line, h]
    simp
  · exact ⟨_, .none, (List.append_nil _).symm⟩

theorem not_isSeparator_of_lineEnd {e : Text} (h : LineEnd e) :
  ∀ c ∈ e, isSeparator c = false
  := by
  cases h <;> simp [isSeparator]

/-! ### The parser -/

variable {index : Path} {number : Nat} {currentFile : Option Path}

theorem parse_error_iff {e : FormatError} :
  parse line index number currentFile = .error e
    ↔ splitField (body line) = none ∧ e = ⟨index, number⟩
  := by
  obtain ⟨lineEnd, hend, hline⟩ := exists_lineEnd line
  rw [← splitField_append_eq_none_iff (not_isSeparator_of_lineEnd hend), ← hline, parse]
  cases splitField line <;> simp [eq_comm]

/-- A line that is accepted is a tag, separators, and the rest of the record, and the line end. -/
theorem parse_of_fieldThen {tag : Text} (h : FieldThen (body line) tag rest) :
  ∃ e, LineEnd e
    ∧ parse line index number currentFile
      = .ok ⟨tag, eligibleName tag currentFile, rest ++ e, index, number⟩
  := by
  obtain ⟨e, hend, hline⟩ := exists_lineEnd line
  have hsplit := (h.append (not_isSeparator_of_lineEnd hend)).splitField
  rw [← hline] at hsplit
  refine ⟨e, hend, ?_⟩
  rw [parse, hsplit]

theorem fieldThen_of_parse {r : TagRecord} (h : parse line index number currentFile = .ok r) :
  ∃ rest e, FieldThen (body line) r.rawTag rest ∧ LineEnd e
    ∧ r = ⟨r.rawTag, eligibleName r.rawTag currentFile, rest ++ e, index, number⟩
  := by
  cases hsplit : splitField (body line) with
  | none =>
      rw [parse_error_iff.mpr ⟨hsplit, rfl⟩] at h
      cases h
  | some f =>
      obtain ⟨tag, rest⟩ := f
      have hfield := fieldThen_of_splitField hsplit
      obtain ⟨e, hend, hparse⟩ := parse_of_fieldThen hfield
      rw [hparse] at h
      cases h
      exact ⟨rest, e, hfield, hend, rfl⟩

theorem FieldThen.unique {field' rest' : Text} (h : FieldThen t field rest)
    (h' : FieldThen t field' rest') :
  field = field' ∧ rest = rest'
  := by
  have hsplit := h.splitField.symm.trans h'.splitField
  simpa using hsplit

theorem hasCommand_iff {tag : Text} (h : FieldThen (body line) tag rest) :
  HasCommand line ↔ ∃ file command, FieldThen rest file command ∧ command ≠ []
  := by
  constructor
  · rintro ⟨tag', rest', file, command, h', hcommand⟩
    obtain ⟨rfl, rfl⟩ := h.unique h'
    exact ⟨file, command, hcommand⟩
  · rintro ⟨file, command, hcommand⟩
    exact ⟨tag, rest, file, command, h, hcommand⟩

theorem endsAfterFile_iff {tag : Text} (h : FieldThen (body line) tag rest) :
  EndsAfterFile line ↔ ∃ file, FieldThen rest file []
  := by
  constructor
  · rintro ⟨tag', rest', file, h', hfile⟩
    obtain ⟨rfl, rfl⟩ := h.unique h'
    exact ⟨file, hfile⟩
  · rintro ⟨file, hfile⟩
    exact ⟨tag, rest, file, h, hfile⟩

/-- A line is rejected, and ends the records of its index, just if it has no defining file, and a
record is rejected just if its line has no search command: unless the line ends with the separators
in front of the missing field.  Then the line end is what is read as that field. -/
theorem rejects_missing_field (line : Text) (index : Path) (number : Nat)
    (currentFile : Option Path) :
  (((∃ e, parse line index number currentFile = .error e) ↔ ¬ HasFile line) ↔ ¬ EndsAfterTag line)
  ∧ (∀ r, parse line index number currentFile = .ok r →
    (((∃ e, r.fields = .error e) ↔ ¬ HasCommand line) ↔ ¬ EndsAfterFile line))
  ∧ (∀ e, parse line index number currentFile = .error e →
    e = ⟨index, number⟩ ∧ ∀ more, Index.readLines index currentFile number (line :: more)
      = ⟨[], some e⟩)
  ∧ (∀ r e, parse line index number currentFile = .ok r → r.fields = .error e →
    e = ⟨index, number⟩)
  ∧ (∀ tag, FieldThen (body line) tag [] → ∃ r, parse line index number currentFile = .ok r
    ∧ LineEnd r.remainder)
  ∧ (∀ tag rest file, FieldThen (body line) tag rest → FieldThen rest file [] →
    ∃ r e, parse line index number currentFile = .ok r ∧ r.fields = .ok (file, e) ∧ LineEnd e)
  := by
  refine ⟨?_, ?_, ?_, ?_, ?_, ?_⟩
  · simp only [parse_error_iff, exists_and_left, exists_eq, and_true]
    exact splitField_none_iff_missing (body line)
  · intro r hr
    obtain ⟨rest, e, hfield, hend, hrecord⟩ := fieldThen_of_parse hr
    rw [hasCommand_iff hfield, endsAfterFile_iff hfield, hrecord]
    simp only [Lookup.fields_error_iff, exists_eq_left, ← Lookup.splitField_eq_none_iff,
      splitField_append_eq_none_iff (not_isSeparator_of_lineEnd hend)]
    exact splitField_none_iff_missing rest
  · intro e he
    refine ⟨(parse_error_iff.mp he).2, ?_⟩
    intro more
    rw [Index.readLines, he]
  · intro r e hr he
    obtain ⟨rest, lineEnd, -, -, hrecord⟩ := fieldThen_of_parse hr
    rw [hrecord] at he
    exact (Lookup.fields_error_iff.mp he).1
  · intro tag htag
    obtain ⟨e, hend, hparse⟩ := parse_of_fieldThen htag
    exact ⟨_, hparse, hend⟩
  · intro tag rest file htag hfile
    obtain ⟨e, hend, hparse⟩ := parse_of_fieldThen htag
    have hfields := (hfile.append (not_isSeparator_of_lineEnd hend)).splitField
    refine ⟨_, e, hparse, ?_, hend⟩
    rw [fields, hfields]
    rfl

/-- A record without a search command, and without separators behind its defining file, is
rejected. -/
theorem rejects_missing_field_without_command :
  ∃ r e, parse "f\ta.c\r\n".toList ⟨.here, ["tags".toList]⟩ 1 none = .ok r
    ∧ r.fields = .error e ∧ ¬ HasCommand "f\ta.c\r\n".toList
  := by
  obtain ⟨-, hcommand, -, -, -, -⟩ :=
    rejects_missing_field "f\ta.c\r\n".toList ⟨.here, ["tags".toList]⟩ 1 none
  have hfield : FieldThen (body "f\ta.c\r\n".toList) "f".toList "a.c".toList :=
    fieldThen_of_splitField rfl
  have hfile : ¬ EndsAfterFile "f\ta.c\r\n".toList := by
    rw [endsAfterFile_iff hfield]
    rintro ⟨file, h⟩
    cases h.splitField
  obtain ⟨r, hr⟩ : ∃ r, parse "f\ta.c\r\n".toList ⟨.here, ["tags".toList]⟩ 1 none = .ok r :=
    ⟨_, rfl⟩
  have hiff := (hcommand r hr).mpr hfile
  cases hr
  exact ⟨_, _, rfl, rfl, hiff.mp ⟨_, rfl⟩⟩

/-- A tab behind the tag or a space behind the defining file, and nothing after it, is enough for
the line and for the record to be accepted. -/
theorem accepts_separators_at_end :
  ¬ (∀ line index number currentFile,
      (∃ e, parse line index number currentFile = .error e) ↔ ¬ HasFile line)
    ∧ ¬ (∀ line index number currentFile r, parse line index number currentFile = .ok r →
      ((∃ e, r.fields = .error e) ↔ ¬ HasCommand line))
  := by
  constructor
  · intro h
    have hfield : FieldThen (body "f\t\n".toList) "f".toList [] := fieldThen_of_splitField rfl
    have hmissing : ¬ HasFile "f\t\n".toList := by
      rintro ⟨tag, rest, hrest, hne⟩
      exact hne (hfield.unique hrest).2.symm
    obtain ⟨e, he⟩ := (h "f\t\n".toList ⟨.here, ["tags".toList]⟩ 1 none).mpr hmissing
    cases he
  · intro h
    have hfield : FieldThen (body "f\ta.c \n".toList) "f".toList "a.c ".toList :=
      fieldThen_of_splitField rfl
    have hfile : FieldThen "a.c ".toList "a.c".toList [] := fieldThen_of_splitField rfl
    have hmissing : ¬ HasCommand "f\ta.c \n".toList := by
      rw [hasCommand_iff hfield]
      rintro ⟨file, command, hcommand, hne⟩
      exact hne (hfile.unique hcommand).2.symm
    obtain ⟨e, he⟩ := (h "f\ta.c \n".toList ⟨.here, ["tags".toList]⟩ 1 none _ rfl).mpr hmissing
    cases he

end TagNavigator.TagRecord
