import TagNavigator.Proofs.Tag.FirstMatch

/-!
# Records line by line

The records of an index are those in the segments of its content, each decoded on its own
(`LineByLine`).  Which lines hold records can be told from the bytes: those with a space or a tab,
whatever else is in them.  So ill-formed bytes in one line are nothing to the records in the others.
A record that is written with its three fields, and with runs of spaces and tabs between them, is
read back with these fields.
-/

namespace TagNavigator

/-! ### Written records -/

namespace TagRecord

/-- The text is a run of spaces and tabs. -/
structure Separates (t : Text) : Prop where
  ne_nil : t ≠ []
  isSeparator : ∀ c ∈ t, isSeparator c = true

/-- The text can stand in a line before a separator. -/
def IsField (t : Text) : Prop := ∀ c ∈ t, isSeparator c = false ∧ c ≠ '\n'

/-- The text can stand at the end of a line after a separator. -/
structure IsCommand (t : Text) : Prop where
  starts : ∃ c rest, t = c :: rest ∧ isSeparator c = false
  noLineFeed : ∀ c ∈ t, c ≠ '\n'

/-- The line that writes a record. -/
def written (tag separator file separator' command : Text) : Text :=
  tag ++ separator ++ (file ++ separator' ++ (command ++ ['\n']))

variable {tag separator file separator' command : Text}

theorem splitField_append (hfield : ∀ c ∈ tag, isSeparator c = false)
    (hseparates : Separates separator) (rest : Text) :
  splitField (tag ++ separator ++ rest) = some (tag, rest.dropWhile isSeparator)
  := by
  have hall : ∀ c ∈ tag, (!isSeparator c) = true := by
    intro c hc
    rw [hfield c hc]
    rfl
  obtain ⟨c, more, rfl⟩ := List.exists_cons_of_ne_nil hseparates.ne_nil
  have hc := hseparates.isSeparator c List.mem_cons_self
  rw [splitField, List.append_assoc, List.dropWhile_append_of_pos hall,
    List.takeWhile_append_of_pos hall, List.cons_append, List.dropWhile_cons_of_neg (by simp [hc]),
    List.takeWhile_cons_of_neg (by simp [hc]), List.append_nil, ← List.cons_append,
    List.dropWhile_append_of_pos hseparates.isSeparator]
  rfl

theorem dropWhile_isSeparator (hfield : IsField file) (hne : file ≠ []) (rest : Text) :
  (file ++ rest).dropWhile isSeparator = file ++ rest
  := by
  obtain ⟨c, more, rfl⟩ := List.exists_cons_of_ne_nil hne
  have hc := (hfield c List.mem_cons_self).1
  rw [List.cons_append, List.dropWhile_cons_of_neg (by simp [hc])]

theorem IsCommand.dropWhile (h : IsCommand command) (rest : Text) :
  (command ++ rest).dropWhile isSeparator = command ++ rest
  := by
  obtain ⟨c, more, rfl, hc⟩ := h.starts
  rw [List.cons_append, List.dropWhile_cons_of_neg (by simp [hc])]

section

variable (htag : IsField tag) (hseparates : Separates separator) (hfile : IsField file)
  (hne : file ≠ []) (hseparates' : Separates separator') (hcommand : IsCommand command)

include htag hseparates

section

include hfile hne

/-- The record that a written line holds has the fields that were written. -/
theorem parse_written (index : Path) (number : Nat) (currentFile : Option Path) :
  parse (written tag separator file separator' command) index number currentFile
    = .ok ⟨tag, eligibleName tag currentFile, file ++ separator' ++ (command ++ ['\n']), index,
      number⟩
  := by
  rw [parse, written, splitField_append (fun c hc => (htag c hc).1) hseparates, List.append_assoc,
    dropWhile_isSeparator hfile hne]

end

include hfile hseparates' hcommand

theorem afterLineFeeds_written :
  Text.afterLineFeeds (written tag separator file separator' command)
    = [written tag separator file separator' command]
  := by
  have hseparator {t : Text} (h : Separates t) : ∀ c ∈ t, c ≠ '\n' := by
    rintro c hc rfl
    exact absurd (h.isSeparator _ hc) (by decide)
  have hline : ∀ c ∈ tag ++ separator ++ (file ++ separator' ++ command), c ≠ '\n' := by
    intro c hc
    simp only [List.mem_append] at hc
    rcases hc with (hc | hc) | (hc | hc) | hc
    · exact (htag c hc).2
    · exact hseparator hseparates c hc
    · exact (hfile c hc).2
    · exact hseparator hseparates' c hc
    · exact hcommand.noLineFeed c hc
  have hwritten : written tag separator file separator' command
      = tag ++ separator ++ (file ++ separator' ++ command) ++ '\n' :: [] := by
    simp [written]
  rw [hwritten, Text.afterLineFeeds_line hline]
  rfl

include hne

/-- A record that is written on a line is read from it. -/
theorem readLines_written (index : Path) (number : Nat) (currentFile : Option Path) :
  ∃ r, Index.readLines index currentFile number
      (Text.afterLineFeeds (written tag separator file separator' command)) = ⟨[r], none⟩
    ∧ r.line = number ∧ r.rawTag = tag ∧ r.fields = .ok (file, command ++ ['\n'])
  := by
  rw [afterLineFeeds_written htag hseparates hfile hseparates' hcommand, Index.readLines,
    parse_written htag hseparates hfile hne]
  refine ⟨_, rfl, rfl, rfl, ?_⟩
  rw [fields, splitField_append (fun c hc => (hfile c hc).1) hseparates', hcommand.dropWhile]

end

end TagRecord

/-! ### Lines and records -/

namespace Index

/-- The byte of a space or of a tab is in the line. -/
def HasSeparator (line : Bytes) : Prop := 0x20 ∈ line ∨ 0x09 ∈ line

instance (line : Bytes) : Decidable (HasSeparator line) :=
  inferInstanceAs (Decidable (_ ∨ _))

/-- The records are those in the lines, each with the number of its line, up to the first line
without a separator.  The first line has the number `n`. -/
structure LineByLine (index : Path) (currentFile : Option Path) (n : Nat) (lines : List Bytes)
    (reading : Reading) : Prop where
  record_iff : ∀ k r, reading.records[k]? = some r
    ↔ (∃ line, lines[k]? = some line ∧ parseLine index currentFile (n + k) line = .ok r)
      ∧ ∀ j < k, ∀ line, lines[j]? = some line → HasSeparator line
  stop_iff : ∀ e, reading.stop = some e
    ↔ ∃ k line, lines[k]? = some line ∧ ¬ HasSeparator line ∧ e = ⟨index, n + k⟩
      ∧ ∀ j < k, ∀ line, lines[j]? = some line → HasSeparator line

variable {index : Path} {currentFile : Option Path} {n : Nat} {lines : List Bytes} {line : Bytes}

/-- Whether a line holds a record can be told from its bytes. -/
theorem hasSeparator_iff :
  HasSeparator line ↔ ∃ r, parseLine index currentFile n line = .ok r
  := by
  have hspace := Utf8.mem_decodeLossy_iff (a := 0x20) (by decide) (by decide) line
  have htab := Utf8.mem_decodeLossy_iff (a := 0x09) (by decide) (by decide) line
  rw [HasSeparator, ← hspace, ← htab, parseLine, TagRecord.parse]
  cases hsplit : TagRecord.splitField (Utf8.decodeLossy line) with
  | none =>
      have hnone := Lookup.splitField_eq_none_iff.mp hsplit
      simp only [reduceCtorEq, exists_false, iff_false, not_or]
      constructor
      · intro hmem
        exact absurd (hnone _ hmem) (by decide)
      · intro hmem
        exact absurd (hnone _ hmem) (by decide)
  | some field =>
      have hsome : ¬ ∀ c ∈ Utf8.decodeLossy line, TagRecord.isSeparator c = false := by
        rw [← Lookup.splitField_eq_none_iff, hsplit]
        exact Option.some_ne_none _
      simp only [not_forall, Bool.not_eq_false, TagRecord.isSeparator, Bool.or_eq_true,
        beq_iff_eq] at hsome
      obtain ⟨c, hc, hseparator⟩ := hsome
      simp only [Except.ok.injEq, exists_eq', iff_true]
      rcases hseparator with rfl | rfl
      · left
        exact hc
      · right
        exact hc

theorem hasSeparator_of_parseLine {r : TagRecord}
    (h : parseLine index currentFile n line = .ok r) :
  HasSeparator line
  := hasSeparator_iff.mpr ⟨r, h⟩

theorem parseLine_of_not_hasSeparator (h : ¬ HasSeparator line) :
  parseLine index currentFile n line = .error ⟨index, n⟩
  := by
  cases hparse : parseLine index currentFile n line with
  | error e => rw [parseLine_error hparse]
  | ok r => exact absurd (hasSeparator_of_parseLine hparse) h

/-- The lines up to a place, of which the first is `line`. -/
theorem forall_lt_succ_iff {P : Bytes → Prop} {k : Nat} :
  (∀ j < k + 1, ∀ l, (line :: lines)[j]? = some l → P l)
    ↔ P line ∧ ∀ j < k, ∀ l, lines[j]? = some l → P l
  := by
  constructor
  · intro h
    constructor
    · exact h 0 (Nat.succ_pos k) line rfl
    · intro j hj l hl
      exact h (j + 1) (Nat.succ_lt_succ hj) l hl
  · rintro ⟨hline, hlines⟩ j hj l hl
    cases j with
    | zero =>
        cases hl
        exact hline
    | succ j => exact hlines j (Nat.lt_of_succ_lt_succ hj) l hl

/-- A line without a separator ends the records. -/
theorem lineByLine_of_not_hasSeparator (h : ¬ HasSeparator line) :
  LineByLine index currentFile n (line :: lines) ⟨[], some ⟨index, n⟩⟩
  := by
  constructor
  · intro k r
    simp only [List.getElem?_nil, reduceCtorEq, false_iff]
    rintro ⟨⟨l, hl, hparse⟩, hbefore⟩
    cases k with
    | zero =>
        cases hl
        exact h (hasSeparator_of_parseLine hparse)
    | succ k => exact h (forall_lt_succ_iff.mp hbefore).1
  · intro e
    constructor
    · rintro ⟨⟩
      refine ⟨0, line, rfl, h, rfl, ?_⟩
      intro j hj
      cases hj
    · rintro ⟨k, l, hl, hnot, rfl, hbefore⟩
      cases k with
      | zero => rfl
      | succ k => exact absurd (forall_lt_succ_iff.mp hbefore).1 h

/-- A line with a record comes before the other records. -/
theorem LineByLine.cons {reading : Reading}
    (h : LineByLine index currentFile (n + 1) lines reading) {r : TagRecord}
    (hr : parseLine index currentFile n line = .ok r) :
  LineByLine index currentFile n (line :: lines) ⟨r :: reading.records, reading.stop⟩
  := by
  have hline := hasSeparator_of_parseLine hr
  have hnumber (k : Nat) : n + (k + 1) = n + 1 + k := by
    omega
  constructor
  · intro k r'
    cases k with
    | zero =>
        constructor
        · rintro ⟨⟩
          refine ⟨⟨line, rfl, hr⟩, ?_⟩
          intro j hj
          cases hj
        · rintro ⟨⟨l, ⟨⟩, hl⟩, -⟩
          exact congrArg some (Except.ok.inj (hr.symm.trans hl))
    | succ k =>
        rw [forall_lt_succ_iff, hnumber]
        apply (h.record_iff k r').trans
        apply and_congr Iff.rfl
        exact (and_iff_right hline).symm
  · intro e
    apply (h.stop_iff e).trans
    constructor
    · rintro ⟨k, l, hl, hnot, he, hbefore⟩
      refine ⟨k + 1, l, hl, hnot, ?_, forall_lt_succ_iff.mpr ⟨hline, hbefore⟩⟩
      rw [hnumber]
      exact he
    · rintro ⟨k, l, hl, hnot, he, hbefore⟩
      cases k with
      | zero =>
          cases hl
          exact absurd hline hnot
      | succ k =>
          rw [hnumber] at he
          exact ⟨k, l, hl, hnot, he, (forall_lt_succ_iff.mp hbefore).2⟩

theorem lineByLine_readLines (lines : List Bytes) (n : Nat) :
  LineByLine index currentFile n lines
    (readLines index currentFile n (lines.map Utf8.decodeLossy))
  := by
  induction lines generalizing n with
  | nil =>
      constructor
      · intro k r
        simp [readLines]
      · intro e
        simp [readLines]
  | cons line rest ih =>
      rw [List.map_cons, readLines]
      by_cases hline : HasSeparator line
      · obtain ⟨r, hr⟩ := hasSeparator_iff.mp hline
        rw [show TagRecord.parse _ _ _ _ = _ from hr]
        exact (ih (n + 1)).cons hr
      · rw [show TagRecord.parse _ _ _ _ = _ from parseLine_of_not_hasSeparator hline]
        exact lineByLine_of_not_hasSeparator hline

/-- The records in the content of an index are those in its segments. -/
theorem lineByLine_readContent (content : Bytes) :
  LineByLine index currentFile 1 (Utf8.segments content) (readContent index currentFile content)
  := by
  rw [readContent, Utf8.afterLineFeeds_decodeLossy]
  exact lineByLine_readLines _ 1

/-! ### Another line in the place of one -/

section

variable {before after : List Bytes} {line' : Bytes} {reading reading' : Reading}

theorem getElem?_replace {k : Nat} (hk : k ≠ before.length) :
  (before ++ line' :: after)[k]? = (before ++ line :: after)[k]?
  := by
  rcases Nat.lt_or_gt_of_ne hk with hlt | hgt
  · rw [List.getElem?_append_left hlt, List.getElem?_append_left hlt]
  · obtain ⟨j, rfl⟩ := Nat.exists_eq_add_of_lt hgt
    rw [List.getElem?_append_right (by omega), List.getElem?_append_right (by omega),
      Nat.add_assoc, Nat.add_sub_cancel_left, List.getElem?_cons_succ, List.getElem?_cons_succ]

variable (hlines : HasSeparator line ↔ HasSeparator line')
  (h : LineByLine index currentFile n (before ++ line :: after) reading)
  (h' : LineByLine index currentFile n (before ++ line' :: after) reading')

include hlines

theorem forall_hasSeparator_replace {k : Nat} :
  (∀ j < k, ∀ l, (before ++ line :: after)[j]? = some l → HasSeparator l)
    ↔ ∀ j < k, ∀ l, (before ++ line' :: after)[j]? = some l → HasSeparator l
  := by
  apply forall_congr'
  intro j
  apply forall_congr'
  intro _
  by_cases hj : j = before.length
  · subst hj
    simpa using hlines
  · rw [getElem?_replace hj]

include h h'

/-- All other records stay the same. -/
theorem LineByLine.getElem?_records_replace {k : Nat} (hk : k ≠ before.length) :
  reading'.records[k]? = reading.records[k]?
  := by
  apply Option.ext
  intro r
  rw [h.record_iff, h'.record_iff, getElem?_replace hk, forall_hasSeparator_replace hlines]

theorem LineByLine.stop_replace :
  reading'.stop = reading.stop
  := by
  apply Option.ext
  intro e
  rw [h.stop_iff, h'.stop_iff]
  apply exists_congr
  intro k
  rw [forall_hasSeparator_replace hlines]
  by_cases hk : k = before.length
  · subst hk
    simp [hlines]
  · rw [getElem?_replace hk]

theorem LineByLine.exists_record_replace {k : Nat} :
  (∃ r, reading'.records[k]? = some r) ↔ ∃ r, reading.records[k]? = some r
  := by
  by_cases hk : k = before.length
  · subst hk
    simp only [h.record_iff, h'.record_iff, forall_hasSeparator_replace hlines, exists_and_right]
    apply and_congr _ Iff.rfl
    simp [← hasSeparator_iff, hlines]
  · rw [h.getElem?_records_replace hlines h' hk]

/-- There are as many records as before. -/
theorem LineByLine.length_records_replace :
  reading'.records.length = reading.records.length
  := by
  have hlt (k : Nat) : k < reading'.records.length ↔ k < reading.records.length := by
    rw [← not_iff_not, Nat.not_lt, Nat.not_lt, ← List.getElem?_eq_none_iff,
      ← List.getElem?_eq_none_iff, Option.eq_none_iff_forall_ne_some,
      Option.eq_none_iff_forall_ne_some]
    simpa using not_congr (h.exists_record_replace hlines h' (k := k))
  apply Nat.le_antisymm
  · apply Nat.le_of_not_lt
    intro hcontra
    exact Nat.lt_irrefl _ ((hlt _).mp hcontra)
  · apply Nat.le_of_not_lt
    intro hcontra
    exact Nat.lt_irrefl _ ((hlt _).mpr hcontra)

end

/-! ### Reading an index -/

/-- An index that can be opened is read line by line: its content is cut after every line feed, and
the records are those in the parts, each decoded on its own, up to the first part without a space or
a tab.  If other bytes stand in one line, and spaces or tabs are among them as before or not, then
all other records are what they were.  A record that is written on a line with its fields is read
from it with these fields. -/
theorem read_line_by_line {w : World} {content : Bytes} (h : w.readBytes index = .ok content)
    (currentFile : Option Path) :
  ∃ reading, read w index currentFile = .ok reading
    ∧ Utf8.Cut content (Utf8.segments content)
    ∧ LineByLine index currentFile 1 (Utf8.segments content) reading
    ∧ (∀ content' before line line' after, Utf8.segments content = before ++ line :: after →
      Utf8.segments content' = before ++ line' :: after →
      (HasSeparator line ↔ HasSeparator line') →
      (readContent index currentFile content').records.length = reading.records.length
        ∧ (readContent index currentFile content').stop = reading.stop
        ∧ ∀ k ≠ before.length,
          (readContent index currentFile content').records[k]? = reading.records[k]?)
    ∧ ∀ number tag separator file separator' command, TagRecord.IsField tag →
      TagRecord.Separates separator → TagRecord.IsField file → file ≠ [] →
      TagRecord.Separates separator' → TagRecord.IsCommand command →
      ∃ r, readLines index currentFile number
          (Text.afterLineFeeds (TagRecord.written tag separator file separator' command))
          = ⟨[r], none⟩
        ∧ r.line = number ∧ r.rawTag = tag ∧ r.fields = .ok (file, command ++ ['\n'])
  := by
  have hread (content) : LineByLine index currentFile 1 (Utf8.segments content)
      (readContent index currentFile content) := lineByLine_readContent content
  have hreading := hread content
  refine ⟨readContent index currentFile content, ?_, Utf8.cut_segments content, hreading, ?_, ?_⟩
  · rw [read, h]
  · intro content' before line line' after hsegments hsegments' hlines
    have hreading' := hread content'
    rw [hsegments] at hreading
    rw [hsegments'] at hreading'
    exact ⟨hreading.length_records_replace hlines hreading',
      hreading.stop_replace hlines hreading',
      fun k hk => hreading.getElem?_records_replace hlines hreading' hk⟩
  · intro number tag separator file separator' command htag hseparates hfile hne hseparates'
      hcommand
    exact TagRecord.readLines_written htag hseparates hfile hne hseparates' hcommand index number
      currentFile

/-- The second line breaks off a sequence of bytes before its first tab, and the first line has a
carriage return at its end.  The third record is the same as without them. -/
theorem read_line_by_line_truncated :
  let index : Path := ⟨.here, ["tags".toList]⟩
  let first : Bytes := [0x66, 0x09, 0x61, 0x09, 0x31, 0x0D, 0x0A]
  let second : Bytes := [0x67, 0xE2, 0x82, 0x09, 0x61, 0x09, 0x32, 0x0A]
  let third : Bytes := [0x68, 0x20, 0x61, 0x20, 0x33]
  let content : Bytes := first ++ second ++ third
  let content' : Bytes := first ++ [0x67, 0x09, 0x61, 0x09, 0x32, 0x0A] ++ third
  let w : World := ⟨⟨[(["tags".toList], .file content)]⟩, [], [], ⟨.slash, []⟩, {}⟩
  w.readBytes index = .ok content
    ∧ ∃ reading, read w index none = .ok reading
      ∧ reading.records[2]? = some ⟨['h'], some ['h'], "a 3".toList, index, 3⟩
      ∧ (readContent index none content').records[2]? = reading.records[2]?
  := by
  intro index first second third content content' w
  have hopened : w.readBytes index = .ok content := rfl
  obtain ⟨reading, hread, -, hlines, hreplace, -⟩ := read_line_by_line hopened none
  have hsegments : Utf8.segments content = [first] ++ second :: [third] := by
    decide
  have hsegments' : Utf8.segments content'
      = [first] ++ [0x67, 0x09, 0x61, 0x09, 0x32, 0x0A] :: [third] := by
    decide
  refine ⟨hopened, reading, hread, ?_, ?_⟩
  · apply (hlines.record_iff 2 _).mpr
    rw [hsegments]
    refine ⟨⟨third, rfl, rfl⟩, ?_⟩
    decide
  · apply (hreplace content' _ _ _ _ hsegments hsegments' _).2.2
    · decide
    · decide

end Index

end TagNavigator
