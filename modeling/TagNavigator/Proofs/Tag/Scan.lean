import TagNavigator.Proofs.Text.Segments
import TagNavigator.Tag.Index

/-!
# Scanning an index

What the lines of an index come to when a record with some property is looked for: a line that holds
such a record, a line that holds no record at all, whichever comes first, or neither. `Scans` says
so of the segments of the content, each decoded on its own, without going through them one by one,
and `scans_iff` says that the records read from the content come to the same. What follows the line
that settles the matter does not count.
-/

namespace TagNavigator.Index

/-- What the lines of an index come to. -/
inductive Verdict where
  /-- The line of the number holds the first record looked for. -/
  | decided (n : Nat) (r : TagRecord)
  /-- A line holds no record. -/
  | rejected (e : FormatError)
  /-- All lines hold records with other names. -/
  | exhausted
  deriving DecidableEq, Repr

/-- The record in a line of an index, decoded on its own. -/
def parseLine (index : Path) (currentFile : Option Path) (n : Nat) (line : Bytes) :
    Except FormatError TagRecord :=
  TagRecord.parse (Utf8.decodeLossy line) index n currentFile

theorem parseLine_error {index : Path} {currentFile : Option Path} {n : Nat} {line : Bytes}
    {e : FormatError} (h : parseLine index currentFile n line = .error e) :
  e = ⟨index, n⟩
  := by
  unfold parseLine TagRecord.parse at h
  split at h
  · cases h
    rfl
  · cases h

theorem parseLine_ok {index : Path} {currentFile : Option Path} {n : Nat} {line : Bytes}
    {r : TagRecord} (h : parseLine index currentFile n line = .ok r) :
  r.index = index ∧ r.line = n
  := by
  unfold parseLine TagRecord.parse at h
  split at h
  · cases h
  · cases h
    exact ⟨rfl, rfl⟩

section

variable (p : TagRecord → Bool) (index : Path) (currentFile : Option Path)

/-- The line of the number holds a record that is not looked for. -/
def PassesLine (n : Nat) (line : Bytes) : Prop :=
  ∃ r, parseLine index currentFile n line = .ok r ∧ p r = false

/-- All lines hold records that are not looked for; the first line has the number `n`. -/
def Passes (n : Nat) (lines : List Bytes) : Prop :=
  ∀ i line, lines[i]? = some line → PassesLine p index currentFile (n + i) line

/-- The line of number `m` comes after lines that hold records that are not looked for. -/
def Reaches (n : Nat) (lines : List Bytes) (m : Nat) (line : Bytes) : Prop :=
  ∃ before after, lines = before ++ line :: after ∧ Passes p index currentFile n before
    ∧ m = n + before.length

/-- What the lines come to, of which the first has the number `n`. -/
def Scans (n : Nat) (lines : List Bytes) : Verdict → Prop
  | .decided m r =>
    ∃ line, Reaches p index currentFile n lines m line ∧ parseLine index currentFile m line = .ok r
      ∧ p r = true
  | .rejected e =>
    ∃ line, Reaches p index currentFile n lines e.line line
      ∧ parseLine index currentFile e.line line = .error e
  | .exhausted => Passes p index currentFile n lines

end

section

variable {p : TagRecord → Bool} {index : Path} {currentFile : Option Path}

/-! ### Line by line -/

theorem passes_nil (n : Nat) :
  Passes p index currentFile n []
  := by
  intro i line h
  simp at h

theorem passes_cons_iff {n : Nat} {line : Bytes} {rest : List Bytes} :
  Passes p index currentFile n (line :: rest)
    ↔ PassesLine p index currentFile n line ∧ Passes p index currentFile (n + 1) rest
  := by
  constructor
  · intro h
    constructor
    · exact h 0 line rfl
    · intro i l hl
      rw [Nat.add_assoc, Nat.add_comm 1 i]
      exact h (i + 1) l hl
  · rintro ⟨hline, hrest⟩ i l hl
    cases i with
    | zero =>
        cases hl
        exact hline
    | succ i =>
        have := hrest i l hl
        rwa [Nat.add_assoc, Nat.add_comm 1 i] at this

theorem reaches_cons_iff {n m : Nat} {l line : Bytes} {rest : List Bytes} :
  Reaches p index currentFile n (l :: rest) m line
    ↔ (m = n ∧ line = l)
      ∨ (PassesLine p index currentFile n l ∧ Reaches p index currentFile (n + 1) rest m line)
  := by
  constructor
  · rintro ⟨before, after, hlines, hpass, rfl⟩
    cases before with
    | nil =>
        cases hlines
        exact .inl ⟨rfl, rfl⟩
    | cons b before =>
        cases hlines
        obtain ⟨hl, hbefore⟩ := passes_cons_iff.mp hpass
        exact .inr ⟨hl, before, after, rfl, hbefore, by simp only [List.length_cons]; omega⟩
  · rintro (⟨rfl, rfl⟩ | ⟨hl, before, after, rfl, hpass, rfl⟩)
    · exact ⟨[], rest, rfl, passes_nil _, rfl⟩
    · refine ⟨l :: before, after, rfl, passes_cons_iff.mpr ⟨hl, hpass⟩, ?_⟩
      simp only [List.length_cons]
      omega

theorem not_reaches_nil {n m : Nat} {line : Bytes} :
  ¬ Reaches p index currentFile n [] m line
  := by
  rintro ⟨before, after, h, -, -⟩
  simp at h

theorem scans_nil_iff {n : Nat} {v : Verdict} :
  Scans p index currentFile n [] v ↔ v = .exhausted
  := by
  cases v with
  | decided m r => simp [Scans, not_reaches_nil]
  | rejected e => simp [Scans, not_reaches_nil]
  | exhausted => simp [Scans, passes_nil]

/-- After a line with a record that is not looked for the other lines decide. -/
theorem scans_cons_of_passesLine {n : Nat} {line : Bytes} {rest : List Bytes} {v : Verdict}
    (h : PassesLine p index currentFile n line) :
  Scans p index currentFile n (line :: rest) v ↔ Scans p index currentFile (n + 1) rest v
  := by
  obtain ⟨r, hr, hp⟩ := h
  cases v with
  | decided m r' =>
      simp only [Scans, reaches_cons_iff]
      constructor
      · rintro ⟨l, ⟨rfl, rfl⟩ | ⟨-, hl⟩, hr', hp'⟩
        · rw [hr] at hr'
          cases hr'
          rw [hp] at hp'
          cases hp'
        · exact ⟨l, hl, hr', hp'⟩
      · rintro ⟨l, hl, hr', hp'⟩
        exact ⟨l, .inr ⟨⟨r, hr, hp⟩, hl⟩, hr', hp'⟩
  | rejected e =>
      simp only [Scans, reaches_cons_iff]
      constructor
      · rintro ⟨l, ⟨hn, rfl⟩ | ⟨-, hl⟩, he⟩
        · rw [hn, hr] at he
          cases he
        · exact ⟨l, hl, he⟩
      · rintro ⟨l, hl, he⟩
        exact ⟨l, .inr ⟨⟨r, hr, hp⟩, hl⟩, he⟩
  | exhausted =>
      simp only [Scans, passes_cons_iff]
      exact and_iff_right ⟨r, hr, hp⟩

theorem scans_cons_of_match {n : Nat} {line : Bytes} {rest : List Bytes} {r : TagRecord}
    {v : Verdict} (hr : parseLine index currentFile n line = .ok r) (hp : p r = true) :
  Scans p index currentFile n (line :: rest) v ↔ v = .decided n r
  := by
  have hpass : ¬ PassesLine p index currentFile n line := by
    rintro ⟨r', hr', hp'⟩
    rw [hr] at hr'
    cases hr'
    rw [hp] at hp'
    cases hp'
  cases v with
  | decided m r' =>
      simp only [Scans, reaches_cons_iff, hpass, false_and, or_false]
      constructor
      · rintro ⟨l, ⟨rfl, rfl⟩, hr', -⟩
        rw [hr] at hr'
        cases hr'
        rfl
      · rintro ⟨⟩
        exact ⟨line, ⟨rfl, rfl⟩, hr, hp⟩
  | rejected e =>
      simp only [Scans, reaches_cons_iff, hpass, false_and, or_false, reduceCtorEq, iff_false]
      rintro ⟨l, ⟨hn, rfl⟩, he⟩
      rw [hn, hr] at he
      cases he
  | exhausted =>
      simp only [Scans, passes_cons_iff, hpass, false_and, reduceCtorEq]

theorem scans_cons_of_error {n : Nat} {line : Bytes} {rest : List Bytes} {e : FormatError}
    {v : Verdict} (he : parseLine index currentFile n line = .error e) :
  Scans p index currentFile n (line :: rest) v ↔ v = .rejected e
  := by
  have hpass : ¬ PassesLine p index currentFile n line := by
    rintro ⟨r', hr', -⟩
    rw [he] at hr'
    cases hr'
  cases v with
  | decided m r' =>
      simp only [Scans, reaches_cons_iff, hpass, false_and, or_false, reduceCtorEq, iff_false]
      rintro ⟨l, ⟨rfl, rfl⟩, hr', -⟩
      rw [he] at hr'
      cases hr'
  | rejected e' =>
      simp only [Scans, reaches_cons_iff, hpass, false_and, or_false]
      constructor
      · rintro ⟨l, ⟨hn, rfl⟩, he'⟩
        rw [hn, he] at he'
        cases he'
        rfl
      · rintro ⟨⟩
        obtain rfl := parseLine_error he
        exact ⟨line, ⟨rfl, rfl⟩, he⟩
  | exhausted =>
      simp only [Scans, passes_cons_iff, hpass, false_and, reduceCtorEq]

/-! ### The records that are read -/

/-- What the records of an index come to. -/
def Reading.verdict (p : TagRecord → Bool) (reading : Reading) : Verdict :=
  match reading.records.find? p with
  | some r => .decided r.line r
  | none =>
    match reading.stop with
    | some e => .rejected e
    | none => .exhausted

theorem scans_iff_readLines {n : Nat} {lines : List Bytes} {v : Verdict} :
  Scans p index currentFile n lines v
    ↔ (readLines index currentFile n (lines.map Utf8.decodeLossy)).verdict p = v
  := by
  induction lines generalizing n with
  | nil =>
      rw [scans_nil_iff]
      exact eq_comm
  | cons line rest ih =>
      rw [List.map_cons, readLines]
      cases h : parseLine index currentFile n line with
      | error e =>
          rw [scans_cons_of_error h, show TagRecord.parse _ _ _ _ = _ from h]
          exact eq_comm
      | ok r =>
          rw [show TagRecord.parse _ _ _ _ = _ from h]
          by_cases hp : p r = true
          · obtain ⟨-, hn⟩ := parseLine_ok h
            rw [scans_cons_of_match h hp]
            simp only [Reading.verdict, List.find?_cons_of_pos hp, hn]
            exact eq_comm
          · rw [scans_cons_of_passesLine ⟨r, h, eq_false_of_ne_true hp⟩, ih]
            simp only [Reading.verdict, List.find?_cons_of_neg hp]

theorem Reading.verdict_eq_decided_iff {reading : Reading} {n : Nat} {r : TagRecord} :
  reading.verdict p = .decided n r ↔ reading.records.find? p = some r ∧ r.line = n
  := by
  unfold verdict
  cases reading.records.find? p with
  | some r' => simp +contextual [and_comm]
  | none => cases reading.stop <;> simp

theorem Reading.verdict_eq_rejected_iff {reading : Reading} {e : FormatError} :
  reading.verdict p = .rejected e ↔ reading.records.find? p = none ∧ reading.stop = some e
  := by
  unfold verdict
  cases reading.records.find? p with
  | some r' => simp
  | none => cases reading.stop <;> simp

theorem Reading.verdict_eq_exhausted_iff {reading : Reading} :
  reading.verdict p = .exhausted ↔ reading.records.find? p = none ∧ reading.stop = none
  := by
  unfold verdict
  cases reading.records.find? p with
  | some r' => simp
  | none => cases reading.stop <;> simp

/-- The records that are read from the content of an index tell what its lines come to. -/
theorem scans_segments_iff {content : Bytes} {v : Verdict} :
  Scans p index currentFile 1 (Utf8.segments content) v
    ↔ (readContent index currentFile content).verdict p = v
  := by
  rw [scans_iff_readLines, readContent, Utf8.afterLineFeeds_decodeLossy]

/-- Lines after the one that decides do not count. -/
theorem scans_append_of_decided {n m : Nat} {lines : List Bytes} {r : TagRecord}
    (h : Scans p index currentFile n lines (.decided m r)) (more : List Bytes) :
  Scans p index currentFile n (lines ++ more) (.decided m r)
  := by
  obtain ⟨line, ⟨before, after, rfl, hpass, hm⟩, hr, hp⟩ := h
  exact ⟨line, ⟨before, after ++ more, by simp, hpass, hm⟩, hr, hp⟩

end

end TagNavigator.Index
