import TagNavigator.Tag.Command
import TagNavigator.Proofs.Pattern.Literal
import TagNavigator.Proofs.Search.Whole

/-!
# Search commands written by a tag generator

A tag generator writes a piece of source text as a pattern between delimiters: it doubles the
backslashes, puts a backslash before the delimiters inside, and marks the ends of the line by a
caret and a dollar.  A line end or extension fields may follow.  Read back, such a field is a
literal pattern for the same text in either spelling (`pattern?_ofField_written`), and a search
for it finds the text where it stands (`search_ofField_written`).
-/

namespace TagNavigator.TagCommand

/-- The characters that a tag generator writes with a backslash. -/
def isEscaped (d c : Char) : Bool :=
  c == '\\' || c == d

/-- The characters that carry a backslash in the search pattern of a written field. -/
def isQuoted (magic : Bool) (d c : Char) : Bool :=
  isEscaped d c || (magic && isMagic c)

/-- The field that a tag generator writes for the text `s`, at the start of a line if
`fromStart` is on and at the end of one if `toEnd` is on, followed by `rest`. -/
def written (d : Char) (fromStart toEnd : Bool) (s rest : Text) : Text :=
  d :: (Pattern.literal (isEscaped d) fromStart toEnd s ++ d :: rest)

/-- The end of the last field of a record. -/
inductive LineEnd : Text → Prop where
  | none : LineEnd []
  | lineFeed : LineEnd ['\n']
  | carriageReturn : LineEnd ['\r', '\n']

/-- What may follow the closing delimiter of a written field: the line end, or the marker of
extension fields and anything after it. -/
inductive FieldEnd : Text → Prop where
  | line {t : Text} (h : LineEnd t) : FieldEnd t
  | extension (t : Text) : FieldEnd (extensionMarker ++ t)

/-- The direction in which a pattern with the delimiter is searched. -/
def direction (d : Char) : Search.Direction :=
  if d = '/' then .forward else .backward

variable {d : Char} {s : Text} {fromStart toEnd : Bool}

theorem eq_of_isDelimiter (hd : isDelimiter d = true) :
  d = '/' ∨ d = '?'
  := by
  simpa [isDelimiter] using hd

/-- The characters with a backslash in the search pattern are those that need one. -/
theorem quotes_isQuoted (hd : isDelimiter d = true) (magic : Bool) :
  Pattern.Quotes magic (isQuoted magic d)
  := by
  rcases eq_of_isDelimiter hd with rfl | rfl
  all_goals
    cases magic
    all_goals constructor <;> simp [isQuoted, isEscaped, isMagic]

/-! ### Extension fields -/

theorem lengthToDelimiter_plain {c : Char} (hbackslash : c ≠ '\\') (hc : c ≠ d)
    (hend : Text.isLineEnd c = false) (t : Text) :
  lengthToDelimiter d (c :: t) = (lengthToDelimiter d t).map (· + 1)
  := by
  rw [lengthToDelimiter.eq_def]
  simp [hbackslash, hc, hend]

/-- No delimiter inside an escaped text closes the pattern. -/
theorem lengthToDelimiter_quote (hs : ∀ c ∈ s, Text.isLineEnd c = false) (t : Text) :
  lengthToDelimiter d (Pattern.quote (isEscaped d) s ++ t)
    = (lengthToDelimiter d t).map (· + (Pattern.quote (isEscaped d) s).length)
  := by
  induction s with
  | nil => simp
  | cons c s ih =>
      have hrest := ih fun b hb => hs b (List.mem_cons_of_mem c hb)
      cases hc : isEscaped d c with
      | true =>
          rw [Pattern.quote_cons_of_quoted hc, List.cons_append, List.cons_append,
            lengthToDelimiter, hrest, Option.map_map]
          rfl
      | false =>
          simp only [isEscaped, Bool.or_eq_false_iff, beq_eq_false_iff_ne] at hc
          rw [Pattern.quote_cons_of_plain (by simp [isEscaped, hc]), List.cons_append,
            lengthToDelimiter_plain hc.1 hc.2 (hs c List.mem_cons_self), hrest, Option.map_map]
          rfl

/-- The closing delimiter of a written pattern is the one after its text. -/
theorem lengthToDelimiter_written (fromStart toEnd : Bool) (hd : isDelimiter d = true)
    (hs : ∀ c ∈ s, Text.isLineEnd c = false) (rest : Text) :
  lengthToDelimiter d (Pattern.literal (isEscaped d) fromStart toEnd s ++ d :: rest)
    = some ((Pattern.literal (isEscaped d) fromStart toEnd s).length + 1)
  := by
  have hdelimiter : lengthToDelimiter d (d :: rest) = some 1 := by
    rcases eq_of_isDelimiter hd with rfl | rfl <;> simp [lengthToDelimiter]
  have hcaret : ∀ t, lengthToDelimiter d ('^' :: t) = (lengthToDelimiter d t).map (· + 1) := by
    rcases eq_of_isDelimiter hd with rfl | rfl
    all_goals exact lengthToDelimiter_plain (by decide) (by decide) (by decide)
  have hdollar : ∀ t, lengthToDelimiter d ('$' :: t) = (lengthToDelimiter d t).map (· + 1) := by
    rcases eq_of_isDelimiter hd with rfl | rfl
    all_goals exact lengthToDelimiter_plain (by decide) (by decide) (by decide)
  rw [Pattern.literal]
  cases fromStart <;> cases toEnd
  all_goals simp [lengthToDelimiter_quote hs, hdelimiter, hcaret, hdollar]
  all_goals omega

theorem occurs_append (mark : Text) (hmark : mark ≠ []) (t u : Text) :
  Text.occurs mark (t ++ (mark ++ u)) = true
  := by
  induction t with
  | nil =>
      obtain ⟨c, mark, rfl⟩ := List.exists_cons_of_ne_nil hmark
      simp [Text.occurs]
  | cons c t ih =>
      rw [List.cons_append, Text.occurs, ih, Bool.or_true]

/-- Extension fields are cut off after the closing delimiter. -/
theorem dropExtension_extension (hd : isDelimiter d = true)
    (hs : ∀ c ∈ s, Text.isLineEnd c = false) (t : Text) :
  dropExtension (written d fromStart toEnd s (extensionMarker ++ t))
    = written d fromStart toEnd s []
  := by
  have hlength := lengthToDelimiter_written fromStart toEnd hd hs (extensionMarker ++ t)
  have hoccurs : Text.occurs extensionMarker
      (written d fromStart toEnd s (extensionMarker ++ t)) = true := by
    have h := occurs_append extensionMarker (by decide)
      (d :: (Pattern.literal (isEscaped d) fromStart toEnd s ++ [d])) t
    simpa [written] using h
  rw [written] at hoccurs ⊢
  simp only [dropExtension, hoccurs, hd, hlength, List.drop_length_add_append,
    List.take_length_add_append]
  simp [written]

/-- A field without extension fields stays as it is. -/
theorem dropExtension_line (hd : isDelimiter d = true)
    (hs : ∀ c ∈ s, Text.isLineEnd c = false) {t : Text} (ht : LineEnd t) :
  dropExtension (written d fromStart toEnd s t) = written d fromStart toEnd s t
  := by
  have hlength := lengthToDelimiter_written fromStart toEnd hd hs t
  have hmarker : extensionMarker.isPrefixOf t = false := by
    cases ht <;> rfl
  rw [written, dropExtension]
  split
  · rfl
  · simp [hlength, hmarker]

/-- What is left of a written field after its extension fields are cut off is the field with a
line end. -/
theorem dropExtension_written (fromStart toEnd : Bool) (hd : isDelimiter d = true)
    (hs : ∀ c ∈ s, Text.isLineEnd c = false) {rest : Text} (hrest : FieldEnd rest) :
  ∃ t, LineEnd t
    ∧ dropExtension (written d fromStart toEnd s rest) = written d fromStart toEnd s t
  := by
  cases hrest with
  | line h => exact ⟨rest, h, dropExtension_line hd hs h⟩
  | extension t => exact ⟨[], .none, dropExtension_extension hd hs t⟩

/-! ### The search pattern -/

theorem searchTail_plain {magic : Bool} {c : Char} (hbackslash : c ≠ '\\') (hc : c ≠ d)
    (hend : Text.isLineEnd c = false) (hmagic : (isMagic c && magic) = false) (t : Text) :
  searchTail magic d (c :: t) = c :: searchTail magic d t
  := by
  rw [searchTail.eq_def]
  simp [hbackslash, hc, hend, hmagic]

/-- The escaped characters of a written field become the quoted ones of the search pattern. -/
theorem searchTail_quote (hd : isDelimiter d = true) (magic : Bool)
    (hs : ∀ c ∈ s, Text.isLineEnd c = false) (t : Text) :
  searchTail magic d (Pattern.quote (isEscaped d) s ++ t)
    = Pattern.quote (isQuoted magic d) s ++ searchTail magic d t
  := by
  induction s with
  | nil => simp
  | cons c s ih =>
      have hrest := ih fun b hb => hs b (List.mem_cons_of_mem c hb)
      have hend := hs c List.mem_cons_self
      cases hc : isEscaped d c with
      | true =>
          have hparen : c ≠ '(' := by
            rintro rfl
            rcases eq_of_isDelimiter hd with rfl | rfl <;> contradiction
          have hquoted : isQuoted magic d c = true := by simp [isQuoted, hc]
          rw [Pattern.quote_cons_of_quoted hc, Pattern.quote_cons_of_quoted hquoted,
            List.cons_append, List.cons_append, searchTail]
          simp [hparen, hend, hrest]
      | false =>
          have hne := hc
          simp only [isEscaped, Bool.or_eq_false_iff, beq_eq_false_iff_ne] at hne
          rw [Pattern.quote_cons_of_plain hc, List.cons_append]
          cases hmagic : magic && isMagic c with
          | true =>
              rw [Pattern.quote_cons_of_quoted (by simp [isQuoted, hmagic]), searchTail.eq_def]
              simp [hne.1, hne.2, hend, hrest, Bool.and_comm (isMagic c), hmagic]
          | false =>
              rw [Pattern.quote_cons_of_plain (by simp [isQuoted, hc, hmagic]),
                searchTail_plain hne.1 hne.2 hend (by rw [Bool.and_comm, hmagic]), hrest]
              rfl

/-- The delimiter that a line end leaves at the end of a search pattern. -/
def closing (d : Char) (t : Text) : Text :=
  if t.isEmpty then [] else [d]

theorem searchTail_lineEnd (hd : isDelimiter d = true) (magic : Bool) {t : Text} (ht : LineEnd t) :
  searchTail magic d (d :: t) = closing d t
  := by
  rcases eq_of_isDelimiter hd with rfl | rfl
  all_goals
    cases magic
    all_goals
      cases ht
      all_goals rfl

theorem toSearch?_caret (hd : isDelimiter d = true) (magic : Bool) (t : Text) :
  toSearch? magic (d :: '^' :: t) = some (d :: '^' :: searchTail magic d t)
  := by
  simp [toSearch?, hd]

theorem toSearch?_of_head?_ne (hd : isDelimiter d = true) (magic : Bool) {t : Text}
    (ht : t.head? ≠ some '^') :
  toSearch? magic (d :: t) = some (d :: searchTail magic d t)
  := by
  simp only [toSearch?, hd]
  split
  · contradiction
  · split
    · simp at ht
    · rfl

theorem head?_quote_append_ne (hs : s.head? ≠ some '^') {t : Text} (ht : t.head? ≠ some '^') :
  (Pattern.quote (isEscaped d) s ++ t).head? ≠ some '^'
  := by
  cases s with
  | nil => apply ht
  | cons c s =>
      cases hc : isEscaped d c with
      | true =>
          rw [Pattern.quote_cons_of_quoted hc]
          simp
      | false =>
          rw [Pattern.quote_cons_of_plain hc]
          apply hs

/-- The search pattern of a written field. -/
theorem toSearch?_written (toEnd : Bool) (hd : isDelimiter d = true) (magic : Bool)
    (hs : ∀ c ∈ s, Text.isLineEnd c = false) (hcaret : fromStart = false → s.head? ≠ some '^')
    {t : Text} (ht : LineEnd t) :
  toSearch? magic (written d fromStart toEnd s t)
    = some (d :: (Pattern.literal (isQuoted magic d) fromStart toEnd s ++ closing d t))
  := by
  have htail : searchTail magic d ((if toEnd then ['$'] else []) ++ d :: t)
      = (if toEnd then ['$'] else []) ++ closing d t := by
    cases toEnd with
    | false => apply searchTail_lineEnd hd magic ht
    | true =>
        rw [if_pos rfl, List.singleton_append, searchTail_plain, searchTail_lineEnd hd magic ht]
        · rfl
        · decide
        · rcases eq_of_isDelimiter hd with rfl | rfl <;> decide
        · decide
        · cases magic <;> rfl
  have hbody : searchTail magic d
      (Pattern.quote (isEscaped d) s ++ ((if toEnd then ['$'] else []) ++ d :: t))
      = Pattern.quote (isQuoted magic d) s ++ ((if toEnd then ['$'] else []) ++ closing d t) := by
    rw [searchTail_quote hd magic hs, htail]
  rw [written, Pattern.literal, Pattern.literal]
  cases fromStart with
  | true =>
      simp only [if_true, List.append_assoc, List.cons_append, List.nil_append,
        toSearch?_caret hd, hbody]
  | false =>
      have hhead : (Pattern.quote (isEscaped d) s
          ++ ((if toEnd then ['$'] else []) ++ d :: t)).head? ≠ some '^' := by
        apply head?_quote_append_ne (hcaret rfl)
        cases toEnd with
        | false => rcases eq_of_isDelimiter hd with rfl | rfl <;> simp
        | true => simp
      simp only [Bool.false_eq_true, if_false, List.nil_append, List.append_assoc,
        toSearch?_of_head?_ne hd magic hhead, hbody]

/-! ### The closing delimiter -/

/-- The number of backslashes at the end of a text. -/
def backslashesAtEnd (t : Text) : Nat :=
  (t.reverse.takeWhile (· == '\\')).length

theorem backslashesAtEnd_append_backslash (t : Text) :
  backslashesAtEnd (t ++ ['\\']) = backslashesAtEnd t + 1
  := by
  simp [backslashesAtEnd]

theorem backslashesAtEnd_append_of_ne {c : Char} (hc : c ≠ '\\') (t : Text) :
  backslashesAtEnd (t ++ [c]) = 0
  := by
  simp [backslashesAtEnd, hc]

/-- The last character of a pattern is dropped if it is a delimiter that no backslash escapes. -/
theorem withoutClosing_append (t : Text) (c : Char) :
  withoutClosing d (t ++ [c])
    = if c = d ∧ backslashesAtEnd t % 2 = 0 then t else t ++ [c]
  := by
  by_cases h : c = d ∧ backslashesAtEnd t % 2 = 0
  · rw [if_pos h]
    simp only [backslashesAtEnd] at h
    simp [withoutClosing, h]
  · rw [if_neg h]
    simp only [backslashesAtEnd] at h
    simp [withoutClosing, h]

/-- A text that is open ends neither in a delimiter nor in an escape that a character after it
would complete. -/
structure IsOpen (d : Char) (t : Text) : Prop where
  even : backslashesAtEnd t % 2 = 0
  withoutClosing_eq : withoutClosing d t = t

theorem IsOpen.append_of_ne {c : Char} (hbackslash : c ≠ '\\') (hc : c ≠ d) (t : Text) :
  IsOpen d (t ++ [c])
  := by
  constructor
  · rw [backslashesAtEnd_append_of_ne hbackslash]
  · rw [withoutClosing_append]
    simp [hc]

theorem IsOpen.append_escape {t : Text} (ht : IsOpen d t) (c : Char) :
  IsOpen d (t ++ ['\\', c])
  := by
  have hodd : backslashesAtEnd (t ++ ['\\']) % 2 = 1 := by
    rw [backslashesAtEnd_append_backslash]
    have heven := ht.even
    omega
  have hsplit : t ++ ['\\', c] = t ++ ['\\'] ++ [c] := by simp
  rw [hsplit]
  constructor
  · by_cases hc : c = '\\'
    · subst c
      rw [backslashesAtEnd_append_backslash]
      omega
    · rw [backslashesAtEnd_append_of_ne hc]
  · rw [withoutClosing_append, hodd]
    simp

/-- An open text stays open when a quoted text follows it. -/
theorem IsOpen.append_quote {p : Char → Bool} (hbackslash : p '\\' = true)
    (hdelimiter : p d = true) {t : Text} (ht : IsOpen d t) :
  IsOpen d (t ++ Pattern.quote p s)
  := by
  induction s generalizing t with
  | nil => simpa using ht
  | cons c s ih =>
      cases hc : p c with
      | true =>
          have hsplit : t ++ Pattern.quote p (c :: s) = t ++ ['\\', c] ++ Pattern.quote p s := by
            rw [Pattern.quote_cons_of_quoted hc]
            simp
          rw [hsplit]
          apply ih (ht.append_escape c)
      | false =>
          have hsplit : t ++ Pattern.quote p (c :: s) = t ++ [c] ++ Pattern.quote p s := by
            rw [Pattern.quote_cons_of_plain hc]
            simp
          rw [hsplit]
          apply ih
          apply IsOpen.append_of_ne
          · rintro rfl
            rw [hbackslash] at hc
            contradiction
          · rintro rfl
            rw [hdelimiter] at hc
            contradiction

/-- The search pattern of a written field is open. -/
theorem isOpen_literal (s : Text) (fromStart toEnd : Bool) (hd : isDelimiter d = true)
    (magic : Bool) :
  IsOpen d (Pattern.literal (isQuoted magic d) fromStart toEnd s)
  := by
  have hcaret : IsOpen d ['^'] := by
    rcases eq_of_isDelimiter hd with rfl | rfl
    all_goals exact IsOpen.append_of_ne (by decide) (by decide) []
  have hnil : IsOpen d [] := ⟨rfl, rfl⟩
  have hstart : IsOpen d (if fromStart then ['^'] else []) := by
    cases fromStart with
    | true => apply hcaret
    | false => apply hnil
  have hbody : IsOpen d ((if fromStart then ['^'] else [])
      ++ Pattern.quote (isQuoted magic d) s) := by
    apply hstart.append_quote
    · simp [isQuoted, isEscaped]
    · simp [isQuoted, isEscaped]
  rw [Pattern.literal]
  cases toEnd with
  | true =>
      apply IsOpen.append_of_ne
      · decide
      · rcases eq_of_isDelimiter hd with rfl | rfl <;> decide
  | false => simpa using hbody

/-- The pattern of a written field between its delimiters. -/
theorem withoutClosing_literal (hd : isDelimiter d = true) (magic : Bool) (t : Text) :
  withoutClosing d (Pattern.literal (isQuoted magic d) fromStart toEnd s ++ closing d t)
    = Pattern.literal (isQuoted magic d) fromStart toEnd s
  := by
  obtain ⟨heven, hopen⟩ := isOpen_literal s fromStart toEnd hd magic
  rw [closing]
  split
  · rw [List.append_nil, hopen]
  · rw [withoutClosing_append, heven]
    simp

/-- A written field is read as a pattern for its text, with its delimiter. -/
theorem pattern?_ofField_written (hd : isDelimiter d = true) (magic : Bool)
    (hs : ∀ c ∈ s, Text.isLineEnd c = false) (hcaret : fromStart = false → s.head? ≠ some '^')
    {rest : Text} (hrest : FieldEnd rest) :
  (ofField magic (written d fromStart toEnd s rest)).pattern?
    = some (d, Pattern.literal (isQuoted magic d) fromStart toEnd s)
  := by
  have hblank : (written d fromStart toEnd s rest).dropWhile (fun c => c == ' ' || c == '\t')
      = written d fromStart toEnd s rest := by
    rcases eq_of_isDelimiter hd with rfl | rfl <;> rfl
  obtain ⟨t, ht, hdrop⟩ := dropExtension_written fromStart toEnd hd hs hrest
  have hsearch := toSearch?_written toEnd hd magic hs hcaret ht
  rw [ofField, hblank, hdrop, hsearch]
  simp only [pattern?, if_true, withoutClosing_literal hd magic]

/-- A field that a tag generator writes for a text, read back in either spelling, is a pattern
with the same delimiter that compiles; a search for it finds the least place where the text
stands, and nothing exactly when it stands nowhere.  A whole line is found as the first of the
lines equal to it, or as the last one if the delimiter asks for a backward search. -/
theorem search_ofField_written (fromStart toEnd : Bool) (hd : isDelimiter d = true)
    (hs : ∀ c ∈ s, Text.isLineEnd c = false) (hcaret : fromStart = false → s.head? ≠ some '^')
    (hdollar : toEnd = false → s.getLast? ≠ some '$') {rest : Text} (hrest : FieldEnd rest)
    (magic : Bool) :
  ∃ pattern m, (ofField magic (written d fromStart toEnd s rest)).pattern? = some (d, pattern)
    ∧ Pattern.compile pattern magic false = .ok m
    ∧ (∀ t : Text, '\n' ∉ t →
        (∀ p, m.first t = some p ↔ IsLeast {i | Text.StandsAt fromStart toEnd s t i} p)
          ∧ (m.first t = none ↔ ∀ i, ¬ Text.StandsAt fromStart toEnd s t i))
    ∧ (s ≠ [] → fromStart = true → toEnd = true → ∀ lines : List Text, (∀ l ∈ lines, '\n' ∉ l) →
        (∀ f, Search.whole m lines (direction d) = some f
            ↔ ∃ i, Search.IsExtreme (direction d) {i | lines[i]? = some s} i
              ∧ f = ⟨i + 1, 0, s⟩)
          ∧ (Search.whole m lines (direction d) = none ↔ s ∉ lines))
  := by
  refine ⟨Pattern.literal (isQuoted magic d) fromStart toEnd s,
    ⟨Regex.literal fromStart toEnd s, false⟩, pattern?_ofField_written hd magic hs hcaret hrest,
    ?_, ?_, ?_⟩
  · apply Pattern.compile_literal (quotes_isQuoted hd magic)
    · intro h hhead
      apply absurd hhead (hcaret h)
    · intro h hlast
      apply absurd hlast (hdollar h)
  · intro t ht
    constructor
    · intro p
      apply Matcher.first_literal ht
    · apply Matcher.first_literal_eq_none ht
  · rintro hne rfl rfl lines hlines
    constructor
    · intro f
      apply Search.whole_wholeLine_eq_some_iff hne hlines
    · apply Search.whole_wholeLine_eq_none_iff hne hlines

/-- The line `a/\*$` in a field with extension fields is found as the second line. -/
theorem search_ofField_written_comment :
  isDelimiter '/' = true ∧ (∀ c ∈ "a/\\*$".toList, Text.isLineEnd c = false)
    ∧ FieldEnd ";\"\tf\n".toList
    ∧ ∃ pattern m, (ofField true "/^a\\/\\\\*$$/;\"\tf\n".toList).pattern? = some ('/', pattern)
      ∧ Pattern.compile pattern true false = .ok m
      ∧ Search.whole m ["a".toList, "a/\\*$".toList] .forward = some ⟨2, 0, "a/\\*$".toList⟩
  := by
  have hd : isDelimiter '/' = true := by decide
  have hs : ∀ c ∈ "a/\\*$".toList, Text.isLineEnd c = false := by simp [Text.isLineEnd]
  have hrest : FieldEnd ";\"\tf\n".toList := .extension "\tf\n".toList
  obtain ⟨pattern, m, hpattern, hm, -, hwhole⟩ := search_ofField_written true true hd hs
    (fun h => nomatch h) (fun h => nomatch h) hrest true
  refine ⟨hd, hs, hrest, pattern, m, hpattern, hm, ?_⟩
  obtain ⟨hfound, -⟩ := hwhole (by decide) rfl rfl ["a".toList, "a/\\*$".toList] (by simp)
  apply (hfound _).mpr
  refine ⟨1, ⟨rfl, ?_⟩, rfl⟩
  intro i hi
  cases i with
  | zero => exact absurd hi (by decide)
  | succ i => omega

end TagNavigator.TagCommand
