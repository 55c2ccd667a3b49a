import TagNavigator.Proofs.Regex.Literal
import TagNavigator.Proofs.Session.Attainable
import TagNavigator.Proofs.Session.RoundTrip
import TagNavigator.Proofs.Tag.WrittenCommand
import TagNavigator.Proofs.Text.Lines
import TagNavigator.Proofs.Text.Utf8
import TagNavigator.Proofs.Workspace.Return
import TagNavigator.Proofs.Workspace.Succession

/-!
# What a file is loaded as

An index counts the lines of a file by its line ends, and does not count a byte order mark.  A
buffer keeps the mark as the first character of its first line, and breaks its lines at other
boundaries too.  So the two agree just if the file has neither (`Text.bufferLines_mark_iff`).  With
a mark alone the numbers of the lines are right, but a pattern for the start of the first line does
not match it (`loaded_as_counted`).
-/

namespace TagNavigator

/-! ### Byte order marks -/

/-- The bytes of a text, after a byte order mark if `marked` is on. -/
def Utf8.encodeMarked (marked : Bool) (t : Text) : Bytes :=
  (if marked then [0xEF, 0xBB, 0xBF] else []) ++ encode t

namespace Text

variable {t T line : Text} {k : Nat}

/-- The text, after the character of a byte order mark if `marked` is on. -/
def mark (marked : Bool) (t : Text) : Text :=
  if marked then '\ufeff' :: t else t

theorem encodeMarked_eq (marked : Bool) (t : Text) :
  Utf8.encodeMarked marked t = Utf8.encode (mark marked t)
  := by
  cases marked with
  | false => rfl
  | true => rfl

theorem unifyLineEnds_mark (marked : Bool) (t : Text) :
  unifyLineEnds (mark marked t) = mark marked (unifyLineEnds t)
  := by
  cases marked with
  | false => rfl
  | true => rfl

/-- A mark is kept as a character in front of the text. -/
theorem textOf_encodeMarked (marked : Bool) (t : Text) :
  World.textOf (Utf8.encodeMarked marked t) = mark marked (unifyLineEnds t)
  := by
  rw [World.textOf, encodeMarked_eq, Utf8.decode?_encode, Option.getD_some, unifyLineEnds_mark]

theorem bufferLines_mark (marked : Bool) (t : Text) :
  bufferLines (mark marked t) = (bufferLines t).modifyHead (mark marked)
  := by
  cases marked with
  | false => exact (congrFun List.modifyHead_id _).symm
  | true => exact bufferLines_cons rfl t

/-- The first line of a marked text is not the first one that is counted. -/
theorem head?_bufferLines_mark_ne (hT : T.head? ≠ some '\ufeff') (t : Text) :
  (bufferLines (mark true t)).head? ≠ (countedLines T).head?
  := by
  intro h
  rw [bufferLines_mark, List.head?_modifyHead,
    List.head?_eq_some_head (bufferLines_ne_nil t), Option.map_some] at h
  exact hT (head?_of_head?_countedLines h.symm rfl)

/-- The first lines of a loaded text are the first ones that are counted, just if it has no mark and
no other boundaries there. -/
theorem take_bufferLines_mark_iff (marked : Bool) (hT : T.head? ≠ some '\ufeff') (hk : k ≠ 0) :
  (bufferLines (mark marked (unifyLineEnds T))).take k = (countedLines T).take k
    ↔ marked = false ∧ ∀ line ∈ (countedLines T).take k, Unbroken line
  := by
  cases marked with
  | false =>
      rw [mark, if_neg Bool.false_ne_true, take_bufferLines_iff, eq_self, true_and]
  | true =>
      constructor
      · intro h
        have hhead := congrArg List.head? h
        rw [List.head?_take, if_neg hk, List.head?_take, if_neg hk] at hhead
        exact absurd hhead (head?_bufferLines_mark_ne hT _)
      · rintro ⟨h, -⟩
        cases h

/-- The lines of a loaded text are the ones that are counted, just if it has no mark and no other
boundaries. -/
theorem bufferLines_mark_iff (marked : Bool) (hT : T.head? ≠ some '\ufeff') :
  bufferLines (mark marked (unifyLineEnds T)) = countedLines T
    ↔ marked = false ∧ ∀ line ∈ countedLines T, Unbroken line
  := by
  have hlength := Nat.le_max_left (bufferLines (mark marked (unifyLineEnds T))).length
    ((countedLines T).length + 1)
  have hlength' := Nat.le_max_right (bufferLines (mark marked (unifyLineEnds T))).length
    ((countedLines T).length + 1)
  have htake := take_bufferLines_mark_iff marked hT
    (Nat.ne_of_gt (Nat.lt_of_lt_of_le (Nat.succ_pos _) hlength'))
  rwa [List.take_of_length_le hlength, List.take_of_length_le (Nat.le_of_succ_le hlength')] at htake

/-- A line of a loaded text is the one that is counted, after the mark if it is the first one, as
far as there are no other boundaries. -/
theorem getElem?_bufferLines_mark (marked : Bool) (hline : (countedLines T)[k]? = some line)
    (hunbroken : ∀ line ∈ (countedLines T).take (k + 1), Unbroken line) :
  (bufferLines (mark marked (unifyLineEnds T)))[k]?
    = some (if k = 0 then mark marked line else line)
  := by
  have hplain : (bufferLines (unifyLineEnds T))[k]? = some line := by
    have htake := congrArg (·[k]?) (take_bufferLines_iff.mpr hunbroken)
    simp only [List.getElem?_take_of_lt (Nat.lt_succ_self k)] at htake
    rw [htake, hline]
  rw [bufferLines_mark, List.getElem?_modifyHead, hplain]
  split <;> rfl

end Text

/-! ### Buffers of files -/

namespace Workspace

variable {ws ws' : Workspace} {w : World} {path : Path} {log : List LogLine} {t : Text}

/-- A switch to a file shows its lines, if the buffer that holds it does. -/
theorem lines_editFile (hws : ws.Stocked) (hedit : ws.editFile w path = (.made, log, ws'))
    (hread : w.readText path = .ok t)
    (hheld : ∀ resolved b, w.resolve path = .ok resolved → ws.buffers.find? resolved = some b →
      b.lines = Text.bufferLines t) :
  ws'.lines = Text.bufferLines t
  := by
  obtain ⟨e, -, he⟩ | ⟨why, log', he⟩ | ⟨resolved, number, loaded, hresolve, hload, he⟩ :=
    editFile_cases w ws path
  · rw [he] at hedit
    cases hedit
  · rw [he] at hedit
    cases hedit
  · rw [he] at hedit
    obtain ⟨-, rfl⟩ : [] = log ∧ loaded.showBuffer number = ws' := by simpa using hedit
    obtain ⟨b, hb, hlines⟩ : ∃ b, loaded.buffers.get? number = some b
        ∧ b.lines = Text.bufferLines t := by
      rcases load_eq_ok_iff.mp hload with ⟨b, hfind, rfl, rfl⟩ | ⟨-, t', ht', rfl, rfl⟩
      · rw [buffers_opened] at hfind
        refine ⟨b, ?_, hheld resolved b hresolve hfind⟩
        rw [buffers_opened]
        exact hws.sound.get?_of_mem (List.mem_filter.mp (List.mem_of_find?_eq_some hfind)).1
      · obtain rfl := Except.ok.inj (hread.symm.trans ht')
        have hnumbered : ws.opened.buffers.Numbered := by
          rw [buffers_opened]
          exact hws.sound.numbered
        exact ⟨_, Buffers.get?_add_next hnumbered _ _, rfl⟩
    obtain ⟨c, hshown⟩ := (onlyMoved_showBuffer loaded number).get? hb
    rw [lines, linesOf_of_get? (window_showBuffer loaded number).1 hshown, ← hlines]

end Workspace

namespace Session

variable {s : Session} {l : Location} {ws : Workspace} {log : List LogLine} {k : Nat} {line : Text}

/-! ### Jumps by numbers -/

/-- A visit to the location is made and ends on line `k`, which has the text `line`. -/
def LandsOn (s : Session) (l : Location) (k : Nat) (line : Text) : Prop :=
  ∃ s', s.visit l = (.made, s') ∧ s'.workspace.window.cursor.line = k
    ∧ s'.workspace.currentLine = line

/-- A jump by a number ends on the line with that number. -/
theorem landsOn_of_number (hpattern : l.command.pattern? = none)
    (haddress : LineAddress.ofCommand l.command.text = .ok (some (.absolute (k + 1))))
    (hedit : s.workspace.editFile s.world l.path = (.made, log, ws))
    (hline : ws.lines[k]? = some line) :
  LandsOn s l (k + 1) line
  := by
  obtain ⟨hlt, -⟩ := List.getElem?_eq_some_iff.mp hline
  have hnumber : min (max 1 ((k + 1 : Nat) : Int)) (max 1 ws.lines.length) = k + 1 := by omega
  have hresolve : LineAddress.resolve l.command.text 1 ws.lines.length
      = .ok (some ((k : Int) + 1)) := by
    rw [LineAddress.resolve, haddress, ← hnumber]
    rfl
  obtain ⟨s', hvisit, hworkspace, -⟩ :=
    visit_of_made hedit (placeCursor_of_line hpattern hresolve s.options)
  have hcursor : s'.workspace.window.cursor.line = k + 1 := by
    rw [hworkspace]
    change (Cursor.clamp ws.lines _).line = _
    rw [Cursor.clamp]
    dsimp only
    omega
  refine ⟨s', hvisit, hcursor, ?_⟩
  rw [Workspace.currentLine, hcursor, hworkspace]
  exact Cursor.lineText_of_getElem? hline

/-- The location gives line `k` by its number, of a file that the current window may show.  If a
buffer holds the file already, then with the lines of the text `t`. -/
structure GivesNumber (s : Session) (l : Location) (t : Text) (k : Nat) : Prop where
  attainable : Attainable s
  shown : (s.workspace.editFile s.world l.path).1 = .made
  held : ∀ resolved b, s.world.resolve l.path = .ok resolved →
    s.workspace.buffers.find? resolved = some b → b.lines = Text.bufferLines t
  pattern : l.command.pattern? = none
  address : LineAddress.ofCommand l.command.text = .ok (some (.absolute k))

theorem GivesNumber.landsOn {t : Text} (h : GivesNumber s l t (k + 1))
    (hread : s.world.readText l.path = .ok t) (hline : (Text.bufferLines t)[k]? = some line) :
  LandsOn s l (k + 1) line
  := by
  have hshown := h.shown
  generalize hedit : s.workspace.editFile s.world l.path = outcome at hshown
  obtain ⟨switch, log, ws⟩ := outcome
  subst hshown
  have hlines := Workspace.lines_editFile h.attainable.stocked hedit hread h.held
  rw [← hlines] at hline
  exact landsOn_of_number h.pattern h.address hedit hline

/-! ### Patterns at the start of a line -/

section

variable {x t T first : Text} {toEnd : Bool}

/-- A literal expression at the start of a line has a match there or none. -/
theorem exists_first_anchored_iff (ht : '\n' ∉ t) :
  (∃ p, Matcher.first ⟨Regex.literal true toEnd x, false⟩ t = some p)
    ↔ Text.StandsAt true toEnd x t 0
  := by
  simp only [Matcher.first_literal ht]
  constructor
  · rintro ⟨p, hp, -⟩
    obtain rfl := hp.2.2.1 rfl
    exact hp
  · intro h
    exact ⟨0, h, fun _ _ => Nat.zero_le _⟩

/-- A text that does not start with a mark does not stand at the start of a marked line. -/
theorem not_standsAt_mark (hne : x ≠ []) (hx : x.head? ≠ some '\ufeff') (line : Text) :
  ¬ Text.StandsAt true toEnd x (Text.mark true line) 0
  := by
  rintro ⟨-, htake, -⟩
  obtain ⟨c, x, rfl⟩ := List.exists_cons_of_ne_nil hne
  obtain ⟨rfl, -⟩ := List.cons.inj htake
  exact hx rfl

/-- A literal expression at the start of a line matches the first line of a loaded text just if its
text stands there, and the loaded text has no mark. -/
theorem exists_first_loaded_iff (hne : x ≠ []) (hx : x.head? ≠ some '\ufeff') {marked : Bool}
    (hfirst : first ∈ (Text.bufferLines (Text.mark marked t)).head?) :
  (∃ p, Matcher.first ⟨Regex.literal true toEnd x, false⟩ first = some p)
    ↔ marked = false ∧ Text.StandsAt true toEnd x first 0
  := by
  have hlineFeed : '\n' ∉ first := by
    intro hmem
    have hunbroken := Text.unbroken_of_mem_bufferLines (List.mem_of_mem_head? hfirst) _ hmem
    exact absurd hunbroken (by decide)
  rw [exists_first_anchored_iff hlineFeed]
  cases marked with
  | false => rw [eq_self, true_and]
  | true =>
      rw [Text.bufferLines_mark, List.head?_modifyHead] at hfirst
      obtain ⟨line, -, rfl⟩ := Option.map_eq_some_iff.mp hfirst
      constructor
      · intro h
        exact absurd h (not_standsAt_mark hne hx line)
      · rintro ⟨h, -⟩
        cases h

end

/-- A file that holds a text in UTF-8 is loaded, after a byte order mark or without.  The lines of
its buffer are the lines of the text that are counted by line ends just if there is no mark and no
line holds another boundary.  A jump by a number ends on the line with that number, and as far as
there are no other boundaries it is the one that is counted, after the mark if it is the first one.
The field that a tag generator writes for the start of a line matches the first line just if its
text stands there and there is no mark. -/
theorem loaded_as_counted {T : Text} (hT : T.head? ≠ some '\ufeff') {marked : Bool} {w : World}
    {path : Path} (hfile : w.readBytes path = .ok (Utf8.encodeMarked marked T)) :
  ∃ t, w.readText path = .ok t
    ∧ (Text.bufferLines t = Text.countedLines T
      ↔ marked = false ∧ ∀ line ∈ Text.countedLines T, Text.Unbroken line)
    ∧ (∀ s l k line, s.world = w → l.path = path → GivesNumber s l t (k + 1) →
        (Text.countedLines T)[k]? = some line →
        (∀ line ∈ (Text.countedLines T).take (k + 1), Text.Unbroken line) →
        LandsOn s l (k + 1) (if k = 0 then Text.mark marked line else line))
    ∧ (∀ d toEnd x rest magic, TagCommand.isDelimiter d = true → x ≠ [] →
        x.head? ≠ some '\ufeff' → (∀ c ∈ x, Text.isLineEnd c = false) →
        (toEnd = false → x.getLast? ≠ some '$') → TagCommand.FieldEnd rest →
        ∃ pattern m,
          (TagCommand.ofField magic (TagCommand.written d true toEnd x rest)).pattern?
            = some (d, pattern)
          ∧ Pattern.compile pattern magic false = .ok m
          ∧ ∀ first ∈ (Text.bufferLines t).head?,
            (∃ p, m.first first = some p) ↔ marked = false ∧ Text.StandsAt true toEnd x first 0)
  := by
  have hread : w.readText path = .ok (Text.mark marked (Text.unifyLineEnds T)) := by
    rw [World.readText, hfile, ← Text.textOf_encodeMarked]
    rfl
  refine ⟨_, hread, Text.bufferLines_mark_iff marked hT, ?_, ?_⟩
  · rintro s l k line rfl rfl hnames hline hunbroken
    exact hnames.landsOn hread (Text.getElem?_bufferLines_mark marked hline hunbroken)
  · intro d toEnd x rest magic hd hne hx hplain hdollar hrest
    have hcaret : true = false → x.head? ≠ some '^' := by
      intro h
      cases h
    refine ⟨_, ⟨Regex.literal true toEnd x, false⟩,
      TagCommand.pattern?_ofField_written hd magic hplain hcaret hrest, ?_, ?_⟩
    · apply Pattern.compile_literal (TagCommand.quotes_isQuoted hd magic)
      · intro h
        cases h
      · intro h hlast
        exact absurd hlast (hdollar h)
    · intro first hfirst
      exact exists_first_loaded_iff hne hx hfirst

/-- A world with one file. -/
def holding (content : Bytes) : World :=
  ⟨⟨[(["a".toList], .file content)]⟩, [], [], ⟨.slash, []⟩, {}⟩

/-- The second line of that file. -/
def secondLine : Location :=
  ⟨"g".toList, "g".toList, Path.ofText "a".toList, TagCommand.ofField true "2;\"\tf\n".toList,
    Path.ofText "tags".toList, 1⟩

/-- With a mark, the lines have the right numbers, but the first one is not as it is counted. -/
theorem loaded_as_counted_marked :
  "int f;\r\nint g;\n".toList.head? ≠ some '\ufeff'
    ∧ (holding (Utf8.encodeMarked true "int f;\r\nint g;\n".toList)).readBytes secondLine.path
      = .ok (Utf8.encodeMarked true "int f;\r\nint g;\n".toList)
    ∧ LandsOn (start (holding (Utf8.encodeMarked true "int f;\r\nint g;\n".toList)) {}) secondLine 2
      "int g;".toList
  := by
  have hT : "int f;\r\nint g;\n".toList.head? ≠ some '\ufeff' := by decide
  have hfile : (holding (Utf8.encodeMarked true "int f;\r\nint g;\n".toList)).readBytes
      secondLine.path = .ok (Utf8.encodeMarked true "int f;\r\nint g;\n".toList) := by
    decide +kernel
  refine ⟨hT, hfile, ?_⟩
  obtain ⟨t, -, -, hlands, -⟩ := loaded_as_counted hT hfile
  apply hlands (start _ {}) secondLine 1 "int g;".toList rfl rfl
  · constructor
    · apply Attainable.start
    · decide +kernel
    · intro resolved b _ hb
      cases hb
    · decide
    · decide +kernel
  · decide
  · decide

/-- A byte order mark stays in front of the first line, and a form feed breaks a line. -/
theorem loaded_beyond_counted :
  ¬ (∀ (T : Text) (w : World) (path : Path), T.head? ≠ some '\ufeff' →
      w.readBytes path = .ok (Utf8.encodeMarked true T) →
      Text.bufferLines <$> w.readText path = .ok (Text.countedLines T))
    ∧ ¬ (∀ (T : Text) (w : World) (path : Path), T.head? ≠ some '\ufeff' →
      w.readBytes path = .ok (Utf8.encodeMarked false T) →
      Text.bufferLines <$> w.readText path = .ok (Text.countedLines T))
  := by
  constructor
  · intro h
    have hmark := h "x\n".toList (holding (Utf8.encodeMarked true "x\n".toList)) secondLine.path
      (by decide) (by decide +kernel)
    revert hmark
    decide +kernel
  · intro h
    have hformFeed := h "a\x0cb\n".toList (holding (Utf8.encodeMarked false "a\x0cb\n".toList))
      secondLine.path (by decide) (by decide +kernel)
    revert hformFeed
    decide +kernel

end Session

end TagNavigator
