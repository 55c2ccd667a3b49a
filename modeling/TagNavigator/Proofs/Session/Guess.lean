import TagNavigator.Proofs.Search.Extreme
import TagNavigator.Proofs.Session.Boundaries
import TagNavigator.Proofs.Tag.Fallback

/-!
# Records that are out of date

The pattern of a record is out of date if it does not compile or matches no line of the file.  A
visit then goes to the first line that starts with the name of the tag and a parenthesis, or else to
the first one that starts like a declaration and has them later, and warns that it guesses.  If there
is none either, the cursor stays where the switch to the file put it (`visit_of_stale`).  Lines hold
no line feed, as those of every attainable session.
-/

namespace TagNavigator.Session

open TagCommand (StartsWithCall DeclaresCall call declaration)

/-- The pattern does not compile, or a match of it starts nowhere in the lines. -/
def Stale (o : Options) (lines : List Text) (pattern : Text) : Prop :=
  ∀ m, Pattern.compile pattern o.magic o.ignoreCase = .ok m →
    Search.places m (Search.searched lines) = ∅

/-- The line that is guessed for a tag, by its index, if there is one. -/
inductive Guess (name : Text) (lines : List Text) : Option Nat → Prop where
  | call {i : Nat} (h : IsLeast (Search.indices (StartsWithCall name) lines) i) :
    Guess name lines (some i)
  | declaration {i : Nat} (hcall : ∀ line ∈ lines, ¬ StartsWithCall name line)
    (h : IsLeast (Search.indices (DeclaresCall name) lines) i) : Guess name lines (some i)
  | nothing (hcall : ∀ line ∈ lines, ¬ StartsWithCall name line)
    (hdeclaration : ∀ line ∈ lines, ¬ DeclaresCall name line) : Guess name lines none

/-- The jump to a location ends in the workspace, with the warning and the notice for it. -/
structure EndsWarned (s : Session) (l : Location) (ws : Workspace) (w : JumpWarning) (notice : Text)
    (s' : Session) : Prop where
  workspace : s'.workspace = ws
  lastJump : s'.lastJump = some ⟨l, ws.window.id, ws.window.cursor, some w⟩
  status : s'.status = notice
  notices : s'.notices = s.notices ++ [notice]

variable {o : Options} {lines : List Text} {name pattern : Text}

/-! ### Searches -/

theorem seek_of_stale (h : Stale o lines pattern) (direction : Search.Direction) :
  (seek o lines pattern direction).1 = none
  := by
  rw [seek]
  split
  · rfl
  · rename_i m hm
    cases direction with
    | forward => exact Search.whole_forward_eq_none_iff.mpr (h m hm)
    | backward =>
        rw [Search.whole_backward]
        exact Search.lastInLine_eq_none_iff.mpr (h m hm)

theorem seek_of_compile {m : Matcher} (h : Pattern.compile pattern o.magic o.ignoreCase = .ok m)
    (direction : Search.Direction) :
  seek o lines pattern direction = (Search.whole m lines direction, [])
  := by
  rw [seek, h]

/-- The place that is guessed is column zero of the line that is guessed. -/
theorem exists_guess (hcase : o.ignoreCase = false) (hlines : ∀ line ∈ lines, '\n' ∉ line)
    (name : Text) :
  ∃ place, Guess name lines place
    ∧ (guess o lines name [(TagCommand.fallbacks o.magic name).1,
          (TagCommand.fallbacks o.magic name).2]).1.map (fun f => Cursor.mk f.line f.column)
      = place.map (fun i => Cursor.mk (i + 1) 0)
  := by
  have hfirst : ∀ line ∈ Search.searched lines, Search.Selects
      ⟨Regex.literal true false (call name), false⟩ (StartsWithCall name) line := by
    apply Search.forall_mem_searched
    · apply TagCommand.selects_call List.not_mem_nil
    · exact fun line hline => TagCommand.selects_call (hlines line hline)
  have hsecond : ∀ line ∈ Search.searched lines, Search.Selects
      ⟨declaration (call name), false⟩ (DeclaresCall name) line := by
    apply Search.forall_mem_searched
    · apply TagCommand.selects_declaration List.not_mem_nil
    · exact fun line hline => TagCommand.selects_declaration (hlines line hline)
  have hseek := TagCommand.compile_fallbacks_fst o.magic name o.ignoreCase
  have hseek' := TagCommand.compile_fallbacks_snd o.magic name o.ignoreCase
  simp only [guess, seek_of_compile hseek, seek_of_compile hseek', hcase]
  cases hcall : Search.whole ⟨Regex.literal true false (call name), false⟩ lines .forward with
  | some f =>
      obtain ⟨i, line, hi, hline, rfl⟩ := (Search.whole_of_selects_eq_some_iff
        TagCommand.not_startsWithCall_nil hfirst).mp hcall
      exact ⟨some i, .call hi, rfl⟩
  | none =>
      have hnone := (Search.whole_of_selects_eq_none_iff
        TagCommand.not_startsWithCall_nil hfirst).mp hcall
      cases hdeclaration : Search.whole ⟨declaration (call name), false⟩ lines .forward with
      | some f =>
          obtain ⟨i, line, hi, hline, rfl⟩ := (Search.whole_of_selects_eq_some_iff
            TagCommand.not_declaresCall_nil hsecond).mp hdeclaration
          exact ⟨some i, .declaration hnone hi, rfl⟩
      | none =>
          have hnone' := (Search.whole_of_selects_eq_none_iff
            TagCommand.not_declaresCall_nil hsecond).mp hdeclaration
          exact ⟨none, .nothing hnone hnone', rfl⟩

/-! ### Visits -/

variable {s : Session} {l : Location} {ws ws' : Workspace} {d : Char} {place : Option Nat}

theorem Guess.lt_length {i : Nat} (h : Guess name lines (some i)) :
  i < lines.length
  := by
  have hlt : ∀ P, IsLeast (Search.indices P lines) i → i < lines.length := by
    rintro P ⟨⟨line, hline, -⟩, -⟩
    exact (List.getElem?_eq_some_iff.mp hline).1
  cases h with
  | call h => exact hlt _ h
  | declaration hcall h => exact hlt _ h

/-- The cursor of the current window goes to the start of any line that is there. -/
theorem cursor_setCursor {i : Nat} (hi : i < ws.lines.length) :
  (ws.setCursor ⟨i + 1, 0⟩).window.cursor = ⟨i + 1, 0⟩
  := by
  have hline : min (max 1 ((i : Int) + 1)) (max 1 ws.lines.length) = i + 1 := by omega
  have hcolumn : ∀ width : Nat, min (max 0 (0 : Int)) (max 0 (width - 1)) = 0 := by
    intro width
    omega
  change Cursor.clamp ws.lines ⟨i + 1, 0⟩ = ⟨i + 1, 0⟩
  simp only [Cursor.clamp, hline, hcolumn]

/-- Where the cursor goes if the pattern is out of date. -/
theorem exists_placeCursor_of_stale (hpattern : l.command.pattern? = some (d, pattern))
    (hstale : Stale o ws.lines pattern) :
  ∃ log, placeCursor o l ws
    = match (guess o ws.lines l.tagName [(TagCommand.fallbacks o.magic l.tagName).1,
        (TagCommand.fallbacks o.magic l.tagName).2]).1 with
      | some f => (ws.setCursor ⟨f.line, f.column⟩, log, .ok (some .guessed))
      | none => (ws, log, .ok (some .patternNotFound))
  := by
  generalize hdirection : (if d = '/' then Search.Direction.forward else .backward) = direction
  have hseek := seek_of_stale hstale direction
  simp only [placeCursor, hpattern, placeOf, hdirection]
  generalize seek o ws.lines pattern direction = sought at hseek
  obtain ⟨_, log⟩ := sought
  subst hseek
  generalize guess o ws.lines l.tagName [(TagCommand.fallbacks o.magic l.tagName).1,
    (TagCommand.fallbacks o.magic l.tagName).2] = guessed
  obtain ⟨_ | f, more⟩ := guessed
  · exact ⟨log ++ more, rfl⟩
  · exact ⟨log ++ more, rfl⟩

theorem exists_endsWarned {log log' : List LogLine} {w : JumpWarning}
    (hedit : s.workspace.editFile s.world l.path = (.made, log, ws))
    (hplace : placeCursor s.options l ws = (ws', log', .ok (some w))) :
  ∃ s', s.visit l = (.made, s') ∧ EndsWarned s l ws' w w.message s'
  := by
  simp only [visit, hedit, hplace]
  exact ⟨_, rfl, rfl, rfl, rfl, rfl⟩

/-- A visit to a record whose pattern is out of date goes, once the file is shown, to the start of
the line that is guessed, with a warning that it guesses.  If no line is guessed, the cursor stays
where the switch to the file put it, with a warning that the pattern was not found. -/
theorem visit_of_stale {log : List LogLine} (hcase : s.options.ignoreCase = false)
    (hedit : s.workspace.editFile s.world l.path = (.made, log, ws))
    (hlines : ∀ line ∈ ws.lines, '\n' ∉ line)
    (hpattern : l.command.pattern? = some (d, pattern)) (hstale : Stale s.options ws.lines pattern) :
  ∃ place s', Guess l.tagName ws.lines place ∧ s.visit l = (.made, s')
    ∧ match place with
      | some i =>
        EndsWarned s l (ws.setCursor ⟨i + 1, 0⟩) .guessed
            "Couldn't find tag, just guessing!".toList s'
          ∧ s'.workspace.window.cursor = ⟨i + 1, 0⟩
      | none => EndsWarned s l ws .patternNotFound "Can't find tag pattern".toList s'
  := by
  obtain ⟨place, hguess, hmap⟩ := exists_guess hcase hlines l.tagName
  obtain ⟨log', hplace⟩ := exists_placeCursor_of_stale hpattern hstale
  cases place with
  | some i =>
      obtain ⟨f, hf, hcursor⟩ := Option.map_eq_some_iff.mp hmap
      rw [hf] at hplace
      dsimp only at hplace
      rw [hcursor] at hplace
      obtain ⟨s', hvisit, hends⟩ := exists_endsWarned hedit hplace
      refine ⟨some i, s', hguess, hvisit, hends, ?_⟩
      rw [hends.workspace]
      apply cursor_setCursor hguess.lt_length
  | none =>
      rw [Option.map_eq_none_iff.mp hmap] at hplace
      obtain ⟨s', hvisit, hends⟩ := exists_endsWarned hedit hplace
      exact ⟨none, s', hguess, hvisit, hends⟩

/-- A world with a file that declares a function with a strange name. -/
def renamed : World :=
  ⟨⟨[(["a".toList], .file (Utf8.encode "x = 1\nint f[.*$(int n)\nf.*$(2)\n".toList))]⟩, [], [],
    ⟨.slash, []⟩, {}⟩

/-- The place of the function, by a pattern that matches no line any more. -/
def formerly : Location :=
  ⟨"f".toList, "f[.*$".toList, Path.ofText "a".toList, TagCommand.ofField true "?^gone$?".toList,
    Path.ofText "tags".toList, 1⟩

/-- The line that declares the function is guessed, though its name is full of operators. -/
theorem visit_of_stale_renamed :
  let s := start renamed {}
  let lines := ["x = 1".toList, "int f[.*$(int n)".toList, "f.*$(2)".toList]
  s.options.ignoreCase = false
    ∧ (s.workspace.editFile s.world formerly.path).1 = .made
    ∧ (s.workspace.editFile s.world formerly.path).2.2.lines = lines
    ∧ formerly.command.pattern? = some ('?', "^gone$".toList)
    ∧ Stale s.options lines "^gone$".toList
    ∧ Guess formerly.tagName lines (some 1)
    ∧ (s.visit formerly).2.workspace.window.cursor = ⟨2, 0⟩
    ∧ (s.visit formerly).2.status = "Couldn't find tag, just guessing!".toList
  := by
  intro s lines
  have hcase : s.options.ignoreCase = false := rfl
  have hmade : (s.workspace.editFile s.world formerly.path).1 = .made := by decide +kernel
  have hshown : (s.workspace.editFile s.world formerly.path).2.2.lines = lines := by
    decide +kernel
  have hlines : ∀ line ∈ (s.workspace.editFile s.world formerly.path).2.2.lines, '\n' ∉ line :=
    (Attainable.start renamed {}).lineFeed_notMem formerly.path
  have hpattern : formerly.command.pattern? = some ('?', "^gone$".toList) := by decide
  have hstale : Stale s.options lines "^gone$".toList := by
    intro m hm
    obtain rfl : ⟨Regex.literal true true "gone".toList, false⟩ = m :=
      Except.ok.inj (Eq.trans (by decide) hm)
    exact Search.whole_forward_eq_none_iff.mp (by decide)
  have hcursor : (s.visit formerly).2.workspace.window.cursor = ⟨2, 0⟩ := by decide +kernel
  have hstatus : (s.visit formerly).2.status = "Couldn't find tag, just guessing!".toList := by
    decide +kernel
  refine ⟨hcase, hmade, hshown, hpattern, hstale, ?_, hcursor, hstatus⟩
  generalize hedit : s.workspace.editFile s.world formerly.path = outcome at hmade hshown hlines
  obtain ⟨switch, log, ws⟩ := outcome
  subst hmade
  dsimp only at hshown
  rw [← hshown] at hstale ⊢
  obtain ⟨place, s', hguess, hvisit, hends⟩ := visit_of_stale hcase hedit hlines hpattern hstale
  rw [hvisit] at hcursor hstatus
  cases place with
  | some i =>
      obtain ⟨hline, -⟩ := Cursor.mk.inj (hends.2.symm.trans hcursor)
      obtain rfl : i = 1 := by omega
      exact hguess
  | none => exact absurd (hends.status.symm.trans hstatus) (by decide)

end TagNavigator.Session
