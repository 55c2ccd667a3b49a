import TagNavigator.Proofs.Search.LineAddress
import TagNavigator.Proofs.Session.Attainable
import TagNavigator.Proofs.Session.RoundTrip
import TagNavigator.Proofs.Tag.LineCommand

/-!
# Visits to lines

A visit to a record with a line command is made once the file is shown, whatever the command is.
The cursor goes to the line that is named, or to the nearest one of the file, at the first column
that holds neither a space nor a tab.  If the command names no line, the cursor goes to the start of
the file, with a warning that says so (`visit_of_isLineCommand`).  The file that is shown has lines,
in every attainable session (`Attainable.lines_ne_nil`).
-/

namespace TagNavigator

/-! ### The first column that is not blank -/

/-- The column of a line where a visit to the line puts the cursor: the first one that holds neither
a space nor a tab, the last one of a line of spaces and tabs, and zero in the empty line. -/
inductive IsFirstNonblank : Text → Nat → Prop
  | found {indent : Text} {c : Char} {rest : Text} (hindent : ∀ b ∈ indent, b = ' ' ∨ b = '\t')
    (hc : ¬ (c = ' ' ∨ c = '\t')) : IsFirstNonblank (indent ++ c :: rest) indent.length
  | blank {indent : Text} {b : Char} (hblank : ∀ c ∈ indent ++ [b], c = ' ' ∨ c = '\t') :
    IsFirstNonblank (indent ++ [b]) indent.length
  | empty : IsFirstNonblank [] 0

theorem isFirstNonblank_firstNonblank (t : Text) :
  IsFirstNonblank t (firstNonblank t)
  := by
  have hblank : ∀ c, (c == ' ' || c == '\t') = true ↔ c = ' ' ∨ c = '\t' := by simp
  have hindent : ∀ c ∈ t.takeWhile (fun c => c == ' ' || c == '\t'), c = ' ' ∨ c = '\t' :=
    fun c hc => (hblank c).mp (List.all_eq_true.mp List.all_takeWhile c hc)
  have hsplit := List.takeWhile_append_dropWhile (p := fun c => c == ' ' || c == '\t') (l := t)
  have hhead := List.head?_dropWhile_not (fun c => c == ' ' || c == '\t') t
  rw [firstNonblank]
  generalize t.takeWhile (fun c => c == ' ' || c == '\t') = indent at *
  generalize t.dropWhile (fun c => c == ' ' || c == '\t') = rest at *
  subst hsplit
  cases rest with
  | cons c rest =>
      rw [if_pos (by simp)]
      refine .found hindent ?_
      rw [← hblank c]
      simpa using hhead
  | nil =>
      -- Only blanks, so the last one counts.
      rw [List.append_nil, if_neg (lt_irrefl _)]
      cases indent using List.reverseRecOn with
      | nil => exact .empty
      | append_singleton indent b =>
          rw [List.length_append, List.length_singleton, Nat.add_sub_cancel]
          exact .blank hindent

variable {lines : List Text} {t : Text} {column : Nat}

theorem IsFirstNonblank.le (h : IsFirstNonblank t column) :
  (column : Int) ≤ max 0 ((t.length : Int) - 1)
  := by
  cases h with
  | found | blank =>
      simp only [List.length_append, List.length_cons]
      omega
  | empty => omega

/-! ### Cursors on lines -/

namespace Cursor

theorem inside_of_isFirstNonblank {i : Nat} (hi : lines[i]? = some t)
    (h : IsFirstNonblank t column) :
  Inside lines ⟨i + 1, column⟩
  := by
  obtain ⟨hlt, -⟩ := List.getElem?_eq_some_iff.mp hi
  constructor
  · dsimp only
    omega
  · dsimp only
    omega
  · dsimp only
    omega
  · rw [lineText_of_getElem? hi]
    exact h.le

end Cursor

namespace Session

open LineAddress (LineCommand Short)
open TagCommand (CommandText IsLineCommand)

variable {s : Session} {l : Location} {ws : Workspace} {log : List LogLine} {field text : Text}

/-- The file that is shown has lines, in every attainable session. -/
theorem Attainable.lines_ne_nil (h : Attainable s) (w : World) (path : Path) :
  (s.workspace.editFile w path).2.2.lines ≠ []
  := by
  have hinside := (h.stocked.editFile w path).inside (Windows.current_mem_all _)
  exact List.length_pos_iff.mp (Int.natCast_pos.mp
    (Int.lt_of_lt_of_le Int.one_pos (hinside.line_pos.trans hinside.line_le)))

/-- Where a line command, without blanks around it, leads in a file, and with which warning.  The
line that it names may be outside the file. -/
structure Destination (lines : List Text) (command : Text) (cursor : Cursor)
    (warning : Option JumpWarning) : Prop where
  inside : cursor.Inside lines
  line : ∀ line, LineCommand 1 lines.length command line → warning = none
    ∧ ∃ (i : Nat) (t : Text) (column : Nat), (i : Int) + 1 = min (max 1 line) lines.length
      ∧ lines[i]? = some t ∧ IsFirstNonblank t column ∧ cursor = ⟨i + 1, column⟩
  start : (∀ line, ¬ LineCommand 1 lines.length command line) → cursor = ⟨1, 0⟩
    ∧ warning.map JumpWarning.message = some ("Not an editor command: ".toList ++ command)

/-- The jump to a location ends in the workspace with the cursor of the current window at another
place, and with the warning, if there is one, and the notice for it. -/
structure Lands (s : Session) (l : Location) (ws : Workspace) (cursor : Cursor)
    (warning : Option JumpWarning) (s' : Session) : Prop where
  workspace : s'.workspace = ws.withWindow { ws.window with cursor := cursor }
  lastJump : s'.lastJump = some ⟨l, ws.window.id, cursor, warning⟩
  notices : s'.notices = s.notices ++ (warning.map JumpWarning.message).toList

/-- A visit ends where the cursor is put. -/
theorem exists_lands {cursor : Cursor} {warning : Option JumpWarning} {log' : List LogLine}
    (hedit : s.workspace.editFile s.world l.path = (.made, log, ws))
    (hplace : placeCursor s.options l ws = (ws.setCursor cursor, log', .ok warning))
    (hcursor : cursor.Inside ws.lines) :
  ∃ s', s.visit l = (.made, s') ∧ Lands s l ws cursor warning s'
  := by
  have hset : ws.setCursor cursor = ws.withWindow { ws.window with cursor := cursor } := by
    rw [Workspace.setCursor, hcursor.clamp_eq]
  rw [hset] at hplace
  simp only [visit, hedit, hplace]
  cases warning with
  | none =>
      refine ⟨_, rfl, ?_⟩
      exact ⟨rfl, rfl, (List.append_nil _).symm⟩
  | some warning =>
      refine ⟨_, rfl, ?_⟩
      exact ⟨rfl, rfl, rfl⟩

/-! ### Where a line command leads -/

theorem exists_destination (hpattern : l.command.pattern? = none)
    (hshort : Short (Text.trim l.command.text)) (hlines : ws.lines ≠ []) (o : Options) :
  ∃ cursor log warning, placeCursor o l ws = (ws.setCursor cursor, log, .ok warning)
    ∧ Destination ws.lines (Text.trim l.command.text) cursor warning
  := by
  have hpos := List.length_pos_iff.mpr hlines
  by_cases h : ∃ line, LineCommand 1 ws.lines.length (Text.trim l.command.text) line
  · obtain ⟨line, hline⟩ := h
    have hresolve := LineAddress.resolve_of_lineCommand hshort (by omega) hline
    obtain ⟨i, hi⟩ : ∃ i : Nat, (i : Int) + 1 = min (max 1 line) ws.lines.length :=
      ⟨(min (max 1 line) ws.lines.length - 1).toNat, by omega⟩
    obtain ⟨t, ht⟩ : ∃ t, ws.lines[i]? = some t := ⟨_, List.getElem?_eq_getElem (by omega)⟩
    have hplace := placeCursor_of_line hpattern hresolve o
    rw [← hi, Cursor.lineText_of_getElem? ht] at hplace
    have hcolumn := isFirstNonblank_firstNonblank t
    refine ⟨_, _, _, hplace, ?_⟩
    constructor
    · exact Cursor.inside_of_isFirstNonblank ht hcolumn
    · -- However else the command is read, it is resolved to the same line.
      intro line' hline'
      have hresolve' := LineAddress.resolve_of_lineCommand hshort (by omega) hline'
      have hsame := Option.some.inj (Except.ok.inj (hresolve.symm.trans hresolve'))
      exact ⟨rfl, i, t, _, hi.trans hsame, ht, hcolumn, rfl⟩
    · exact fun hnone => absurd hline (hnone line)
  · have hnone := not_exists.mp h
    have hresolve := LineAddress.resolve_of_not_lineCommand hshort hnone
    refine ⟨_, _, _, placeCursor_of_not_line hpattern hresolve o, ?_⟩
    constructor
    · exact Cursor.inside_start hlines
    · exact fun line hline => absurd hline (hnone line)
    · exact fun _ => ⟨rfl, rfl⟩

/-- A visit to a record with a line command is made once the file is shown.  If the command names a
line, the cursor goes to the nearest line of the file, at its first column that is not blank,
without a warning.  If it names none, the cursor goes to the start of the file, with a warning that
quotes the command. -/
theorem visit_of_isLineCommand (magic : Bool)
    (hedit : s.workspace.editFile s.world l.path = (.made, log, ws)) (hlines : ws.lines ≠ [])
    (hcommand : l.command = TagCommand.ofField magic field) (hfield : IsLineCommand field)
    (hshort : Short field) :
  (∃ text, CommandText field text) ∧ ∀ text, CommandText field text →
    ∃ s' cursor warning, s.visit l = (.made, s')
      ∧ Destination ws.lines (Text.trim text) cursor warning ∧ Lands s l ws cursor warning s'
  := by
  refine ⟨⟨_, TagCommand.commandText_lineCommand field⟩, ?_⟩
  intro text htext
  have hfound := hcommand.trans ((TagCommand.commandText_iff magic hfield).mp htext)
  obtain rfl : l.command.text = text := congrArg TagCommand.text hfound
  have hpattern : l.command.pattern? = none := by
    rw [hfound]
    rfl
  obtain ⟨cursor, log', warning, hplace, hdestination⟩ :=
    exists_destination hpattern (hshort.of_isInfix htext.trim_isInfix) hlines s.options
  obtain ⟨s', hvisit, hlands⟩ := exists_lands hedit hplace hdestination.inside
  exact ⟨s', cursor, warning, hvisit, hdestination, hlands⟩

/-- A world with a file that has an indented line and a line of blanks. -/
def indented : World :=
  ⟨⟨[(["a".toList], .file (Utf8.encode "x\n \t y\n\t \n".toList))]⟩, [], [], ⟨.slash, []⟩, {}⟩

/-- A tag of the file, by a command. -/
def numbered (field : Text) : Location :=
  ⟨"f".toList, "f".toList, Path.ofText "a".toList, TagCommand.ofField true field,
    Path.ofText "tags".toList, 1⟩

/-- One line further down than the first is the indented line.  Saving the file is no address. -/
theorem visit_of_isLineCommand_indented :
  let s := start indented {}
  let below := "\t : +١;\"\tf\n".toList
  let save := " :w\r1\n".toList
  let ws := (s.workspace.editFile s.world (Path.ofText "a".toList)).2.2
  (s.workspace.editFile s.world (Path.ofText "a".toList)).1 = .made
    ∧ ws.lines = ["x".toList, " \t y".toList, "\t ".toList]
    ∧ IsLineCommand below ∧ Short below ∧ CommandText below ": +١".toList
    ∧ LineCommand 1 3 ": +١".toList 2
    ∧ (∃ s', s.visit (numbered below) = (.made, s') ∧ Lands s (numbered below) ws ⟨2, 3⟩ none s')
    ∧ IsLineCommand save ∧ Short save ∧ CommandText save ":w".toList
    ∧ ∃ s', s.visit (numbered save) = (.made, s')
      ∧ Lands s (numbered save) ws ⟨1, 0⟩ (some (.notACommand ":w".toList)) s'
  := by
  intro s below save ws
  have hmade : (s.workspace.editFile s.world (Path.ofText "a".toList)).1 = .made := by
    decide +kernel
  have hlines : ws.lines = ["x".toList, " \t y".toList, "\t ".toList] := by
    decide +kernel
  have hedit : s.workspace.editFile s.world (Path.ofText "a".toList)
      = (.made, (s.workspace.editFile s.world (Path.ofText "a".toList)).2.1, ws) :=
    Prod.ext hmade rfl
  have hne : ws.lines ≠ [] := (Attainable.start indented {}).lines_ne_nil _ _
  have hshort : Short below := fun row hrow _ => hrow.length_le.trans (by decide)
  have hshort' : Short save := fun row hrow _ => hrow.length_le.trans (by decide)
  have hbelow : IsLineCommand below := rfl
  have hsave : IsLineCommand save := rfl
  have htext : CommandText below ": +١".toList :=
    (TagCommand.commandText_iff true hbelow).mpr (by decide)
  have htext' : CommandText save ":w".toList :=
    (TagCommand.commandText_iff true hsave).mpr (by decide)
  have hcommand : LineCommand 1 3 ": +١".toList 2 :=
    ⟨[':'], [' '], ['+', '١'], rfl, .inr rfl, List.forall_mem_singleton.mpr rfl,
      .down ⟨by decide, [1], by decide, rfl⟩⟩
  refine ⟨hmade, hlines, hbelow, hshort, htext, hcommand, ?_, hsave, hshort', htext', ?_⟩
  · obtain ⟨-, hvisit⟩ := visit_of_isLineCommand (l := numbered below) true hedit hne rfl
      hbelow hshort
    obtain ⟨s', cursor, warning, hvisit, hdestination, hlands⟩ := hvisit _ htext
    have hplaced : (s.visit (numbered below)).2.workspace.window.cursor = ⟨2, 3⟩ := by
      decide +kernel
    rw [hvisit, hlands.workspace] at hplaced
    obtain rfl : cursor = ⟨2, 3⟩ := hplaced
    rw [hlines] at hdestination
    obtain ⟨rfl, -⟩ := hdestination.line 2 hcommand
    exact ⟨s', hvisit, hlands⟩
  · obtain ⟨-, hvisit⟩ := visit_of_isLineCommand (l := numbered save) true hedit hne rfl
      hsave hshort'
    obtain ⟨s', cursor, warning, hvisit, hdestination, hlands⟩ := hvisit _ htext'
    have hwarned : (s.visit (numbered save)).2.lastJump.map (fun j => (j.cursor, j.warning))
        = some (⟨1, 0⟩, some (.notACommand ":w".toList)) := by
      decide +kernel
    rw [hvisit, hlands.lastJump] at hwarned
    obtain ⟨rfl, rfl⟩ := Prod.mk.inj (Option.some.inj hwarned)
    exact ⟨s', hvisit, hlands⟩

end Session

end TagNavigator
