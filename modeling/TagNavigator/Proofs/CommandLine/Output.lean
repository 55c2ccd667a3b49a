import TagNavigator.CommandLine.Run
import TagNavigator.Proofs.Text.Terminal

/-!
# What a run prints

A run prints names of tags, or a path and a preview.  The preview is made safe for a terminal, but
names and paths are printed as they are.  So the output is safe just if these are.
-/

namespace TagNavigator.CommandLine

open Text (Clean)

/-- What has been printed on standard output when a run ends or breaks off. -/
def printedBy : Except Breakdown Report → Text
  | .ok report => report.output
  | .error b => b.output

/-- What a run prints on standard output. -/
def standardOutput (w : World) (arguments : List Text) : Text :=
  printedBy (perform w arguments)

namespace Request

/-- The session in which a request is answered, if the file that is edited can be shown. -/
def session? (r : Request) (w : World) : Option Session :=
  let s := Session.start w (r.overlay (Config.loadOptions w))
  match r.fromFile with
  | none => some s
  | some file =>
    match s.edit (Path.ofText file) with
    | (.made, s) => some s
    | _ => none

/-- The names that are listed for a pattern. -/
def listed (s : Session) (pattern : Text) : List Text :=
  match s.expand pattern with
  | .ok c => c.names
  | .error _ => []

/-- The path that is shown for a tag, if the jump to it succeeds. -/
def shownPath (s : Session) (name : Text) : List Text :=
  match s.jumpToTag name 1 with
  | (.ok true, s) => (s.workspace.currentFile.map Path.toText).toList
  | _ => []

/-- The texts that the answer to a request prints as they are. -/
def verbatim (r : Request) (s : Session) : List Text :=
  match r.expand, r.name with
  | some pattern, _ => listed s pattern
  | none, none | none, some [] => []
  | none, some name => shownPath s name

variable {r : Request} {s : Session}

/-! ### The answer to a request -/

theorem clean_listNames_iff {pattern : Text} :
  Clean (printedBy (r.listNames s pattern)) ↔ ∀ t ∈ listed s pattern, Clean t
  := by
  unfold listNames listed
  rcases s.expand pattern with (e | e) | c
  · simp [printedBy, ended]
  · simp [printedBy]
  · exact Text.clean_lines_iff

theorem clean_shown_iff {ws : Workspace} {path : Path} :
  Clean (r.shown ws path) ↔ Clean path.toText
  := by
  have hpreview : Clean (if r.noPreview then []
      else Preview.render ws.lines ws.window.cursor.line r.context false) := by
    split
    · exact Text.clean_nil
    · exact Preview.clean_render _ _ _
  simp [shown, place, hpreview, Text.clean_ofInt, Text.isControl]

/-- Starting an editor does not add to the output, whether or not it breaks off. -/
theorem printedBy_arrived {path : Path} (h : s.workspace.currentFile = some path) :
  printedBy (r.arrived s) = r.shown s.workspace path
  := by
  unfold arrived
  rw [h]
  dsimp only
  split
  · split <;> rfl
  · rfl

theorem printedBy_arrived_none (h : s.workspace.currentFile = none) :
  printedBy (r.arrived s) = []
  := by
  unfold arrived
  rw [h]
  rfl

theorem clean_jump_iff {name : Text} :
  Clean (printedBy (r.jump s name)) ↔ ∀ t ∈ shownPath s name, Clean t
  := by
  unfold jump shownPath
  obtain ⟨result, s'⟩ := s.jumpToTag name 1
  rcases result with e | _ | _
  · simp [printedBy]
  · simp [printedBy, ended]
  · dsimp only
    cases hfile : s'.workspace.currentFile with
    | none => simp [printedBy_arrived_none hfile]
    | some path => simp [printedBy_arrived hfile, clean_shown_iff]

theorem clean_answer_iff (r : Request) (s : Session) :
  Clean (printedBy (r.answer s)) ↔ ∀ t ∈ r.verbatim s, Clean t
  := by
  unfold answer verbatim
  rcases r.expand with _ | pattern
  · rcases r.name with _ | _ | ⟨c, rest⟩
    · simp [printedBy, Report.ofUsageError]
    · simp [printedBy, Report.ofUsageError]
    · exact clean_jump_iff
  · exact clean_listNames_iff

theorem printedBy_perform (r : Request) (w : World) :
  printedBy (r.perform w) = (r.session? w).elim [] fun s => printedBy (r.answer s)
  := by
  unfold perform session?
  cases r.fromFile with
  | none => rfl
  | some file =>
      dsimp only
      generalize Session.edit _ _ = opened
      obtain ⟨outcome, s⟩ := opened
      cases outcome <;> rfl

end Request

/-! ### All runs -/

/-- The texts that a run prints as they are. -/
def verbatim (w : World) (arguments : List Text) : List Text :=
  match Invocation.ofTexts arguments with
  | .ok (.request r) => (r.session? w).elim [] r.verbatim
  | _ => []

/-- What a run prints on standard output is free of control characters just if the names that it
lists and the path that it shows are.  No other character that it prints, in a preview or elsewhere,
is one. -/
theorem clean_standardOutput_iff (w : World) (arguments : List Text) :
  Clean (standardOutput w arguments) ↔ ∀ t ∈ verbatim w arguments, Clean t
  := by
  unfold standardOutput perform verbatim
  rcases Invocation.ofTexts arguments with e | _ | r
  · simp [printedBy, Report.ofUsageError]
  · simp [printedBy]
  · dsimp only
    rw [Request.printedBy_perform]
    cases r.session? w with
    | none => simp
    | some s => exact Request.clean_answer_iff r s

/-- A name and a path with an escape character, both printed as they are. -/
theorem standardOutput_escape :
  let w : World :=
    ⟨⟨[(["tags".toList], .file (Utf8.encode "f\x1b\ta\x1b\t1\n".toList)),
      (["a\x1b".toList], .file [])]⟩, [], [], ⟨.slash, []⟩, {}⟩
  standardOutput w ["--expand".toList, "f".toList] = "f\x1b\n".toList
    ∧ standardOutput w ["--no-preview".toList, "f\x1b".toList] = "/a\x1b:1:1\n".toList
    ∧ ¬ Clean (standardOutput w ["--expand".toList, "f".toList])
    ∧ ¬ Clean (standardOutput w ["--no-preview".toList, "f\x1b".toList])
  := by
  decide +kernel

end TagNavigator.CommandLine
