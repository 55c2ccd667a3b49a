import TagNavigator.Tag.Error

/-!
# Log lines

What a run logs, and which part of the program does so. Warnings are always shown; the other lines
are diagnostics.
-/

namespace TagNavigator

/-- A part of the program that logs. -/
inductive LogSource where
  | index
  | lookup
  | completion
  | windows
  deriving DecidableEq, Repr

/-- The name of a part as log lines show it. -/
def LogSource.name : LogSource → Text
  | index => "lazytags.tags.index".toList
  | lookup => "lazytags.tags.matcher".toList
  | completion => "lazytags.tags.expand".toList
  | windows => "lazytags.workspace.window".toList

/-- A line of the log. -/
structure LogLine where
  source : LogSource
  isWarning : Bool
  message : Text
  deriving DecidableEq, Repr

namespace LogLine

/-- The line as it is shown. -/
def toText (l : LogLine) : Text :=
  l.source.name ++ ": ".toList ++ l.message ++ ['\n']

/-- An index is opened. -/
def scanning (index : Path) : LogLine :=
  ⟨.index, false, "scanning tags file ".toList ++ index.toText⟩

/-- An index cannot be opened. -/
def skipping (source : LogSource) (e : OpenError) : LogLine :=
  ⟨source, false, "skipping tags file ".toList ++ e.index.toText ++ ": ".toList ++ e.reason⟩

/-- An index has a malformed line. -/
def malformed (source : LogSource) (e : FormatError) : LogLine :=
  ⟨source, true, e.message ++ " (line ".toList ++ Text.ofNat e.line ++ [')']⟩

end LogLine

end TagNavigator
