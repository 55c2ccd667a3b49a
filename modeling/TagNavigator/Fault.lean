import TagNavigator.Files.Tree
import TagNavigator.Json.Basic
import TagNavigator.Text.Digit
import TagNavigator.Text.Words

/-!
# Faults

A fault ends an operation at once, and leaves what was done before it. It is no failure that a
command reports and recovers from.
-/

namespace TagNavigator

/-- What ends an operation. -/
inductive Fault where
  /-- A path, or the name of a user, with the character NUL is handed to the system. -/
  | embeddedNul
  /-- One of several names of files holds half of a surrogate pair. -/
  | halfCharacter (names : JsonString)
  /-- The file system refuses a path. -/
  | file (e : FileError) (path : Path)
  /-- A line number has more digits than are read. -/
  | longNumeral (e : Text.LongNumeral)
  /-- The editor command is badly quoted. -/
  | badQuoting (e : Text.WordError)
  deriving DecidableEq, Repr

end TagNavigator
