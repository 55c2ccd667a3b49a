import TagNavigator.Fault
import TagNavigator.Text.Blank

/-!
# Starting an editor

The command of the user's editor is split into words, and the line and the file are added as
arguments.
-/

namespace TagNavigator.EditorCommand

/-- Why no editor is started. -/
inductive Refusal where
  | notSet
  | empty
  /-- The system cannot start the command. -/
  | failed (reason : Text)
  deriving DecidableEq, Repr

/-- The notice for a refusal. -/
def Refusal.message : Refusal → Text
  | notSet => "Cannot edit: $EDITOR is not set.".toList
  | empty => "Cannot edit: $EDITOR is empty.".toList
  | failed reason => "Failed to launch editor: ".toList ++ reason

/-- The arguments to start the editor with, the command itself first. -/
def arguments (editor : Option Text) (target : Path) (line : Int) :
    Except Fault (Except Refusal (List Text)) :=
  let command := Text.trim (editor.getD [])
  if command.isEmpty then .ok (.error .notSet)
  else match Text.words command with
    | .error e => .error (.badQuoting e)
    | .ok [] => .ok (.error .empty)
    | .ok words => .ok (.ok (words ++ ['+' :: Text.ofInt (max 1 line), target.toText]))

end TagNavigator.EditorCommand
