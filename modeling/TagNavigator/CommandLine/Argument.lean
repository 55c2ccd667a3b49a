import TagNavigator.CommandLine.Flag
import TagNavigator.Text.Digit

/-!
# Command-line arguments

An argument is a flag or a word. The name of a flag may be abbreviated as long as it means one flag,
and a value may follow it after an equals sign. A negative number, and anything with a space that is
no flag, is a word. Two dashes alone end the flags: every argument after them is a word.
-/

namespace TagNavigator.CommandLine

/-- An argument. -/
inductive Argument where
  /-- A flag, and the value after its equals sign. -/
  | flag (f : Flag) (value : Option Text)
  /-- The short flag for help, and what is written in one with it. -/
  | shortHelp (tail : Text)
  /-- An argument that looks like a flag and is none. -/
  | unknown (t : Text)
  | word (t : Text)
  /-- The end of the flags. -/
  | separator
  deriving DecidableEq, Repr

namespace Argument

/-- The text of a separator. -/
def separatorText : Text := ['-', '-']

/-- What follows the minus sign of a negative number: digits, or digits after a point with more
digits before it or none. A line feed may end it. -/
def isNumberBody (t : Text) : Bool :=
  let body := if t.getLast? = some '\n' then t.dropLast else t
  match Text.splitFirst '.' body with
  | (whole, none) => !whole.isEmpty && whole.all Text.isDigit
  | (whole, some fraction) =>
    whole.all Text.isDigit && !fraction.isEmpty && fraction.all Text.isDigit

/-- An argument with a dash and then `t`, which is no flag. -/
def dashed (t : Text) : Argument :=
  if isNumberBody t || t.contains ' ' then word ('-' :: t) else unknown ('-' :: t)

/-- The argument that a text before the separator writes. -/
def ofText : Text → Except UsageError Argument
  | '-' :: '-' :: t =>
    let whole := '-' :: '-' :: t
    let (name, value) := Text.splitFirst '=' whole
    match Flag.candidates name with
    | [] => .ok (dashed ('-' :: t))
    | [f] => .ok (flag f value)
    | several => .error (.ambiguous whole several)
  | '-' :: 'h' :: tail => .ok (shortHelp tail)
  | '-' :: c :: t => .ok (dashed (c :: t))
  | t => .ok (word t)

/-- The arguments that the texts write. -/
def ofTexts : List Text → Except UsageError (List Argument)
  | [] => .ok []
  | t :: rest =>
    if t = separatorText then .ok (separator :: rest.map word)
    else do
      let a ← ofText t
      let others ← ofTexts rest
      pure (a :: others)

/-- Checks what is written in one with the short flag for help. The flag may be repeated there, and
what is no flag is not looked at, but no value may be given. -/
def checkTail : (tail : Text) → Except UsageError Unit
  | '=' :: value => .error (.unusedValue .help value)
  | '-' :: t => .error (.unusedValue .help ('-' :: t))
  | 'h' :: t => checkTail t
  | _ => .ok ()

end Argument

end TagNavigator.CommandLine
