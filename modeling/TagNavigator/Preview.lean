import TagNavigator.Text.Lines
import TagNavigator.Text.Terminal

/-!
# Previews

A preview shows the lines around a line, with their numbers, and marks that line. The lines are
made safe for a terminal first. Blank lines at the end of a preview are not shown.
-/

namespace TagNavigator.Preview

/-- A text as it is printed without highlighting a language: without a byte order mark, with line
feeds as line ends, and with one at the end. -/
def plain (source : Text) : Text :=
  let t :=
    match source with
    | '\ufeff' :: rest => rest
    | t => t
  let t := Text.unifyLineEnds t
  if t.getLast? = some '\n' then t else t ++ ['\n']

/-- The lines from number `first` to number `last`, where a negative number counts from the end and
zero is before the first line. -/
def between (lines : List Text) (first last : Int) : List Text :=
  let stop := if last < 0 then last + lines.length else last
  (lines.take stop.toNat).drop (first - 1).toNat

/-- A row: the mark of the line in question, the number, and the text. -/
def row (line : Int) (width : Nat) (number : Int) (t : Text) : Text :=
  (if number = line then '>' else ' ') :: Text.padLeft width (Text.ofInt number) ++ [' ', ' '] ++ t

/-- The rows with their numbers, counted from `first`. -/
def rows (line : Int) (width : Nat) (first : Int) : List Text → List Text
  | [] => []
  | t :: rest => row line width first t :: rows line width (first + 1) rest

/-- The preview of the `context` lines before and after a line. -/
def render (lines : List Text) (line context : Int) (highlight : Bool) : Text :=
  if context < 0 || lines.isEmpty then []
  else
    let first := max 1 (line - context)
    let last := min (lines.length : Int) (line + context)
    let snippet := Text.join ['\n'] ((between lines first last).map Text.sanitize) ++ ['\n']
    let printed := if highlight then plain snippet else snippet
    let texts := Text.cutAt '\n' (Text.dropTrailing (· == '\n') printed)
    Text.join ['\n'] (rows line (Text.ofInt last).length first texts) ++ ['\n']

end TagNavigator.Preview
