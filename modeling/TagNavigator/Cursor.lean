import TagNavigator.Text.Basic

/-!
# Cursors

A cursor is a line, counted from one, and a column, counted from zero. It may point anywhere;
`clamp` moves it to the nearest character of a text given as its lines. An empty line, like a text
of no lines, has the single column zero.
-/

namespace TagNavigator

/-- A line, from one, and a column, from zero. -/
structure Cursor where
  line : Int
  column : Int
  deriving DecidableEq, Repr

namespace Cursor

/-- The start of a text. -/
def start : Cursor := ⟨1, 0⟩

/-- The line of the given number, counted from one; empty if there is none. -/
def lineText (lines : List Text) (line : Int) : Text :=
  if line < 1 then [] else (lines[(line - 1).toNat]?).getD []

/-- The cursor moved into the text. -/
def clamp (lines : List Text) (c : Cursor) : Cursor :=
  let line := min (max 1 c.line) (max 1 lines.length)
  let width := (lineText lines line).length
  ⟨line, min (max 0 c.column) (max 0 (width - 1))⟩

end Cursor

/-- The first column that holds neither a space nor a tab; the last column if there is none, and
zero for the empty text. -/
def firstNonblank (t : Text) : Nat :=
  let indent := (t.takeWhile fun c => c == ' ' || c == '\t').length
  if indent < t.length then indent else t.length - 1

end TagNavigator
