import TagNavigator.Cursor
import TagNavigator.Regex.Match

/-!
# Searching the lines of a buffer

A search looks for the first place after a cursor, or the last place before it, where a match
starts. Places are ordered by line and then by column. If the search may wrap, it goes on at the
other end of the buffer and comes back to the line of the cursor, all of which it then looks at.
-/

namespace TagNavigator.Search

/-- A match that was found: its line, from one, its column, from zero, and the text of the line. -/
structure Found where
  line : Nat
  column : Nat
  text : Text
  deriving DecidableEq, Repr

/-- A buffer without lines is searched as one empty line. -/
def searched (lines : List Text) : List Text :=
  if lines.isEmpty then [[]] else lines

/-- The index of the line that is nearest to the given one. -/
def originIndex (lines : List Text) (line : Int) : Nat :=
  (min (max 1 line) lines.length - 1).toNat

/-- The first of the numbered lines with a match, and the first place of a match in it. -/
def firstLine (m : Matcher) (numbered : List (Text × Nat)) : Option Found :=
  numbered.findSome? fun l => (m.first l.1).map fun column => ⟨l.2, column, l.1⟩

/-- The first of the numbered lines with a match, and the last place of a match in it. -/
def lastInLine (m : Matcher) (numbered : List (Text × Nat)) : Option Found :=
  numbered.findSome? fun l =>
    (m.lastAmong l.1 (l.1.length + 1)).map fun column => ⟨l.2, column, l.1⟩

/-- The first match after the cursor. -/
def forward (m : Matcher) (lines : List Text) (start : Cursor) (wrap : Bool) : Option Found :=
  let lines := searched lines
  let origin := originIndex lines start.line
  let text := (lines[origin]?).getD []
  let numbered := lines.zipIdx 1
  match m.firstFrom text (min (start.column + 1).toNat text.length) with
  | some column => some ⟨origin + 1, column, text⟩
  | none =>
    let wrapped := if wrap then numbered.take (origin + 1) else []
    firstLine m (numbered.drop (origin + 1) ++ wrapped)

/-- The last match before the cursor. -/
def backward (m : Matcher) (lines : List Text) (start : Cursor) (wrap : Bool) : Option Found :=
  let lines := searched lines
  let origin := originIndex lines start.line
  let text := (lines[origin]?).getD []
  let numbered := lines.zipIdx 1
  match m.lastAmong text start.column.toNat with
  | some column => some ⟨origin + 1, column, text⟩
  | none =>
    let wrapped := if wrap then (numbered.drop origin).reverse else []
    lastInLine m ((numbered.take origin).reverse ++ wrapped)

/-- Which way a search goes. -/
inductive Direction where
  | forward
  | backward
  deriving DecidableEq, Repr

/-- The next match in the given direction. -/
def next (m : Matcher) (lines : List Text) (start : Cursor) (direction : Direction) (wrap : Bool) :
    Option Found :=
  match direction with
  | .forward => forward m lines start wrap
  | .backward => backward m lines start wrap

/-- The columns are indices of 64 bits with a sign. -/
def isIndex (n : Int) : Bool :=
  Int64.minValue.toInt ≤ n && n ≤ Int64.maxValue.toInt

/-- A search that starts at a column too large for an index. -/
inductive OutOfRange where
  | startColumn
  deriving DecidableEq, Repr

/-- The next match in the given direction from any cursor. A forward search begins one column after
the cursor, which has to be an index. -/
def nextFrom (m : Matcher) (lines : List Text) (start : Cursor) (direction : Direction)
    (wrap : Bool) : Except OutOfRange (Option Found) :=
  if direction = .forward && !isIndex (start.column + 1) then .error .startColumn
  else .ok (next m lines start direction wrap)

/-- The first match of the buffer, or the last one for a backward search. The search starts at the
end it moves away from and wraps. -/
def whole (m : Matcher) (lines : List Text) (direction : Direction) : Option Found :=
  let lines := searched lines
  let edge : Cursor :=
    match direction with
    | .forward => ⟨lines.length, (lines.getLastD []).length⟩
    | .backward => Cursor.start
  next m lines edge direction true

end TagNavigator.Search
