import TagNavigator.Text.Basic

/-!
# Cutting texts into lines

Three rules are in use. A buffer breaks its text at every line boundary, of which there are many
kinds. A file that is read as text has its line ends made line feeds first. The records of an index
end at a line feed only, which they keep.
-/

namespace TagNavigator.Text

/-- A carriage return or a line feed. -/
def isLineEnd (c : Char) : Bool :=
  c == '\r' || c == '\n'

/-- A character that ends a line of a buffer. -/
def isLineBoundary (c : Char) : Bool :=
  c == '\n' || c == '\r' || c == '\x0b' || c == '\x0c' || c == '\x1c' || c == '\x1d' || c == '\x1e'
    || c == '\u0085' || c == '\u2028' || c == '\u2029'

/-- The segments that end at the characters satisfying `ends`, those characters left out, with a
carriage return and a line feed after it taken as one end. There is no segment after the last
end. -/
def segments (ends : Char → Bool) : Text → List Text
  | [] => []
  | '\r' :: '\n' :: t => [] :: segments ends t
  | c :: t =>
    if ends c then [] :: segments ends t
    else match segments ends t with
      | [] => [[c]]
      | s :: rest => (c :: s) :: rest

/-- The lines of a buffer that holds the text: at least one. -/
def bufferLines (t : Text) : List Text :=
  match segments isLineBoundary t with
  | [] => [[]]
  | lines => lines

/-- The text with a line feed for every line end. -/
def unifyLineEnds : Text → Text
  | [] => []
  | '\r' :: '\n' :: t => '\n' :: unifyLineEnds t
  | c :: t => (if c = '\r' then '\n' else c) :: unifyLineEnds t

/-- The text cut after every line feed. -/
def afterLineFeeds : Text → List Text
  | [] => []
  | c :: t =>
    if c = '\n' then [c] :: afterLineFeeds t
    else match afterLineFeeds t with
      | [] => [[c]]
      | s :: rest => (c :: s) :: rest

end TagNavigator.Text
