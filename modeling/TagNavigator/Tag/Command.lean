import TagNavigator.Text.Lines

/-!
# Search commands of tag records

The last field of a tag record says how to find the definition in its file: by a pattern between
delimiters, a slash or a question mark, or by a line command. Tag generators write the source line
almost literally, so `toSearch?` turns such a pattern into a search pattern for the same line.
Extension fields may follow a marker after the command, and are cut off.
-/

namespace TagNavigator

/-- How to find a tag in its file. The text of a pattern starts with its delimiter. -/
structure TagCommand where
  text : Text
  isPattern : Bool
  deriving DecidableEq, Repr

namespace TagCommand

/-- The characters that delimit a pattern: a slash searches forward, a question mark backward. -/
def isDelimiter (c : Char) : Bool :=
  c == '/' || c == '?'

/-- The delimiter that a text starts with. -/
def delimiter? : Text → Option Char
  | [] => none
  | c :: _ => if isDelimiter c then some c else none

/-- Whether nothing follows on this line. -/
def endsLine : Text → Bool
  | [] => true
  | c :: _ => Text.isLineEnd c

/-- A character that a search pattern takes for an operator in the magic spelling. -/
def isMagic (c : Char) : Bool :=
  c == '[' || c == '^' || c == '*' || c == '.'

/-- The part of a pattern after its delimiter and its caret, as a search pattern. -/
def searchTail (magic : Bool) (delimiter : Char) : Text → Text
  | [] => []
  | '\\' :: c :: t =>
    if c = '(' then searchTail magic delimiter (c :: t)
    else if Text.isLineEnd c then '\\' :: searchTail magic delimiter (c :: t)
    else '\\' :: c :: searchTail magic delimiter t
  | c :: t =>
    if c = '\\' then [c]
    else if Text.isLineEnd c then [delimiter]
    else if c = delimiter then
      if endsLine t then searchTail magic delimiter t
      else '\\' :: c :: searchTail magic delimiter t
    else if isMagic c && magic then '\\' :: c :: searchTail magic delimiter t
    else c :: searchTail magic delimiter t

/-- The search pattern for a delimited pattern, its delimiter in front. The delimiter and a caret
after it stay. A backslash before a parenthesis goes, other pairs with a backslash stay. A line end
becomes the delimiter and is the last thing looked at. A delimiter before the line end goes, one
inside is escaped, and so are the operators of the magic spelling, in that spelling. A text that
does not start with a delimiter has no search pattern. -/
def toSearch? (magic : Bool) (raw : Text) : Option Text :=
  match raw with
  | [] => none
  | d :: t =>
    if !isDelimiter d then none
    else match t with
      | '^' :: rest => some (d :: '^' :: searchTail magic d rest)
      | rest => some (d :: searchTail magic d rest)

/-- The pattern that matches the text literally. -/
def escapeLiteral (magic : Bool) (t : Text) : Text :=
  t.flatMap fun c =>
    if c = '\\' || (magic && (c = '.' || c = '*' || c = '[')) then ['\\', c] else [c]

/-- The patterns that are tried when that of a record is out of date: a line that starts with the
name and a parenthesis, and a line that starts like a declaration and has them later. -/
def fallbacks (magic : Bool) (name : Text) : Text × Text :=
  let call := escapeLiteral magic name ++ ['(']
  let declaration :=
    if magic then "^[#A-Za-z_].*".toList else "^\\[#A-Za-z_]\\.\\*".toList
  ('^' :: call, declaration ++ call)

/-- What marks the extension fields after a command. -/
def extensionMarker : Text := [';', '"']

/-- The number of characters up to the first delimiter that no backslash precedes, itself included;
nothing if the line ends before. -/
def lengthToDelimiter (delimiter : Char) : Text → Option Nat
  | [] => none
  | '\\' :: _ :: t => (lengthToDelimiter delimiter t).map (· + 2)
  | c :: t =>
    if c = '\\' then none
    else if c = delimiter then some 1
    else if Text.isLineEnd c then none
    else (lengthToDelimiter delimiter t).map (· + 1)

/-- The command without its extension fields. A pattern is cut after its closing delimiter if the
marker follows there, a line command at the first marker. -/
def dropExtension (command : Text) : Text :=
  if !Text.occurs extensionMarker command then command
  else match command with
    | [] => []
    | d :: t =>
      if isDelimiter d then
        match lengthToDelimiter d t with
        | some n => if extensionMarker.isPrefixOf (t.drop n) then d :: t.take n else command
        | none => command
      else Text.before extensionMarker command

/-- The command in a field of a record. -/
def ofField (magic : Bool) (field : Text) : TagCommand :=
  let command := dropExtension (field.dropWhile fun c => c == ' ' || c == '\t')
  match toSearch? magic command with
  | some pattern => ⟨pattern, true⟩
  | none => ⟨command.takeWhile (!Text.isLineEnd ·), false⟩

/-- The pattern after its opening delimiter, without the closing one. -/
def withoutClosing (delimiter : Char) (t : Text) : Text :=
  match t.reverse with
  | [] => []
  | c :: before =>
    if c = delimiter && (before.takeWhile (· == '\\')).length % 2 = 0 then before.reverse else t

/-- The delimiter of a pattern and the pattern between its delimiters. -/
def pattern? (c : TagCommand) : Option (Char × Text) :=
  if c.isPattern then
    match c.text with
    | [] => none
    | d :: t => some (d, withoutClosing d t)
  else none

end TagCommand

end TagNavigator
