import TagNavigator.Regex.Basic

/-!
# The written form of regular expressions, as tokens

A regular expression is written as a text whose tokens are characters, escaped characters, sets in
brackets, the two word tests, and the operators. `tokenize` cuts such a text into its tokens. A
character with a meaning of its own is read literally only where a backslash precedes it.
-/

namespace TagNavigator.Regex

/-- Why a text is no regular expression. -/
inductive Malformed where
  /-- A backslash ends the text. -/
  | danglingBackslash
  /-- A backslash before a letter or digit that has no meaning there. -/
  | unknownEscape (c : Char)
  /-- A group that starts with a question mark and is not a word test. -/
  | unknownExtension
  /-- An operator that the notation lacks. -/
  | unknownOperator (c : Char)
  | unterminatedSet
  /-- A range whose first character comes after its last one. -/
  | badRange (lo hi : Char)
  /-- A star with nothing before it, or with an anchor before it. -/
  | nothingToRepeat
  /-- A star after a star. -/
  | multipleRepeat
  /-- A group is closed that was not opened. -/
  | unbalancedClose
  /-- A group is not closed. -/
  | unclosedGroup
  deriving DecidableEq, Repr

/-- A token of the written form. -/
inductive Token where
  | char (c : Char)
  | set (s : CharSet)
  | any
  | star
  | groupOpen
  | groupClose
  | bar
  | textStart
  | textEnd
  | boundary
  | wordAhead
  | wordBehind
  deriving DecidableEq, Repr

/-- The characters that are written with a backslash when they stand for themselves. -/
def specialChars : List Char :=
  "()[]\x7b\x7d?*+-|^$\\.&~# \t\n\r\x0b\x0c".toList

/-- The written form of one character that stands for itself. -/
def escape (c : Char) : Text :=
  if specialChars.contains c then ['\\', c] else [c]

/-- A character inside brackets, and whether a backslash precedes it. -/
structure SetUnit where
  escaped : Bool
  char : Char
  deriving DecidableEq, Repr

/-- The items that the characters between brackets write: a hyphen with a character on both sides
makes a range. -/
def setItems : List SetUnit → Except Malformed (List SetItem)
  | [] => .ok []
  | lo :: ⟨false, '-'⟩ :: hi :: rest =>
    if hi.char < lo.char then .error (.badRange lo.char hi.char)
    else (.range lo.char hi.char :: ·) <$> setItems rest
  | a :: rest => (.single a.char :: ·) <$> setItems rest

/-- Where the reader stands: outside brackets, or inside, with the characters read so far, latest
first. -/
inductive Place where
  | outside
  | inside (negated : Bool) (units : List SetUnit)

/-- The token of one character that is neither a bracket, a parenthesis nor a backslash. -/
def plainToken (c : Char) : Except Malformed Token :=
  match c with
  | '.' => .ok .any
  | '*' => .ok .star
  | '|' => .ok .bar
  | ')' => .ok .groupClose
  | '^' => .ok .textStart
  | '$' => .ok .textEnd
  | '+' => .error (.unknownOperator c)
  | '?' => .error (.unknownOperator c)
  | '{' => .error (.unknownOperator c)
  | c => .ok (.char c)

/-- The token of a backslash and the character after it. -/
def escapedToken (c : Char) : Except Malformed Token :=
  if c = 'b' then .ok .boundary
  else if c.isAlphanum then .error (.unknownEscape c)
  else .ok (.char c)

/-- The tokens of a text read from the given place on. -/
def tokenizeFrom : Place → Text → Except Malformed (List Token)
  | .outside, [] => .ok []
  | .outside, '\\' :: c :: t => do
    let token ← escapedToken c
    let rest ← tokenizeFrom .outside t
    pure (token :: rest)
  | .outside, '[' :: '^' :: t => tokenizeFrom (.inside true []) t
  | .outside, '[' :: t => tokenizeFrom (.inside false []) t
  | .outside, '(' :: '?' :: '=' :: '\\' :: 'w' :: ')' :: t =>
    (.wordAhead :: ·) <$> tokenizeFrom .outside t
  | .outside, '(' :: '?' :: '<' :: '=' :: '\\' :: 'w' :: ')' :: t =>
    (.wordBehind :: ·) <$> tokenizeFrom .outside t
  | .outside, '(' :: t =>
    if t.head? = some '?' then .error .unknownExtension
    else (.groupOpen :: ·) <$> tokenizeFrom .outside t
  | .outside, c :: t =>
    if c = '\\' then .error .danglingBackslash
    else do
      let token ← plainToken c
      let rest ← tokenizeFrom .outside t
      pure (token :: rest)
  | .inside _ _, [] => .error .unterminatedSet
  | .inside negated units, '\\' :: c :: t =>
    if c.isAlphanum then .error (.unknownEscape c)
    else tokenizeFrom (.inside negated (⟨true, c⟩ :: units)) t
  | .inside negated units, c :: t =>
    if c = ']' && !units.isEmpty then do
      let items ← setItems units.reverse
      let rest ← tokenizeFrom .outside t
      pure (.set ⟨negated, items.eraseDups⟩ :: rest)
    else tokenizeFrom (.inside negated (⟨false, c⟩ :: units)) t

/-- The tokens of a written regular expression. -/
def tokenize (t : Text) : Except Malformed (List Token) :=
  tokenizeFrom .outside t

end TagNavigator.Regex
