import TagNavigator.Text.Basic

/-!
# Splitting a command line into words

Words are separated by blanks. Single quotes keep everything between them; double quotes keep
everything but a backslash before a double quote or a backslash; elsewhere a backslash keeps the
next character.
-/

namespace TagNavigator.Text

/-- Why a command line has no words. -/
inductive WordError where
  | noClosingQuote
  | noEscapedCharacter
  deriving DecidableEq, Repr

/-- What is said of the error. -/
def WordError.message : WordError → Text
  | noClosingQuote => "No closing quotation".toList
  | noEscapedCharacter => "No escaped character".toList

/-- Where the reader of words stands. -/
inductive WordState where
  | between
  | inWord
  | singleQuoted
  | doubleQuoted
  /-- After a backslash in a word. -/
  | escaped
  /-- After a backslash between double quotes. -/
  | escapedInQuotes
  deriving DecidableEq, Repr

/-- The words of a command line, where `word` is the beginning of the first one. -/
def wordsFrom (word : Text) : WordState → Text → Except WordError (List Text)
  | .between, [] => .ok []
  | .inWord, [] => .ok [word]
  | .singleQuoted, [] => .error .noClosingQuote
  | .doubleQuoted, [] => .error .noClosingQuote
  | .escaped, [] => .error .noEscapedCharacter
  | .escapedInQuotes, [] => .error .noEscapedCharacter
  | .singleQuoted, c :: t =>
    if c = '\'' then wordsFrom word .inWord t else wordsFrom (word ++ [c]) .singleQuoted t
  | .doubleQuoted, c :: t =>
    if c = '"' then wordsFrom word .inWord t
    else if c = '\\' then wordsFrom word .escapedInQuotes t
    else wordsFrom (word ++ [c]) .doubleQuoted t
  | .escaped, c :: t => wordsFrom (word ++ [c]) .inWord t
  | .escapedInQuotes, c :: t =>
    if c = '"' || c = '\\' then wordsFrom (word ++ [c]) .doubleQuoted t
    else wordsFrom (word ++ ['\\', c]) .doubleQuoted t
  | state, c :: t =>
    if c = ' ' || c = '\t' || c = '\r' || c = '\n' then
      if state = .inWord then (word :: ·) <$> wordsFrom [] .between t
      else wordsFrom [] .between t
    else if c = '\'' then wordsFrom word .singleQuoted t
    else if c = '"' then wordsFrom word .doubleQuoted t
    else if c = '\\' then wordsFrom word .escaped t
    else wordsFrom (word ++ [c]) .inWord t

/-- The words of a command line. -/
def words (t : Text) : Except WordError (List Text) :=
  wordsFrom [] .between t

end TagNavigator.Text
