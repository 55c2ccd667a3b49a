import TagNavigator.Pattern.Atom
import TagNavigator.Regex.Parser
import TagNavigator.Regex.Match

/-!
# Patterns as regular expressions

`source` writes a search pattern as a regular expression, atom by atom, and `compile` reads that
expression. A pattern is refused when the regular expression is malformed.
-/

namespace TagNavigator.Pattern

/-- A character between brackets, as a regular expression writes it. -/
def BracketChar.source (b : BracketChar) : Text :=
  if b.quoted then Regex.escape b.char
  else if b.char = '[' then ['\\', '[']
  else [b.char]

/-- A bracket expression, as a regular expression writes it. -/
def Bracket.source (b : Bracket) : Text :=
  ['['] ++ (if b.negated then ['^'] else []) ++ (if b.startsWithClosing then ['\\', ']'] else [])
    ++ b.body.flatMap BracketChar.source ++ [']']

/-- An atom, as a regular expression writes it. -/
def Atom.source : Atom → Text
  | .char c => Regex.escape c
  | .any => ['.']
  | .star => ['*']
  | .set b => b.source
  | .groupOpen => ['(']
  | .groupClose => [')']
  | .bar => ['|']
  | .wordStart => "\\b(?=\\w)".toList
  | .wordEnd => "\\b(?<=\\w)".toList
  | .tab => ['\t']
  | .caret => ['^']
  | .dollar _ => ['$']

/-- The regular expression of a pattern. -/
def source (magic : Bool) (pattern : Text) : Text :=
  (atoms magic pattern).flatMap Atom.source

/-- A pattern that is no regular expression. -/
structure Invalid where
  pattern : Text
  reason : Regex.Malformed
  deriving DecidableEq, Repr

/-- What is said of an invalid pattern. -/
def Invalid.message (e : Invalid) : Text :=
  "Invalid search pattern: ".toList ++ e.pattern

/-- The matcher of a pattern. -/
def compile (pattern : Text) (magic ignoreCase : Bool) : Except Invalid Matcher :=
  match Regex.parse (source magic pattern) with
  | .ok r => .ok ⟨r, ignoreCase⟩
  | .error reason => .error ⟨pattern, reason⟩

end TagNavigator.Pattern
