import TagNavigator.Text.CaseFold

/-!
# Regular expressions

The expressions that the searches run: characters, sets of characters, anchors, word tests,
sequences, alternatives, groups and repetition. A set admits a character if one of its items does,
or, if it is negated, if none does.
-/

namespace TagNavigator

/-- An item of a set of characters. -/
inductive SetItem where
  | single (c : Char)
  /-- The characters from `lo` to `hi`, both included. -/
  | range (lo hi : Char)
  deriving DecidableEq, Repr

/-- A set of characters, or the complement of one. -/
structure CharSet where
  negated : Bool
  items : List SetItem
  deriving DecidableEq, Repr

/-- A regular expression. -/
inductive Regex where
  /-- Matches the empty text. -/
  | empty
  | char (c : Char)
  | set (s : CharSet)
  /-- Any character but a line feed. -/
  | any
  /-- The start of the text. -/
  | textStart
  /-- The end of the text, or the place before a line feed that ends it. -/
  | textEnd
  /-- A place with a word character on exactly one side. -/
  | boundary
  /-- A place followed by a word character. -/
  | wordAhead
  /-- A place preceded by a word character. -/
  | wordBehind
  | seq (a b : Regex)
  | alt (a b : Regex)
  | star (r : Regex)
  | group (r : Regex)
  deriving DecidableEq, Repr

namespace SetItem

/-- Whether the item holds the character `c`. -/
def admits (c : Char) : SetItem → Bool
  | single a => a == c
  | range lo hi => lo ≤ c && c ≤ hi

/-- Whether the item holds the character `c` in some case. A letter outside the basic plane stands
for the letters that have it as their lower case. -/
def admitsFolded (c : Char) : SetItem → Bool
  | single a => if 0x10000 ≤ a.toNat then Text.lower c == a else Text.sameLetter a c
  | range lo hi => (Text.variants c).any fun n => lo.toNat ≤ n && n ≤ hi.toNat

end SetItem

namespace CharSet

/-- Whether some item of the set holds `c`, in any case if `ignoreCase` is on. A set of one
character is that character. -/
def holds (ignoreCase : Bool) (s : CharSet) (c : Char) : Bool :=
  if ignoreCase then
    match s.items with
    | [.single a] => Text.sameLetter a c
    | items => items.any (·.admitsFolded c)
  else s.items.any (·.admits c)

/-- Whether the set admits the character `c`. -/
def admits (ignoreCase : Bool) (s : CharSet) (c : Char) : Bool :=
  s.holds ignoreCase c != s.negated

end CharSet

end TagNavigator
