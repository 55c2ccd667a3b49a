import TagNavigator.Regex.Basic
import TagNavigator.Text.Alphanumeric

/-!
# Matching

`ends r i` lists, in ascending order, the places where a match of `r` that starts at place `i` of a
text can end. Places are numbered from `0` to the length of the text. A matcher is an expression
together with the choice whether case counts; it has a match at a place if some end exists, and the
searches look for the first and the last place with a match.
-/

namespace TagNavigator

namespace Regex

/-- The ascending list with one more member. -/
def insertPlace (i : Nat) : List Nat → List Nat
  | [] => [i]
  | j :: rest =>
    if i < j then i :: j :: rest
    else if i = j then j :: rest
    else j :: insertPlace i rest

/-- The members of both ascending lists, ascending. -/
def unionPlaces (l₁ l₂ : List Nat) : List Nat :=
  l₁.foldr insertPlace l₂

/-- The places that can be reached from the ascending list `pending` by any number of steps. Each
round takes the least place, and `rounds` bounds their number. -/
def reachable (step : Nat → List Nat) : (rounds : Nat) → (pending : List Nat) → List Nat
  | 0, pending => pending
  | _ + 1, [] => []
  | rounds + 1, i :: rest =>
    i :: reachable step rounds (unionPlaces ((step i).filter (i < ·)) rest)

/-- Whether a word character stands at the place. -/
def wordAt (t : Array Char) (i : Nat) : Bool :=
  match t[i]? with
  | some c => Text.isWordChar c
  | none => false

/-- Whether a word character stands before the place. -/
def wordBefore (t : Array Char) : Nat → Bool
  | 0 => false
  | i + 1 => wordAt t i

/-- Whether the place is the end of the text or precedes a line feed that ends it. -/
def atEnd (t : Array Char) (i : Nat) : Bool :=
  i == t.size || (i + 1 == t.size && t[i]? == some '\n')

/-- The end of a match of one character that satisfies `p`. -/
def endsOne (t : Array Char) (p : Char → Bool) (i : Nat) : List Nat :=
  match t[i]? with
  | some c => if p c then [i + 1] else []
  | none => []

/-- The end of an empty match, which requires `p`. -/
def endsHere (p : Bool) (i : Nat) : List Nat :=
  if p then [i] else []

/-- The places where a match that starts at `i` can end, ascending. -/
def ends (ignoreCase : Bool) (t : Array Char) : Regex → Nat → List Nat
  | .empty, i => [i]
  | .char c, i => endsOne t (fun d => if ignoreCase then Text.sameLetter c d else c == d) i
  | .set s, i => endsOne t (s.admits ignoreCase) i
  | .any, i => endsOne t (· != '\n') i
  | .textStart, i => endsHere (i == 0) i
  | .textEnd, i => endsHere (atEnd t i) i
  | .boundary, i => endsHere (wordBefore t i != wordAt t i) i
  | .wordAhead, i => endsHere (wordAt t i) i
  | .wordBehind, i => endsHere (wordBefore t i) i
  | .seq a b, i =>
    (ends ignoreCase t a i).foldr (fun j acc => unionPlaces (ends ignoreCase t b j) acc) []
  | .alt a b, i => unionPlaces (ends ignoreCase t a i) (ends ignoreCase t b i)
  | .star r, i => reachable (ends ignoreCase t r) (t.size + 1 - i) [i]
  | .group r, i => ends ignoreCase t r i

end Regex

/-- An expression to search for, and whether letters match in either case. -/
structure Matcher where
  regex : Regex
  ignoreCase : Bool
  deriving DecidableEq, Repr

namespace Matcher

/-- Whether a match starts at the place. -/
def matchesAt (m : Matcher) (t : Array Char) (i : Nat) : Bool :=
  !(m.regex.ends m.ignoreCase t i).isEmpty

/-- The first place from `start` on where a match starts. -/
def firstFrom (m : Matcher) (t : Text) (start : Nat) : Option Nat :=
  let a := t.toArray
  (List.range' start (a.size + 1 - start)).find? (m.matchesAt a)

/-- The first place where a match starts. -/
def first (m : Matcher) (t : Text) : Option Nat :=
  m.firstFrom t 0

/-- The last of the first `count` places where a match starts. -/
def lastAmong (m : Matcher) (t : Text) (count : Nat) : Option Nat :=
  let a := t.toArray
  (List.range (min count (a.size + 1))).reverse.find? (m.matchesAt a)

end Matcher

end TagNavigator
