import Mathlib.Logic.Relation
import TagNavigator.Pattern.Atom
import TagNavigator.Text.Alphanumeric

/-!
# The grammar of patterns

`Reads` gives the rules by which a pattern is read as an expression, and `Expr.Matches` says what an
expression matches.  Both are independent of how patterns are compiled.

An operator that is bare in the magic spelling carries a backslash in the other one (`operator`).
A star repeats the one item before it; where no item stands before it, which is at the start of a
branch, after the caret of a branch and after a star that repeats, it is an item itself.
-/

namespace TagNavigator.Pattern

/-! ### Expressions -/

/-- A pattern as an expression. -/
inductive Expr where
  /-- Matches the empty text. -/
  | empty
  | char (c : Char)
  | any
  | set (b : Bracket)
  | lineStart
  | lineEnd
  | wordStart
  | wordEnd
  | seq (a b : Expr)
  | alt (a b : Expr)
  | star (a : Expr)

/-- The ranges in a list of characters: a hyphen without backslash between two characters makes one
of them, and any other character is a range of its own. -/
def ranges : List BracketChar → List (Char × Char)
  | [] => []
  | lo :: ⟨false, '-'⟩ :: hi :: rest => (lo.char, hi.char) :: ranges rest
  | a :: rest => (a.char, a.char) :: ranges rest

/-- The characters between the brackets.  A closing bracket at the start is one of them. -/
def Bracket.listed (b : Bracket) : List BracketChar :=
  (if b.startsWithClosing then [⟨true, ']'⟩] else []) ++ b.body

/-- The character is in one of the ranges of the brackets. -/
def Bracket.Lists (b : Bracket) (c : Char) : Prop :=
  ∃ r ∈ ranges b.listed, r.1 ≤ c ∧ c ≤ r.2

/-- The brackets stand for the character. -/
def Bracket.Admits (b : Bracket) (c : Char) : Prop :=
  b.Lists c ↔ b.negated = false

/-- A range of the brackets ends before it starts. -/
def Bracket.Reversed (b : Bracket) : Prop :=
  ∃ r ∈ ranges b.listed, r.2 < r.1

/-- A word character stands at the place. -/
def WordAt (t : Text) (i : Nat) : Prop :=
  ∃ c, t[i]? = some c ∧ Text.isWordChar c = true

/-- A word character stands before the place. -/
def WordBefore (t : Text) (i : Nat) : Prop :=
  ∃ k, i = k + 1 ∧ WordAt t k

namespace Expr

/-- The expression matches the characters of `t` from place `i` to place `j`. -/
def Matches (t : Text) : Expr → Nat → Nat → Prop
  | empty, i, j => j = i
  | char c, i, j => t[i]? = some c ∧ j = i + 1
  | any, i, j => i < t.length ∧ j = i + 1
  | set b, i, j => (∃ c, t[i]? = some c ∧ b.Admits c) ∧ j = i + 1
  | lineStart, i, j => i = 0 ∧ j = i
  | lineEnd, i, j => i = t.length ∧ j = i
  | wordStart, i, j => (WordAt t i ∧ ¬ WordBefore t i) ∧ j = i
  | wordEnd, i, j => (WordBefore t i ∧ ¬ WordAt t i) ∧ j = i
  | seq a b, i, j => ∃ k, Matches t a i k ∧ Matches t b k j
  | alt a b, i, j => Matches t a i j ∨ Matches t b i j
  | star a, i, j => Relation.ReflTransGen (Matches t a) i j

/-- The expression is the start or the end of a word. -/
def IsEdge (e : Expr) : Prop := e = wordStart ∨ e = wordEnd

/-- No star repeats the start or the end of a word. -/
def NoStarredEdge : Expr → Prop
  | seq a b => a.NoStarredEdge ∧ b.NoStarredEdge
  | alt a b => a.NoStarredEdge ∧ b.NoStarredEdge
  | star a => ¬ a.IsEdge ∧ a.NoStarredEdge
  | _ => True

end Expr

/-! ### Reading -/

variable (magic : Bool)

/-- How the operator `c` is written: bare in the magic spelling, with a backslash in the other. -/
def operator (c : Char) : Text :=
  if magic then [c] else ['\\', c]

/-- The text starts with an operator of either spelling that is one of `cs`. -/
def StartsOperator (cs : List Char) (t : Text) : Prop :=
  ∃ c ∈ cs, operator magic c <+: t

instance (cs : List Char) (t : Text) : Decidable (StartsOperator magic cs t) :=
  List.decidableBEx (operator magic · <+: t) cs

variable {magic}

/-- A branch ends here: the pattern ends, or the end of a group or a bar follows. -/
def BranchEnds (t : Text) : Prop :=
  t = [] ∨ ['\\', ')'] <+: t ∨ ['\\', '|'] <+: t

instance (t : Text) : Decidable (BranchEnds t) :=
  inferInstanceAs (Decidable (t = [] ∨ ['\\', ')'] <+: t ∨ ['\\', '|'] <+: t))

/-- `ListRead t cs u`: the characters of `t` up to its first closing bracket are `cs`, and `u`
follows that bracket.  A backslash before a character quotes it. -/
inductive ListRead : Text → List BracketChar → Text → Prop where
  | close (u : Text) : ListRead (']' :: u) [] u
  | quoted {t u : Text} {cs : List BracketChar} (c : Char) (h : ListRead t cs u) :
    ListRead ('\\' :: c :: t) (⟨true, c⟩ :: cs) u
  | bare {t u : Text} {cs : List BracketChar} {c : Char} (hclose : c ≠ ']') (hquote : c ≠ '\\')
    (h : ListRead t cs u) : ListRead (c :: t) (⟨false, c⟩ :: cs) u

/-- What stands between an opening bracket and the characters up to the closing one. -/
def Bracket.opening (b : Bracket) : Text :=
  (if b.negated then ['^'] else []) ++ (if b.startsWithClosing then [']'] else [])

/-- The text `t`, which follows an opening bracket, writes the brackets `b` up to the rest `u`.  A
caret at the start asks for the other characters; a closing bracket at the start or after that
caret is one of the characters. -/
structure Bracket.Written (b : Bracket) (t u : Text) : Prop where
  caret : b.negated = false → t.head? ≠ some '^'
  read : ∃ s, t = b.opening ++ s ∧ ListRead s b.body u
    ∧ (b.startsWithClosing = false → s.head? ≠ some ']')

/-- The parts of a pattern. -/
inductive Part where
  /-- Branches with bars between them: a pattern, or what stands in a group. -/
  | alternatives
  | branch
  /-- What follows the caret of a branch. -/
  | items
  | item

open TagNavigator.Pattern.Part in
/-- `Reads magic part t e u`: the text `t` starts with a part of a pattern which is the expression
`e`, and `u` follows it. -/
inductive Reads (magic : Bool) : Part → Text → Expr → Text → Prop where
  | last {t u : Text} {e : Expr} (h : Reads magic branch t e u) (hbar : ¬ ['\\', '|'] <+: u) :
    Reads magic alternatives t e u
  | more {t u v : Text} {a b : Expr} (ha : Reads magic branch t a ('\\' :: '|' :: u))
    (hb : Reads magic alternatives u b v) : Reads magic alternatives t (.alt a b) v
  | anchored {t u : Text} {e : Expr} (h : Reads magic items t e u) :
    Reads magic branch ('^' :: t) (.seq .lineStart e) u
  | free {t u : Text} {e : Expr} (hcaret : t.head? ≠ some '^') (h : Reads magic items t e u) :
    Reads magic branch t e u
  | nil {t : Text} (hend : BranchEnds t) : Reads magic items t .empty t
  | dollar {t : Text} (hend : BranchEnds t) : Reads magic items ('$' :: t) .lineEnd t
  | once {t u v : Text} {a b : Expr} (ha : Reads magic item t a u)
    (hstar : ¬ operator magic '*' <+: u) (hb : Reads magic items u b v) :
    Reads magic items t (.seq a b) v
  | starred {t u v : Text} {a b : Expr} (ha : Reads magic item t a (operator magic '*' ++ u))
    (hb : Reads magic items u b v) : Reads magic items t (.seq (.star a) b) v
  | any (t : Text) : Reads magic item (operator magic '.' ++ t) .any t
  | set {t u : Text} {b : Bracket} (h : b.Written t u) :
    Reads magic item (operator magic '[' ++ t) (.set b) u
  | group {t u : Text} {e : Expr} (h : Reads magic alternatives t e ('\\' :: ')' :: u)) :
    Reads magic item ('\\' :: '(' :: t) e u
  | wordStart (t : Text) : Reads magic item ('\\' :: '<' :: t) .wordStart t
  | wordEnd (t : Text) : Reads magic item ('\\' :: '>' :: t) .wordEnd t
  | tab (t : Text) : Reads magic item ('\\' :: 't' :: t) (.char '\t') t
  /-- A star with nothing before it that it can repeat. -/
  | star (t : Text) : Reads magic item (operator magic '*' ++ t) (.char '*') t
  /-- An opening bracket without a closing one. -/
  | bracket {t : Text} (h : ∀ b u, ¬ Bracket.Written b t u) :
    Reads magic item (operator magic '[' ++ t) (.char '[') t
  | quoted {t : Text} {c : Char} (hc : c ∉ ['(', ')', '|', '<', '>', 't'])
    (hop : ¬ StartsOperator magic ['.', '*', '['] ('\\' :: c :: t)) :
    Reads magic item ('\\' :: c :: t) (.char c) t
  | bare {t : Text} {c : Char} (hquote : c = '\\' → t = []) (hdollar : c = '$' → ¬ BranchEnds t)
    (hop : ¬ StartsOperator magic ['.', '*', '['] (c :: t)) :
    Reads magic item (c :: t) (.char c) t

end TagNavigator.Pattern
