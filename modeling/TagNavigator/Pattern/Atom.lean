import TagNavigator.Text.Basic

/-!
# Search patterns as atoms

A search pattern is written in the notation of line editors. Groups, branches and word edges are
always written with a backslash. The three operators `.`, `*` and `[` are bare characters in the
magic spelling and carry a backslash in the other one. `atoms` reads a pattern of either spelling.

Three characters are operators only in some places. A caret is one at the start of the pattern, of
a group or of a branch; a dollar at the end of the pattern, or before the end of a group or branch;
a star after an item that can be repeated. Elsewhere they stand for themselves.
-/

namespace TagNavigator.Pattern

/-- A character between brackets, and whether a backslash precedes it. -/
structure BracketChar where
  quoted : Bool
  char : Char
  deriving DecidableEq, Repr

/-- A bracket expression: what stands between the bracket that opens it and the one that closes it.
A closing bracket directly at the start stands for itself. -/
structure Bracket where
  negated : Bool
  startsWithClosing : Bool
  body : List BracketChar
  deriving DecidableEq, Repr

/-- An element of a pattern. -/
inductive Atom where
  | char (c : Char)
  | any
  | star
  | set (b : Bracket)
  | groupOpen
  | groupClose
  | bar
  | wordStart
  | wordEnd
  | tab
  | caret
  /-- A dollar, and whether it stands where it is an operator. -/
  | dollar (closes : Bool)
  deriving DecidableEq, Repr

/-- The characters up to the closing bracket, and the number of characters read, closing bracket
included; nothing if there is no closing bracket. -/
def bracketBody : Text → Option (List BracketChar × Nat)
  | [] => none
  | '\\' :: c :: t => (bracketBody t).map fun r => (⟨true, c⟩ :: r.1, r.2 + 2)
  | c :: t =>
    if c = ']' then some ([], 1)
    else (bracketBody t).map fun r => (⟨false, c⟩ :: r.1, r.2 + 1)

/-- Whether the text starts with `c`, and the text after it if it does. -/
def skipOne (c : Char) : Text → Bool × Text
  | [] => (false, [])
  | d :: t => if d = c then (true, t) else (false, d :: t)

/-- The bracket expression after an opening bracket, and the number of characters it takes. -/
def bracket? (t : Text) : Option (Bracket × Nat) :=
  let (negated, t₁) := skipOne '^' t
  let (closing, t₂) := skipOne ']' t₁
  (bracketBody t₂).map fun r =>
    (⟨negated, closing, r.1⟩, negated.toNat + closing.toNat + r.2)

/-- Whether a group, a branch or the pattern ends here. -/
def closesHere : Text → Bool
  | [] => true
  | '\\' :: c :: _ => c == ')' || c == '|'
  | _ => false

/-- The atom of a backslash and the character after it, brackets aside. -/
def escapedAtom (magic : Bool) (c : Char) : Atom :=
  match c with
  | '(' => .groupOpen
  | ')' => .groupClose
  | '|' => .bar
  | '<' => .wordStart
  | '>' => .wordEnd
  | 't' => .tab
  | '.' => if magic then .char '.' else .any
  | '*' => if magic then .char '*' else .star
  | c => .char c

/-- The atom of a bare character, brackets aside, where `rest` follows it. -/
def plainAtom (magic : Bool) (c : Char) (rest : Text) : Atom :=
  match c with
  | '^' => .caret
  | '$' => .dollar (closesHere rest)
  | '.' => if magic then .any else .char '.'
  | '*' => if magic then .star else .char '*'
  | c => .char c

/-- The atoms of a pattern of which the first `skip` characters have been read. -/
def readFrom (magic : Bool) : (skip : Nat) → Text → List Atom
  | _, [] => []
  | skip + 1, _ :: t => readFrom magic skip t
  | 0, '\\' :: c :: t =>
    if c = '[' && !magic then
      match bracket? t with
      | some (b, n) => .set b :: readFrom magic n t
      | none => .char c :: readFrom magic 0 t
    else escapedAtom magic c :: readFrom magic 0 t
  | 0, c :: t =>
    if c = '[' && magic then
      match bracket? t with
      | some (b, n) => .set b :: readFrom magic n t
      | none => .char c :: readFrom magic 0 t
    else plainAtom magic c t :: readFrom magic 0 t

/-- Whether a caret after this atom is an operator. -/
def startsBranch : Option Atom → Bool
  | none => true
  | some .groupOpen => true
  | some .bar => true
  | _ => false

/-- Whether a star after this atom repeats it. -/
def repeatable : Option Atom → Bool
  | some .caret => false
  | some .star => false
  | prev => !startsBranch prev

/-- The atom as it is meant after the atom `prev`. -/
def Atom.after (prev : Option Atom) : Atom → Atom
  | .star => if repeatable prev then .star else .char '*'
  | .caret => if startsBranch prev then .caret else .char '^'
  | .dollar closes => if closes then .dollar true else .char '$'
  | a => a

/-- The atoms as they are meant when they follow `prev`: an operator out of place stands for
itself. -/
def settle (prev : Option Atom) : List Atom → List Atom
  | [] => []
  | a :: rest => a.after prev :: settle (some (a.after prev)) rest

/-- The atoms of a pattern. -/
def atoms (magic : Bool) (pattern : Text) : List Atom :=
  settle none (readFrom magic 0 pattern)

end TagNavigator.Pattern
