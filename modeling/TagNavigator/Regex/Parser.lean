import TagNavigator.Regex.Token

/-!
# Reading regular expressions

`parse` turns a written regular expression into its structure. Groups nest, a bar separates the
branches of a group, and a star repeats the item before it, which may not be an anchor, a boundary
or a starred item. The open groups are kept on a stack. Items that all branches of a group start
with are read once, before the branches, and branches of one character each are one set.
-/

namespace TagNavigator.Regex

/-- A set as an item: a set of one character is that character. -/
def ofSet (s : CharSet) : Regex :=
  match s with
  | ⟨false, [.single c]⟩ => .char c
  | s => .set s

/-- The items one after the other. -/
def sequence : List Regex → Regex
  | [] => .empty
  | [r] => r
  | r :: rest => .seq r (sequence rest)

/-- The set items of a branch that is one character or set. -/
def choices? : List Regex → Option (List SetItem)
  | [.char c] => some [.single c]
  | [.set ⟨false, items⟩] => some items
  | _ => none

/-- The branches as alternatives, of which `first` is the first one. -/
def choose (first : List Regex) (others : List (List Regex)) : Regex :=
  match (first :: others).mapM choices? with
  | some items => .set ⟨false, items.flatten⟩
  | none => others.foldl (fun acc b => .alt acc (sequence b)) (sequence first)

/-- Whether an item is read once if all branches start with it. -/
def isShared : Regex → Bool
  | .char _ => true
  | .set _ => true
  | .any => true
  | .textStart => true
  | .textEnd => true
  | .boundary => true
  | _ => false

/-- The alternatives of several branches, after the items that they all start with. -/
def alternatives : (first : List Regex) → (others : List (List Regex)) → Regex
  | r :: first, others =>
    if isShared r && others.all (fun b => b.head? == some r) then
      .seq r (alternatives first (others.map (·.drop 1)))
    else choose (r :: first) others
  | [], others => choose [] others

/-- A group that is being read: its finished branches and the items of its last branch, both latest
first. -/
structure Frame where
  branches : List (List Regex)
  items : List Regex
  deriving DecidableEq, Repr

namespace Frame

/-- A group of which nothing has been read. -/
def start : Frame := ⟨[], []⟩

/-- The whole group as an expression. -/
def finish (f : Frame) : Regex :=
  match f.branches.reverse with
  | [] => sequence f.items.reverse
  | first :: others => alternatives first (others ++ [f.items.reverse])

/-- The group with one more item. -/
def push (f : Frame) (r : Regex) : Frame := { f with items := r :: f.items }

/-- The group with its last branch finished. -/
def split (f : Frame) : Frame := ⟨f.items.reverse :: f.branches, []⟩

/-- The group with its last item repeated. -/
def repeatLast (f : Frame) : Except Malformed Frame :=
  match f.items with
  | [] => .error .nothingToRepeat
  | .textStart :: _ => .error .nothingToRepeat
  | .textEnd :: _ => .error .nothingToRepeat
  | .boundary :: _ => .error .nothingToRepeat
  | .star _ :: _ => .error .multipleRepeat
  | r :: before => .ok { f with items := .star r :: before }

end Frame

/-- The group that is being read and the groups around it, innermost first. -/
structure Reading where
  current : Frame
  outer : List Frame
  deriving DecidableEq, Repr

namespace Reading

/-- Nothing has been read. -/
def start : Reading := ⟨.start, []⟩

/-- The reading with one more item in the innermost group. -/
def push (s : Reading) (r : Regex) : Reading := { s with current := s.current.push r }

/-- The reading after one more token. -/
def step (s : Reading) : Token → Except Malformed Reading
  | .char c => .ok (s.push (.char c))
  | .set cs => .ok (s.push (ofSet cs))
  | .any => .ok (s.push .any)
  | .textStart => .ok (s.push .textStart)
  | .textEnd => .ok (s.push .textEnd)
  | .boundary => .ok (s.push .boundary)
  | .wordAhead => .ok (s.push .wordAhead)
  | .wordBehind => .ok (s.push .wordBehind)
  | .bar => .ok { s with current := s.current.split }
  | .star => do
    let f ← s.current.repeatLast
    pure { s with current := f }
  | .groupOpen => .ok ⟨.start, s.current :: s.outer⟩
  | .groupClose =>
    match s.outer with
    | [] => .error .unbalancedClose
    | f :: outer => .ok ⟨f.push (.group s.current.finish), outer⟩

/-- The reading after all the tokens. -/
def run (s : Reading) : List Token → Except Malformed Reading
  | [] => .ok s
  | token :: rest => do
    let s' ← s.step token
    run s' rest

/-- The expression that has been read, if every group is closed. -/
def finish (s : Reading) : Except Malformed Regex :=
  if s.outer.isEmpty then .ok s.current.finish else .error .unclosedGroup

end Reading

/-- The expression that the tokens write. -/
def ofTokens (tokens : List Token) : Except Malformed Regex := do
  let s ← Reading.start.run tokens
  s.finish

/-- The expression that a text writes. -/
def parse (t : Text) : Except Malformed Regex := do
  let tokens ← tokenize t
  ofTokens tokens

end TagNavigator.Regex
