import TagNavigator.Text.Basic

/-!
# Paths

A path is a root and the names below it. Reading a path drops empty names and single dots, and
keeps double dots. One slash, or three and more, at the start is the root; exactly two slashes are
a root of their own. A path without root is relative, and the relative path without names is
written as a dot.
-/

namespace TagNavigator

/-- What a path starts at. -/
inductive PathRoot where
  /-- The directory that the path is used in. -/
  | here
  | slash
  | twoSlashes
  deriving DecidableEq, Repr

/-- A path: its root and its names. -/
structure Path where
  root : PathRoot
  names : List Text
  deriving DecidableEq, Repr

namespace Path

/-- The name of the parent directory. -/
def parentName : Text := ['.', '.']

/-- The root that a written path starts with. -/
def rootOf : Text → PathRoot
  | '/' :: '/' :: '/' :: _ => .slash
  | '/' :: '/' :: _ => .twoSlashes
  | '/' :: _ => .slash
  | _ => .here

/-- The names in a written path. -/
def namesOf (t : Text) : List Text :=
  (Text.cutAt '/' t).filter fun n => n != [] && n != ['.']

/-- The path that a text writes. -/
def ofText (t : Text) : Path := ⟨rootOf t, namesOf t⟩

/-- A root as it is written. -/
def rootText : PathRoot → Text
  | .here => []
  | .slash => ['/']
  | .twoSlashes => ['/', '/']

/-- The path as it is written. -/
def toText (p : Path) : Text :=
  match rootText p.root ++ Text.join ['/'] p.names with
  | [] => ['.']
  | t => t

/-- The path of the directory it is used in. -/
def here : Path := ⟨.here, []⟩

/-- Whether the path has a root. -/
def isAbsolute (p : Path) : Bool := p.root != .here

/-- The last name; empty if there is none. -/
def name (p : Path) : Text := p.names.getLastD []

/-- The path without its last name. -/
def parent (p : Path) : Path := { p with names := p.names.dropLast }

/-- The path `q` as seen from `p`: a path with a root is the same from everywhere. -/
def join (p q : Path) : Path :=
  if q.isAbsolute then q else { p with names := p.names ++ q.names }

/-- The path of the entry `name` below `p`. -/
def child (p : Path) (name : Text) : Path := { p with names := p.names ++ [name] }

/-- The directory names after following one more name: double dots lead to the parent. -/
def follow (names : List Text) (name : Text) : List Text :=
  if name = parentName then names.dropLast else names ++ [name]

/-- The names below the root slash that the path means when it is used in the directory `cwd`. -/
def absoluteNames (cwd : List Text) (p : Path) : List Text :=
  p.names.foldl follow (if p.isAbsolute then [] else cwd)

/-- The path without double dots that means the same when it is used in the directory `cwd`. -/
def resolve (cwd : List Text) (p : Path) : Path := ⟨.slash, p.absoluteNames cwd⟩

/-- The path as seen from the directory `dir`, if it lies in it. -/
def relativeTo? (dir : List Text) (p : Path) : Option Path :=
  if p.root = .slash && dir.isPrefixOf p.names then some ⟨.here, p.names.drop dir.length⟩
  else none

/-- Whether a name of the path holds the character NUL, which no file name does. -/
def hasNul (p : Path) : Bool := p.names.any (·.contains '\x00')

end Path

end TagNavigator
