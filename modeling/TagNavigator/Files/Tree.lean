import TagNavigator.Files.Path
import TagNavigator.Text.Utf8
import TagNavigator.Text.Quoted

/-!
# File trees

A file tree maps absolute paths, as lists of names, to directories and to files with their content.
The root is always a directory. Walking down a path follows double dots only from directories that
exist, as the file system does, so `a/../b` is missing when `a` is.
-/

namespace TagNavigator

/-- What a path names. -/
inductive Entry where
  | directory
  | file (content : Bytes)
  deriving DecidableEq, Repr

/-- Why the file system refuses a path. -/
inductive FileError where
  | notFound
  | notDirectory
  | isDirectory
  | nameTooLong
  deriving DecidableEq, Repr

namespace FileError

/-- The number of the error. -/
def number : FileError → Nat
  | notFound => 2
  | notDirectory => 20
  | isDirectory => 21
  | nameTooLong => 36

/-- The name of the error. -/
def reason : FileError → Text
  | notFound => "No such file or directory".toList
  | notDirectory => "Not a directory".toList
  | isDirectory => "Is a directory".toList
  | nameTooLong => "File name too long".toList

/-- What is said of the error at a path. -/
def message (e : FileError) (path : Path) : Text :=
  "[Errno ".toList ++ Text.ofNat e.number ++ "] ".toList ++ e.reason ++ ": ".toList
    ++ Text.quoted path.toText

end FileError

/-- The entries below the root, by the names that lead to them. -/
structure FileTree where
  entries : List (List Text × Entry)
  deriving Repr

namespace FileTree

/-- The tree of the root alone. -/
def empty : FileTree := ⟨[]⟩

/-- The entry at the names. -/
def entry? (t : FileTree) (names : List Text) : Option Entry :=
  if names.isEmpty then some .directory else t.entries.lookup names

/-- The tree without the entry at the names and what lies below it. -/
def remove (t : FileTree) (names : List Text) : FileTree :=
  ⟨t.entries.filter fun e => !names.isPrefixOf e.1⟩

/-- The tree with one more entry. -/
def set (t : FileTree) (names : List Text) (e : Entry) : FileTree :=
  ⟨(names, e) :: t.entries.filter fun old => old.1 != names⟩

/-- The tree with directories at all proper beginnings of the names, unless something is there. -/
def makeParents (t : FileTree) (names : List Text) : FileTree :=
  (List.range names.length).foldl
    (fun t n =>
      match t.entry? (names.take n) with
      | some _ => t
      | none => t.set (names.take n) .directory)
    t

/-- The tree with the entry at the names and the directories above it. -/
def put (t : FileTree) (names : List Text) (e : Entry) : FileTree :=
  (t.makeParents names).set names e

/-- The greatest number of bytes in a name. -/
def nameLimit : Nat := 255

/-- The entry that is reached from `names` by following `path`. -/
def walk (t : FileTree) (names : List Text) : (path : List Text) → Except FileError Entry
  | [] =>
    match t.entry? names with
    | some e => .ok e
    | none => .error .notFound
  | name :: rest =>
    match t.entry? names with
    | none => .error .notFound
    | some (.file _) => .error .notDirectory
    | some .directory =>
      if nameLimit < (Utf8.encode name).length then .error .nameTooLong
      else t.walk (Path.follow names name) rest

end FileTree

end TagNavigator
