import TagNavigator.Files.World
import TagNavigator.Tag.Error

/-!
# Index files

Which index files are consulted, and the records they hold. The names given by the option come
first, in order; then the index beside the file that is edited, unless the option names it already
in some spelling. A malformed line ends the records of its index.
-/

namespace TagNavigator.Index

/-- The name of the index beside the file that is edited. -/
def localName : Text := "tags".toList

/-- The index files that the option names. -/
def optionPaths (w : World) (names : Text) : List Path :=
  ((Text.cutAt ' ' names).filter (· != [])).map w.expandPath

/-- The index files to consult, in order. -/
def candidates (w : World) (names : Text) (currentFile : Option Path) :
    Except Fault (List Path) := do
  let listed := optionPaths w names
  let resolved ← listed.mapM w.resolve
  match currentFile with
  | none => pure listed
  | some file => do
    let beside := file.parent.child localName
    let target ← w.resolve beside
    pure (if resolved.contains target then listed else listed ++ [beside])

/-- The records of an index up to its first malformed line, and that line. -/
structure Reading where
  records : List TagRecord
  stop : Option FormatError
  deriving DecidableEq, Repr

/-- The records in the lines of an index, of which the first has the given number. -/
def readLines (index : Path) (currentFile : Option Path) (number : Nat) : List Text → Reading
  | [] => ⟨[], none⟩
  | line :: rest =>
    match TagRecord.parse line index number currentFile with
    | .error e => ⟨[], some e⟩
    | .ok r =>
      let others := readLines index currentFile (number + 1) rest
      ⟨r :: others.records, others.stop⟩

/-- The records in the content of an index. -/
def readContent (index : Path) (currentFile : Option Path) (content : Bytes) : Reading :=
  readLines index currentFile 1 (Text.afterLineFeeds (Utf8.decodeLossy content))

/-- The records of an index, if it can be opened. -/
def read (w : World) (index : Path) (currentFile : Option Path) : Except OpenError Reading :=
  match w.readBytes index with
  | .ok content => .ok (readContent index currentFile content)
  | .error e => .error ⟨index, e.message index⟩

end TagNavigator.Index
