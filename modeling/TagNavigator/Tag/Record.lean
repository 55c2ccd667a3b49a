import TagNavigator.Files.Path
import TagNavigator.Text.Lowercase

/-!
# Records of an index

A line of an index holds the name of a tag, the file that defines it and a search command, with
runs of spaces and tabs between them. A name with a colon belongs to the file before the colon, and
counts only while a file of that name is edited.
-/

namespace TagNavigator

/-- A record of an index. -/
structure TagRecord where
  /-- The first field as it is written. -/
  rawTag : Text
  /-- The name of the tag; nothing for a tag of another file. -/
  name : Option Text
  /-- What follows the first field. -/
  remainder : Text
  /-- The index that holds the record. -/
  index : Path
  /-- The number of the line, from one. -/
  line : Nat
  deriving DecidableEq, Repr

/-- A line of an index that lacks a field. -/
structure FormatError where
  index : Path
  line : Nat
  deriving DecidableEq, Repr

namespace TagRecord

/-- The characters that separate fields. -/
def isSeparator (c : Char) : Bool :=
  c == ' ' || c == '\t'

/-- The first field and what follows the separators after it; nothing if there is no separator. -/
def splitField (t : Text) : Option (Text × Text) :=
  let rest := t.dropWhile (!isSeparator ·)
  if rest.isEmpty then none
  else some (t.takeWhile (!isSeparator ·), rest.dropWhile isSeparator)

/-- The name of a tag as it counts while `currentFile` is edited. -/
def eligibleName (rawTag : Text) (currentFile : Option Path) : Option Text :=
  match Text.splitFirst ':' rawTag with
  | (_, none) => some rawTag
  | (scope, some name) =>
    match currentFile with
    | none => none
    | some file => if (Path.ofText scope).name = file.name then some name else none

/-- The record that a line of an index holds. -/
def parse (line : Text) (index : Path) (number : Nat) (currentFile : Option Path) :
    Except FormatError TagRecord :=
  match splitField line with
  | none => .error ⟨index, number⟩
  | some (rawTag, remainder) =>
    .ok ⟨rawTag, eligibleName rawTag currentFile, remainder, index, number⟩

/-- The defining file and the search command of a record. -/
def fields (r : TagRecord) : Except FormatError (Text × Text) :=
  match splitField r.remainder with
  | none => .error ⟨r.index, r.line⟩
  | some f => .ok f

/-- Whether two names are equal over the first `length` characters, or as a whole if `length` is
not positive. -/
def namesMatch (candidate requested : Text) (length : Int) (ignoreCase : Bool) : Bool :=
  let candidate := if ignoreCase then Text.lowercase candidate else candidate
  let requested := if ignoreCase then Text.lowercase requested else requested
  if 0 < length then candidate.take length.toNat = requested.take length.toNat
  else candidate = requested

end TagRecord

end TagNavigator
