import TagNavigator.Tag.Record

/-!
# Failures of tag lookups

Why a tag is not found or not shown, with the notice for each failure.
-/

namespace TagNavigator

/-- The notice for a malformed line of an index. -/
def FormatError.message (e : FormatError) : Text :=
  "Format error in tags file ".toList ++ e.index.toText

/-- Why a lookup or a jump fails. -/
inductive TagError where
  /-- The defining file of the tag does not exist. -/
  | missingTarget (name : Text) (path : Path)
  /-- No index can be opened. -/
  | noIndex
  /-- No index holds the tag. -/
  | notFound (name : Text)
  /-- The defining file cannot be shown. -/
  | jumpFailed (path : Path) (reason : Text)
  deriving DecidableEq, Repr

/-- The notice for a failure. -/
def TagError.message : TagError → Text
  | missingTarget _ path => "File \"".toList ++ path.toText ++ "\" does not exist".toList
  | noIndex => "No tags file".toList
  | notFound _ => "tag not found".toList
  | jumpFailed path reason =>
    if reason.isEmpty then "Cannot edit ".toList ++ path.toText else reason

/-- An index that cannot be opened. -/
structure OpenError where
  index : Path
  reason : Text
  deriving DecidableEq, Repr

/-- The notice for an index that cannot be opened. -/
def OpenError.message (e : OpenError) : Text :=
  "Cannot open tags file ".toList ++ e.index.toText

end TagNavigator
