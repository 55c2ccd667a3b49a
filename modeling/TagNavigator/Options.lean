import TagNavigator.Fault

/-!
# Options

The options that tag lookups, completion and the history of jumps consult. Those that are strings
come from the configuration file, which can give them half of a surrogate pair.
-/

namespace TagNavigator

/-- The options of a session. -/
structure Options where
  /-- The names of the index files, separated by spaces. -/
  indexes : JsonString := JsonString.ofText "tags".toList
  /-- The number of leading characters that distinguish tags; all of them if it is not positive. -/
  significant : Int := 0
  ignoreCase : Bool := false
  /-- Whether patterns are in the magic spelling. -/
  magic : Bool := true
  /-- Whether defining files are looked for beside the index that names them. -/
  besideIndex : Bool := false
  /-- The number of jumps that a history remembers. -/
  historySize : Int := 20
  /-- The number of names that a completion gives at most. -/
  expandLimit : Int := 10000
  /-- The style of highlighting. -/
  style : JsonString := JsonString.ofText "monokai".toList
  deriving DecidableEq, Repr

/-- The names of the index files, separated by spaces, as names of files can be written: without
halves of surrogate pairs. -/
def Options.indexNames (o : Options) : Except Fault Text :=
  match o.indexes.toText? with
  | some names => .ok names
  | none => .error (.halfCharacter o.indexes)

end TagNavigator
