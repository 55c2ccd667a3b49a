import TagNavigator.Log
import TagNavigator.Options
import TagNavigator.Tag.Command
import TagNavigator.Tag.Index

/-!
# Looking up a tag

The index files are consulted in order, and the first record with a matching name decides. An index
that cannot be opened is skipped. A malformed line, or a matching record without a search command,
ends the search of its index only. A matching record whose defining file is missing ends the whole
lookup.
-/

namespace TagNavigator

/-- Where a tag is defined. -/
structure Location where
  /-- The name that was looked up. -/
  requested : Text
  /-- The name in the index. -/
  tagName : Text
  path : Path
  command : TagCommand
  index : Path
  line : Nat
  deriving DecidableEq, Repr

/-- What comes of a lookup: its result, and the format errors and log lines on the way. -/
structure Lookup where
  result : Except TagError Location
  formatErrors : List FormatError
  log : List LogLine

namespace Lookup

/-- The lookup that ends with the result. -/
def ending (result : Except TagError Location) : Lookup := ⟨result, [], []⟩

/-- The lookup with a log line before. -/
def logging (l : LogLine) (rest : Lookup) : Lookup := { rest with log := l :: rest.log }

/-- The lookup with a format error before. -/
def afterError (e : FormatError) (rest : Lookup) : Lookup :=
  ⟨rest.result, e :: rest.formatErrors, LogLine.malformed .lookup e :: rest.log⟩

/-- The notices of a lookup: one for each format error. -/
def notices (l : Lookup) : List Text := l.formatErrors.map (·.message)

/-- Whether a record is the one that is looked for. -/
def isMatch (o : Options) (name : Text) (r : TagRecord) : Bool :=
  match r.name with
  | none => false
  | some tag => TagRecord.namesMatch tag name o.significant o.ignoreCase

/-- The path that a defining file has as seen from the working directory. -/
def targetPath (w : World) (o : Options) (index : Path) (file : Text) : Path :=
  let path := w.expandPath file
  if o.besideIndex && !path.isAbsolute && index.parent != Path.here then index.parent.join path
  else path

/-- Whether the defining file is there. A name with NUL is no name of a user to ask for. -/
def isTargetThere (w : World) (o : Options) (index : Path) (file : Text) : Except Fault Bool :=
  if (World.userOf file).contains '\x00' then .error .embeddedNul
  else w.isThere (targetPath w o index file)

/-- The location that a matching record gives. -/
def locate (w : World) (o : Options) (name : Text) (r : TagRecord) (file command : Text) :
    Except Fault (Except TagError Location) := do
  let path := targetPath w o r.index file
  if ← isTargetThere w o r.index file then
    pure (.ok ⟨name, r.name.getD [], path, TagCommand.ofField o.magic command, r.index, r.line⟩)
  else pure (.error (.missingTarget name path))

/-- The lookup in the given index files, where `opened` tells whether another one was opened. -/
def among (w : World) (o : Options) (name : Text) (currentFile : Option Path) (opened : Bool) :
    List Path → Except Fault Lookup
  | [] => pure (ending (.error (if opened then .notFound name else .noIndex)))
  | index :: rest =>
    match Index.read w index currentFile with
    | .error e => logging (.skipping .lookup e) <$> among w o name currentFile opened rest
    | .ok reading => logging (.scanning index) <$>
      match reading.records.find? (isMatch o name) with
      | some r =>
        match r.fields with
        | .error e => afterError e <$> among w o name currentFile true rest
        | .ok (file, command) => ending <$> locate w o name r file command
      | none =>
        match reading.stop with
        | some e => afterError e <$> among w o name currentFile true rest
        | none => among w o name currentFile true rest

/-- The lookup of a name while `currentFile` is edited. -/
def find (w : World) (o : Options) (name : Text) (currentFile : Option Path) :
    Except Fault Lookup := do
  let names ← o.indexNames
  let indexes ← Index.candidates w names currentFile
  among w o name currentFile false indexes

end Lookup

end TagNavigator
