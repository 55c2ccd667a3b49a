import TagNavigator.Files.World
import TagNavigator.Json.Printer
import TagNavigator.Json.Reader
import TagNavigator.Options

/-!
# The configuration file

The options are kept in a file that holds a JSON object. A file that cannot be read, or that holds
anything else, counts as an object without fields, and an option whose field is missing or of the
wrong kind has its default. Saving keeps the fields that are no options. Nothing is saved if the
file cannot be written or an integer has too many digits to be, but the directories on the way are
made before the integer is met.
-/

namespace TagNavigator.Config

/-- The fields of a configuration. -/
abbrev Fields := List (JsonString × Json)

/-- The fields that a file with the given content holds. -/
def fieldsOf (content : Bytes) : Fields :=
  match (Utf8.decode? content).bind fun t => Json.parse? (Text.unifyLineEnds t) with
  | some (.object fields) => fields
  | _ => []

/-- The fields of the configuration file. -/
def load (w : World) : Fields :=
  match w.readBytes w.configFile with
  | .ok content => fieldsOf content
  | .error _ => []

/-- The world after the fields are saved. -/
def save (w : World) (fields : Fields) : World :=
  if w.canWrite w.configFile then
    if Json.isPrintable (.object fields) then
      w.write w.configFile (Utf8.encode (Json.printIndented 0 (.object fields) ++ ['\n']))
    else { w with files := w.withWay w.configFile }
  else w

/-- An integer of at least `least`; booleans and numbers with a fraction are none. -/
def intOr (default least : Int) : Option Json → Int
  | some (.int n) => max least n
  | _ => default

/-- A boolean. -/
def boolOr (default : Bool) : Option Json → Bool
  | some (.bool b) => b
  | _ => default

/-- A string that is not blank, without the blanks around it. -/
def stringOr (default : JsonString) : Option Json → JsonString
  | some (.string s) =>
    match Text.trimBy Text.isBlankPoint s with
    | [] => default
    | t => t
  | _ => default

/-- The name of a field. -/
def key (name : String) : JsonString := JsonString.ofText name.toList

/-- The options in the fields of a configuration. -/
def optionsOf (fields : Fields) : Options :=
  let value (name : String) := Json.field? fields (key name)
  let d : Options := {}
  { indexes := stringOr d.indexes (value "tags")
    significant := intOr d.significant 0 (value "taglength")
    ignoreCase := boolOr d.ignoreCase (value "ignorecase")
    magic := boolOr d.magic (value "magic")
    besideIndex := boolOr d.besideIndex (value "tagrelative")
    historySize := intOr d.historySize 1 (value "tagstack")
    expandLimit := intOr d.expandLimit 1 (value "expand_limit")
    style := stringOr d.style (value "style") }

/-- The options in the configuration file. -/
def loadOptions (w : World) : Options := optionsOf (load w)

/-- The fields of the options, in the order in which they are saved. -/
def fieldsOfOptions (o : Options) : Fields := [
  (key "tags", .string o.indexes),
  (key "taglength", .int o.significant),
  (key "ignorecase", .bool o.ignoreCase),
  (key "magic", .bool o.magic),
  (key "tagrelative", .bool o.besideIndex),
  (key "tagstack", .int o.historySize),
  (key "expand_limit", .int o.expandLimit),
  (key "style", .string o.style)]

/-- The fields with the given ones set, one after the other. -/
def setAll (fields given : Fields) : Fields :=
  given.foldl (fun fs f => Json.setField f.1 f.2 fs) fields

/-- The world after the options are saved. -/
def saveOptions (w : World) (o : Options) : World :=
  save w (setAll (load w) (fieldsOfOptions o))

end TagNavigator.Config
