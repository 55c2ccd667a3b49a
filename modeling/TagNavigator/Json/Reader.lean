import TagNavigator.Json.Token

/-!
# Reading JSON

`parse?` reads one value from a text. The arrays and objects that are open are kept on a stack,
which may hold no more than `nestingLimit` of them. Of several fields of one name the last counts.
-/

namespace TagNavigator.Json

/-- An array or object that is being read: the items so far, latest first, or the fields so far and
the name of the field that is being read. -/
inductive Container where
  | array (items : List Json)
  | object (fields : List (JsonString × Json)) (name : JsonString)

/-- What may come next. -/
inductive Expected where
  | value
  | valueOrEnd
  | name
  | nameOrEnd
  | colon
  /-- A comma or the end of the container. -/
  | separator
  /-- Nothing: the value is complete. -/
  | nothing
  deriving DecidableEq

/-- The open containers, innermost first, what may come next, and the value once it is complete. -/
structure Reading where
  containers : List Container
  expected : Expected
  result : Json

/-- The number of containers that may be open at a time. It stands for the recursion limit of the
reader, which is a thousand calls, of which some are taken up by the program around it. -/
def nestingLimit : Nat := 970

namespace Reading

/-- Nothing has been read. -/
def start : Reading := ⟨[], .value, .null⟩

/-- The reading after a complete value. -/
def complete (containers : List Container) (j : Json) : Reading :=
  match containers with
  | [] => ⟨[], .nothing, j⟩
  | .array items :: rest => ⟨.array (j :: items) :: rest, .separator, .null⟩
  | .object fields name :: rest =>
    ⟨.object (setField name j fields) name :: rest, .separator, .null⟩

/-- The reading after a container is opened. -/
def opening (r : Reading) (c : Container) (expected : Expected) : Option Reading :=
  if r.containers.length < nestingLimit then some ⟨c :: r.containers, expected, .null⟩ else none

/-- Whether a value may come next. -/
def takesValue (r : Reading) : Bool :=
  r.expected == .value || r.expected == .valueOrEnd

/-- The reading after one more token. -/
def step (r : Reading) : Token → Option Reading
  | .scalar j => if r.takesValue then some (complete r.containers j) else none
  | .string s =>
    if r.takesValue then some (complete r.containers (.string s))
    else if r.expected = .name || r.expected = .nameOrEnd then
      match r.containers with
      | .object fields _ :: rest => some ⟨.object fields s :: rest, .colon, .null⟩
      | _ => none
    else none
  | .bracketOpen => if r.takesValue then r.opening (.array []) .valueOrEnd else none
  | .braceOpen => if r.takesValue then r.opening (.object [] []) .nameOrEnd else none
  | .colon => if r.expected = .colon then some { r with expected := .value } else none
  | .comma =>
    if r.expected = .separator then
      match r.containers with
      | .array _ :: _ => some { r with expected := .value }
      | .object _ _ :: _ => some { r with expected := .name }
      | [] => none
    else none
  | .bracketClose =>
    match r.containers with
    | .array items :: rest =>
      if r.expected = .separator || r.expected = .valueOrEnd then
        some (complete rest (.array items.reverse))
      else none
    | _ => none
  | .braceClose =>
    match r.containers with
    | .object fields _ :: rest =>
      if r.expected = .separator || r.expected = .nameOrEnd then
        some (complete rest (.object fields))
      else none
    | _ => none

/-- The reading after all the tokens. -/
def run (r : Reading) : List Token → Option Reading
  | [] => some r
  | t :: rest =>
    match r.step t with
    | none => none
    | some r' => r'.run rest

end Reading

/-- The value that the tokens write. -/
def ofTokens? (tokens : List Token) : Option Json :=
  match Reading.start.run tokens with
  | some ⟨[], .nothing, j⟩ => some j
  | _ => none

/-- The value that a text writes. -/
def parse? (t : Text) : Option Json :=
  (tokenize t).bind ofTokens?

end TagNavigator.Json
