import TagNavigator.Decimal.Binary64
import TagNavigator.Text.Basic

/-!
# JSON values

Numbers are integers of any size or floating-point numbers. The fields of an object keep the order
in which their names first appeared, and a name has one value. A string is a list of code points, as
an escape can write half of a surrogate pair, which is no character.
-/

namespace TagNavigator

/-- A string of code points. -/
abbrev JsonString := List Nat

/-- A JSON value. -/
inductive Json where
  | null
  | bool (b : Bool)
  | int (n : Int)
  | float (x : Binary64)
  | string (s : JsonString)
  | array (items : List Json)
  | object (fields : List (JsonString × Json))
  deriving Repr

namespace JsonString

/-- The string of a text. -/
def ofText (t : Text) : JsonString := t.map (·.toNat)

/-- The text of a string, if each of its code points is a character. -/
def toText? (s : JsonString) : Option Text :=
  s.mapM fun n => if n.isValidChar then some (Char.ofNat n) else none

end JsonString

namespace Json

/-- The value of a field. -/
def field? (fields : List (JsonString × Json)) (name : JsonString) : Option Json :=
  fields.lookup name

/-- The fields with one more, which replaces a field of that name in its place. -/
def setField (name : JsonString) (value : Json) :
    List (JsonString × Json) → List (JsonString × Json)
  | [] => [(name, value)]
  | f :: rest => if f.1 = name then (name, value) :: rest else f :: setField name value rest

end Json

end TagNavigator
