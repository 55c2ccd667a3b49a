import TagNavigator.Decimal.Shortest
import TagNavigator.Json.Basic
import TagNavigator.Text.Digit

/-!
# Writing JSON

A value is written in ASCII, either on one line or with every item and field on a line of its own,
indented by two spaces for each container around it. Floating-point numbers have the fewest digits
that read back. They are written with a point where it falls within sixteen digits of the first one,
and with an exponent elsewhere.
-/

namespace TagNavigator.Json

/-- A code unit as an escape. -/
def unicodeEscape (n : Nat) : Text :=
  '\\' :: 'u' :: Text.hex 4 n

/-- A code point between quotes. -/
def printCodePoint (n : Nat) : Text :=
  if n = 0x22 then ['\\', '"']
  else if n = 0x5C then ['\\', '\\']
  else if n = 0x0A then ['\\', 'n']
  else if n = 0x0D then ['\\', 'r']
  else if n = 0x09 then ['\\', 't']
  else if n = 0x0C then ['\\', 'f']
  else if n = 0x08 then ['\\', 'b']
  else if 0x20 ≤ n && n ≤ 0x7E then [Char.ofNat n]
  else if n < 0x10000 then unicodeEscape n
  else
    unicodeEscape (0xD800 + (n - 0x10000) / 0x400) ++ unicodeEscape (0xDC00 + (n - 0x10000) % 0x400)

/-- A string between quotes. -/
def printString (s : JsonString) : Text :=
  '"' :: s.flatMap printCodePoint ++ ['"']

/-- The number `0.d₁d₂… * 10 ^ point` with the digits `d`. -/
def printDigits (d : Text) (point : Int) : Text :=
  if -4 < point && point ≤ 16 then
    if point ≤ 0 then ['0', '.'] ++ List.replicate (-point).toNat '0' ++ d
    else if d.length ≤ point.toNat then
      d ++ List.replicate (point.toNat - d.length) '0' ++ ['.', '0']
    else d.take point.toNat ++ '.' :: d.drop point.toNat
  else
    let fraction := if d.length ≤ 1 then [] else '.' :: d.drop 1
    let power := Text.ofNat (point - 1).natAbs
    d.take 1 ++ fraction ++ ['e', if point < 1 then '-' else '+']
      ++ List.replicate (2 - power.length) '0' ++ power

/-- A floating-point number. -/
def printFloat : Binary64 → Text
  | .nan => "NaN".toList
  | .infinite negative => (if negative then ['-'] else []) ++ "Infinity".toList
  | .finite negative m e =>
    (if negative then ['-'] else []) ++
      if m = 0 then ['0', '.', '0']
      else
        let (c, k) := Decimal.shortest m e
        let d := Text.ofNat c
        printDigits d (d.length + k)

/-- The line break before an item inside `depth` containers. -/
def lineBreak (depth : Nat) : Text :=
  '\n' :: List.replicate (2 * depth) ' '

mutual

/-- A value on one line. -/
def printCompact : Json → Text
  | .null => "null".toList
  | .bool b => (if b then "true" else "false").toList
  | .int n => Text.ofInt n
  | .float x => printFloat x
  | .string s => printString s
  | .array items => '[' :: Text.join [',', ' '] (compactItems items) ++ [']']
  | .object fields => '{' :: Text.join [',', ' '] (compactFields fields) ++ ['}']

/-- The items of an array, each on one line. -/
def compactItems : List Json → List Text
  | [] => []
  | j :: rest => printCompact j :: compactItems rest

/-- The fields of an object, each on one line. -/
def compactFields : List (JsonString × Json) → List Text
  | [] => []
  | (name, j) :: rest =>
    (printString name ++ [':', ' '] ++ printCompact j) :: compactFields rest

end

mutual

/-- A value inside `depth` containers, on several lines. -/
def printIndented (depth : Nat) : Json → Text
  | .array (j :: rest) =>
    '[' :: Text.join [','] (indentedItems (depth + 1) (j :: rest)) ++ lineBreak depth ++ [']']
  | .object (f :: rest) =>
    '{' :: Text.join [','] (indentedFields (depth + 1) (f :: rest)) ++ lineBreak depth ++ ['}']
  | j => printCompact j

/-- The items of an array, each after a line break. -/
def indentedItems (depth : Nat) : List Json → List Text
  | [] => []
  | j :: rest => (lineBreak depth ++ printIndented depth j) :: indentedItems depth rest

/-- The fields of an object, each after a line break. -/
def indentedFields (depth : Nat) : List (JsonString × Json) → List Text
  | [] => []
  | (name, j) :: rest =>
    (lineBreak depth ++ printString name ++ [':', ' '] ++ printIndented depth j)
      :: indentedFields depth rest

end

mutual

/-- Whether a value can be written: an integer of more than `Text.digitLimit` digits cannot. -/
def isPrintable : Json → Bool
  | .int n => (Text.ofNat n.natAbs).length ≤ Text.digitLimit
  | .array items => areItemsPrintable items
  | .object fields => areFieldsPrintable fields
  | _ => true

/-- Whether all items of an array can be written. -/
def areItemsPrintable : List Json → Bool
  | [] => true
  | j :: rest => isPrintable j && areItemsPrintable rest

/-- Whether all fields of an object can be written. -/
def areFieldsPrintable : List (JsonString × Json) → Bool
  | [] => true
  | (_, j) :: rest => isPrintable j && areFieldsPrintable rest

end

end TagNavigator.Json
