import TagNavigator.Json.Basic
import TagNavigator.Text.Digit

/-!
# Tokens of JSON texts

Besides the tokens of the standard there are literals for the infinities and for what is no number.
A string holds no control characters below the space. A number with a fraction or an exponent is a
floating-point number; an integer has no more than `Text.digitLimit` digits.
-/

namespace TagNavigator.Json

/-- A token. -/
inductive Token where
  | braceOpen
  | braceClose
  | bracketOpen
  | bracketClose
  | comma
  | colon
  | string (s : JsonString)
  /-- A value that is neither a string, an array nor an object. -/
  | scalar (j : Json)

/-- The value of a hexadecimal digit. -/
def hexValue? (c : Char) : Option Nat :=
  if c.isDigit then some (c.toNat - '0'.toNat)
  else if 'a' ≤ c && c ≤ 'f' then some (c.toNat - 'a'.toNat + 10)
  else if 'A' ≤ c && c ≤ 'F' then some (c.toNat - 'A'.toNat + 10)
  else none

/-- The value of four hexadecimal digits. -/
def hexFour? (a b c d : Char) : Option Nat := do
  let n₁ ← hexValue? a
  let n₂ ← hexValue? b
  let n₃ ← hexValue? c
  let n₄ ← hexValue? d
  pure (4096 * n₁ + 256 * n₂ + 16 * n₃ + n₄)

/-- The character of an escape of two characters. -/
def shortEscape? (c : Char) : Option Char :=
  match c with
  | '"' => some '"'
  | '\\' => some '\\'
  | '/' => some '/'
  | 'b' => some '\x08'
  | 'f' => some '\x0c'
  | 'n' => some '\n'
  | 'r' => some '\r'
  | 't' => some '\t'
  | _ => none

/-- The code points up to the closing quote, surrogate pairs unjoined, and the number of characters
read, the quote included. -/
def scanString? : Text → Option (JsonString × Nat)
  | [] => none
  | '\\' :: 'u' :: a :: b :: c :: d :: t => do
    let n ← hexFour? a b c d
    let (s, k) ← scanString? t
    pure (n :: s, k + 6)
  | '\\' :: e :: t => do
    let c ← shortEscape? e
    let (s, k) ← scanString? t
    pure (c.toNat :: s, k + 2)
  | c :: t =>
    if c = '"' then some ([], 1)
    else if c = '\\' || c.toNat < 0x20 then none
    else do
      let (s, k) ← scanString? t
      pure (c.toNat :: s, k + 1)

/-- The code points with surrogate pairs joined. -/
def joinSurrogates : JsonString → JsonString
  | [] => []
  | [a] => [a]
  | a :: b :: rest =>
    if 0xD800 ≤ a && a < 0xDC00 && 0xDC00 ≤ b && b < 0xE000 then
      (0x10000 + (a - 0xD800) * 0x400 + (b - 0xDC00)) :: joinSurrogates rest
    else a :: joinSurrogates (b :: rest)

/-- The digits of an integer part: a zero alone, or digits that do not start with one. -/
def integerDigits (t : Text) : Text :=
  match t with
  | '0' :: _ => ['0']
  | t => t.takeWhile Char.isDigit

/-- The digits of a fraction after its point. -/
def fractionDigits (t : Text) : Text :=
  match t with
  | '.' :: t => t.takeWhile Char.isDigit
  | _ => []

/-- An exponent, and the number of characters that write it, none if there is no exponent. -/
def exponentOf (t : Text) : Int × Nat :=
  match t with
  | [] => (0, 0)
  | e :: t =>
    if e = 'e' || e = 'E' then
      let signed := t.head? == some '+' || t.head? == some '-'
      let digits := (if signed then t.drop 1 else t).takeWhile Char.isDigit
      if digits.isEmpty then (0, 0)
      else
        let n : Int := Text.valueOfDigits digits
        (if t.head? == some '-' then -n else n, 1 + signed.toNat + digits.length)
    else (0, 0)

/-- The number at the start of a text, and the number of characters that write it. -/
def scanNumber? (t : Text) : Option (Json × Nat) :=
  let negative := t.head? == some '-'
  let body := if negative then t.drop 1 else t
  let whole := integerDigits body
  if whole.isEmpty then none
  else
    let rest := body.drop whole.length
    let fraction := fractionDigits rest
    let fractionLength := if fraction.isEmpty then 0 else fraction.length + 1
    let (power, powerLength) := exponentOf (rest.drop fractionLength)
    let length := negative.toNat + whole.length + fractionLength + powerLength
    if fractionLength + powerLength = 0 then
      match Text.readDigits whole with
      | .error _ => none
      | .ok n => some (.int (if negative then -(n : Int) else n), length)
    else
      let digits := whole ++ fraction
      let significant := digits.dropWhile (· == '0')
      some (.float (Binary64.ofDecimal negative (Text.valueOfDigits digits) significant.length
        (power - fraction.length)), length)

/-- The literals and their values. -/
def literals : List (Text × Json) := [
  ("null".toList, .null),
  ("true".toList, .bool true),
  ("false".toList, .bool false),
  ("NaN".toList, .float .nan),
  ("Infinity".toList, .float (.infinite false)),
  ("-Infinity".toList, .float (.infinite true))]

/-- The token that starts with the character `c`, where `t` follows, and the number of characters
that it takes from `t`. -/
def tokenAt? (c : Char) (t : Text) : Option (Token × Nat) :=
  match c with
  | '{' => some (.braceOpen, 0)
  | '}' => some (.braceClose, 0)
  | '[' => some (.bracketOpen, 0)
  | ']' => some (.bracketClose, 0)
  | ',' => some (.comma, 0)
  | ':' => some (.colon, 0)
  | '"' => (scanString? t).map fun r => (.string (joinSurrogates r.1), r.2)
  | c =>
    match literals.find? fun l => l.1.isPrefixOf (c :: t) with
    | some l => some (.scalar l.2, l.1.length - 1)
    | none => (scanNumber? (c :: t)).map fun r => (.scalar r.1, r.2 - 1)

/-- The white space between tokens. -/
def isSpace (c : Char) : Bool :=
  c == ' ' || c == '\t' || c == '\n' || c == '\r'

/-- The tokens of a text of which the first `skip` characters have been read. -/
def tokenizeFrom : (skip : Nat) → Text → Option (List Token)
  | _, [] => some []
  | skip + 1, _ :: t => tokenizeFrom skip t
  | 0, c :: t =>
    if isSpace c then tokenizeFrom 0 t
    else
      match tokenAt? c t with
      | none => none
      | some (token, n) => (tokenizeFrom n t).map (token :: ·)

/-- The tokens of a text. -/
def tokenize (t : Text) : Option (List Token) :=
  tokenizeFrom 0 t

end TagNavigator.Json
