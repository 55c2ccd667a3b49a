import TagNavigator.Text.Basic
import TagNavigator.Text.Blank

/-!
# Decimal digits and integers

The decimal digits of every script, by the Unicode character database, version 14.0: each script
has its ten digits in a row, from zero to nine. An integer is written with such digits, of any
script, an optional sign, single underscores between digits, and white space around it; one of more
than `digitLimit` digits is refused.
-/

namespace TagNavigator.Text

/-- The code points of the digits zero. -/
def digitZeros : List Nat := [
  0x30, 0x660, 0x6F0, 0x7C0, 0x966, 0x9E6, 0xA66, 0xAE6, 0xB66, 0xBE6, 0xC66, 0xCE6, 0xD66,
  0xDE6, 0xE50, 0xED0, 0xF20, 0x1040, 0x1090, 0x17E0, 0x1810, 0x1946, 0x19D0, 0x1A80, 0x1A90,
  0x1B50, 0x1BB0, 0x1C40, 0x1C50, 0xA620, 0xA8D0, 0xA900, 0xA9D0, 0xA9F0, 0xAA50, 0xABF0, 0xFF10,
  0x104A0, 0x10D30, 0x11066, 0x110F0, 0x11136, 0x111D0, 0x112F0, 0x11450, 0x114D0, 0x11650,
  0x116C0, 0x11730, 0x118E0, 0x11950, 0x11C50, 0x11D50, 0x11DA0, 0x16A60, 0x16AC0, 0x16B50,
  0x1D7CE, 0x1D7D8, 0x1D7E2, 0x1D7EC, 0x1D7F6, 0x1E140, 0x1E2F0, 0x1E950, 0x1FBF0]

/-- The value of a decimal digit. -/
def digitValue? (c : Char) : Option Nat :=
  (digitZeros.find? fun z => z ≤ c.toNat && c.toNat < z + 10).map (c.toNat - ·)

/-- A decimal digit of any script. -/
def isDigit (c : Char) : Bool :=
  (digitValue? c).isSome

/-- The number of digits beyond which a numeral is not read. -/
def digitLimit : Nat := 4300

/-- The value of a row of digits, most significant first. -/
def valueOfDigits (t : Text) : Nat :=
  t.foldl (fun n c => 10 * n + (digitValue? c).getD 0) 0

/-- A numeral that is not read because it has this many digits. -/
structure LongNumeral where
  digits : Nat
  deriving DecidableEq, Repr

/-- The value of a row of digits of admissible length. -/
def readDigits (t : Text) : Except LongNumeral Nat :=
  if digitLimit < t.length then .error ⟨t.length⟩ else .ok (valueOfDigits t)

/-- Why a text is not read as an integer. -/
inductive IntegerError where
  /-- It is not written as an integer. -/
  | malformed
  | tooLong (e : LongNumeral)
  deriving DecidableEq, Repr

/-- Digits with single underscores between them, without the underscores. -/
def ungroup : Text → Option Text
  | [] => none
  | [c] => if isDigit c then some [c] else none
  | c :: '_' :: t => if isDigit c then (ungroup t).map (c :: ·) else none
  | c :: t => if isDigit c then (ungroup t).map (c :: ·) else none

/-- A sign, if there is one, and what follows it. -/
def splitSign : Text → Bool × Text
  | '-' :: t => (true, t)
  | '+' :: t => (false, t)
  | t => (false, t)

/-- White space that may surround an integer: the information separators may not. -/
def isPadding (c : Char) : Bool :=
  isBlank c && !(0x1C ≤ c.toNat && c.toNat ≤ 0x1F)

/-- The integer that a text writes. -/
def readInteger (t : Text) : Except IntegerError Int :=
  let (negative, body) := splitSign (dropTrailing isPadding (t.dropWhile isPadding))
  match ungroup body with
  | none => .error .malformed
  | some digits =>
    match readDigits digits with
    | .error e => .error (.tooLong e)
    | .ok n => .ok (if negative then -(n : Int) else n)

end TagNavigator.Text
