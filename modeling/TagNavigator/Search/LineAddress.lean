import TagNavigator.Text.Digit

/-!
# Line addresses

A line of a buffer is named directly by an optional colon and an address: nothing for the current
line, a number, a dollar for the last line, or a sign and a number for a distance from the current
line, one if the number is left out. An address outside the buffer means the nearest line.
-/

namespace TagNavigator

/-- The address of a line. -/
inductive LineAddress where
  | current
  | last
  | absolute (n : Nat)
  /-- So many lines further down. -/
  | relative (distance : Int)
  deriving DecidableEq, Repr

namespace LineAddress

/-- The distance that the digits after a sign write. -/
def readDistance (digits : Text) : Except Text.LongNumeral Nat :=
  if digits.isEmpty then .ok 1 else Text.readDigits digits

/-- The address that a text without blanks around it writes, if it writes one. -/
def read (t : Text) : Except Text.LongNumeral (Option LineAddress) :=
  match t with
  | [] => .ok (some .current)
  | ['$'] => .ok (some .last)
  | c :: digits =>
    if c = '+' && digits.all Text.isDigit then do
      let n ← readDistance digits
      pure (some (.relative n))
    else if c = '-' && digits.all Text.isDigit then do
      let n ← readDistance digits
      pure (some (.relative (-n)))
    else if (c :: digits).all Text.isDigit then do
      let n ← Text.readDigits (c :: digits)
      pure (some (.absolute n))
    else .ok none

/-- The address of a line command: blanks and one colon may precede it. -/
def ofCommand (command : Text) : Except Text.LongNumeral (Option LineAddress) :=
  match Text.trim command with
  | ':' :: t => read (t.dropWhile Text.isBlank)
  | t => read t

/-- The line that an address means in a buffer of `count` lines, before it is moved into the
buffer. -/
def target (current count : Int) : LineAddress → Int
  | .current => current
  | .last => count
  | .absolute n => n
  | .relative d => current + d

/-- The line that a command names in a buffer of `count` lines; nothing if it names none. -/
def resolve (command : Text) (current count : Int) : Except Text.LongNumeral (Option Int) := do
  let address ← ofCommand command
  let count := max 1 count
  pure (address.map fun a => min (max 1 (a.target current count)) count)

end LineAddress

end TagNavigator
