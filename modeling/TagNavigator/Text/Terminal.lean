import TagNavigator.Text.Basic

/-!
# Texts for a terminal

A terminal acts on control characters. `sanitize` writes each of them, tab and line ends aside, as
a backslash, an `x` and two hexadecimal digits.
-/

namespace TagNavigator.Text

/-- The control characters, apart from tab, line feed and carriage return. -/
def isControl (c : Char) : Bool :=
  let n := c.toNat
  n ≤ 0x08 || n == 0x0b || n == 0x0c || (0x0e ≤ n && n ≤ 0x1f) || (0x7f ≤ n && n ≤ 0x9f)

/-- A character as a terminal may get it. -/
def inert (c : Char) : Text :=
  if c = '\n' || c = '\r' || c = '\t' then [c]
  else if c.toNat < 32 || c.toNat = 127 || (0x80 ≤ c.toNat && c.toNat ≤ 0x9f) then
    '\\' :: 'x' :: hex 2 c.toNat
  else [c]

/-- The text with its control characters spelled out. A text without any is left as it is. -/
def sanitize (t : Text) : Text :=
  if t.any isControl then t.flatMap inert else t

end TagNavigator.Text
