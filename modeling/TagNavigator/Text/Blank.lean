import TagNavigator.Text.CodeRange
import TagNavigator.Text.Basic

/-!
# Blank characters

White space in the sense of the Unicode character database, together with the four information
separators U+001C to U+001F.
-/

namespace TagNavigator.Text

/-- The code points that count as white space. -/
def blankRanges : List CodeRange := [
  (0x9, 0xD), (0x1C, 0x20), (0x85, 0x85), (0xA0, 0xA0), (0x1680, 0x1680), (0x2000, 0x200A),
  (0x2028, 0x2029), (0x202F, 0x202F), (0x205F, 0x205F), (0x3000, 0x3000)]

/-- Whether a code point counts as white space. -/
def isBlankPoint (n : Nat) : Bool :=
  blankRanges.any fun r => r.1 ≤ n && n ≤ r.2

/-- White space of any kind. -/
def isBlank (c : Char) : Bool :=
  isBlankPoint c.toNat

/-- The text without the white space at its two ends. -/
def trim (t : Text) : Text :=
  trimBy isBlank t

end TagNavigator.Text
