import TagNavigator.Text.Lowercase

/-!
# Letters that differ in case only

Two characters are the same letter when their lower cases are equal or share an upper case, as the
dotless i and the i do. The relation is the kernel of `foldCase`, and `variants c` lists the
characters that are the same letter as `c`.
-/

namespace TagNavigator.Text

/-- The sets of lower-case letters that share an upper case. -/
def lowerKin : List (List Nat) := [
  [0x69, 0x131], [0x73, 0x17F], [0xB5, 0x3BC], [0x345, 0x3B9, 0x1FBE], [0x390, 0x1FD3],
  [0x3B0, 0x1FE3], [0x3B2, 0x3D0], [0x3B5, 0x3F5], [0x3B8, 0x3D1], [0x3BA, 0x3F0],
  [0x3C0, 0x3D6], [0x3C1, 0x3F1], [0x3C2, 0x3C3], [0x3C6, 0x3D5], [0x432, 0x1C80],
  [0x434, 0x1C81], [0x43E, 0x1C82], [0x441, 0x1C83], [0x442, 0x1C84, 0x1C85], [0x44A, 0x1C86],
  [0x463, 0x1C87], [0x1C88, 0xA64B], [0x1E61, 0x1E9B], [0xFB05, 0xFB06]]

/-- The code points of the lower-case letters that share an upper case with the letter `n`. -/
def kinOf (n : Nat) : List Nat :=
  (lowerKin.find? (·.contains n)).getD [n]

/-- One code point for all the characters that are the same letter as `c`. -/
def foldCase (c : Char) : Nat :=
  (kinOf (lower c).toNat).headD (lower c).toNat

/-- Whether the characters are equal up to case. -/
def sameLetter (a b : Char) : Bool :=
  foldCase a == foldCase b

/-- The code points whose lower case is the code point `n`, other than `n`. -/
def raised (n : Nat) : List Nat :=
  caseRuns.filterMap fun r =>
    let m := ((n : Int) - r.shift).toNat
    if r.moves m then some m else none

/-- The code points of the characters that are the same letter as `c`. -/
def variants (c : Char) : List Nat :=
  let kin := kinOf (lower c).toNat
  kin ++ kin.flatMap raised

end TagNavigator.Text
