/-!
# Texts

A text is the list of its characters, which are Unicode scalar values. Lengths and columns count
characters. The module holds the operations on texts that the rest of the library shares: dropping
the end of a text, cutting it at a separator, joining, padding, and writing numbers.
-/

namespace TagNavigator

/-- A text: the list of its characters. -/
abbrev Text := List Char

namespace Text

/-- The list without the longest final segment whose elements all satisfy `p`. -/
def dropTrailing {α : Type} (p : α → Bool) (t : List α) : List α :=
  (t.reverse.dropWhile p).reverse

/-- The list without the longest segments at its two ends whose elements all satisfy `p`. -/
def trimBy {α : Type} (p : α → Bool) (t : List α) : List α :=
  dropTrailing p (t.dropWhile p)

/-- The segments between the occurrences of `sep`; a text without `sep` is one segment. -/
def cutAt (sep : Char) : Text → List Text
  | [] => [[]]
  | c :: t =>
    if c = sep then [] :: cutAt sep t
    else match cutAt sep t with
      | [] => [[c]]
      | s :: rest => (c :: s) :: rest

/-- The parts one after the other, with `sep` between neighbours. -/
def join (sep : Text) (parts : List Text) : Text :=
  sep.intercalate parts

/-- The part before the first occurrence of `sep`, and the part after it if there is one. -/
def splitFirst (sep : Char) : Text → Text × Option Text
  | [] => ([], none)
  | c :: t =>
    if c = sep then ([], some t)
    else ((c :: (splitFirst sep t).1), (splitFirst sep t).2)

/-- What stands before the first place where `mark` occurs; the whole text if it does not occur. -/
def before (mark : Text) : Text → Text
  | [] => []
  | c :: t => if mark.isPrefixOf (c :: t) then [] else c :: before mark t

/-- Whether `mark` occurs somewhere in the text. -/
def occurs (mark : Text) : Text → Bool
  | [] => mark.isEmpty
  | c :: t => mark.isPrefixOf (c :: t) || occurs mark t

/-- The decimal digits of a natural number. -/
def ofNat (n : Nat) : Text := Nat.toDigits 10 n

/-- The decimal form of an integer, with a minus sign if it is negative. -/
def ofInt : Int → Text
  | .ofNat n => ofNat n
  | .negSucc n => '-' :: ofNat (n + 1)

/-- The lower-case hexadecimal digits of a number, at least `width` of them. -/
def hex (width n : Nat) : Text :=
  let digits := Nat.toDigits 16 n
  List.replicate (width - digits.length) '0' ++ digits

/-- The text at the right end of a field of the given width. -/
def padLeft (width : Nat) (t : Text) : Text :=
  List.replicate (width - t.length) ' ' ++ t

/-- The text at the left end of a field of the given width. -/
def padRight (width : Nat) (t : Text) : Text :=
  t ++ List.replicate (width - t.length) ' '

end Text

end TagNavigator
