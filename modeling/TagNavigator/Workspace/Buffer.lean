import TagNavigator.Cursor
import TagNavigator.Files.World

/-!
# Buffers

A buffer holds the lines of one file, under a number that is never used again. A buffer that has
been wiped is no longer listed, but a window may go on showing it, so it is kept.
-/

namespace TagNavigator

/-- The lines of a file, the cursor where it was last left, and whether the lines have unsaved
changes. -/
structure Buffer where
  number : Nat
  /-- The file, by its absolute path without double dots. -/
  path : Path
  lines : List Text
  cursor : Cursor
  modified : Bool
  listed : Bool
  deriving DecidableEq, Repr

/-- All buffers, in the order of their numbers, and the number of the next one. -/
structure Buffers where
  all : List Buffer
  next : Nat
  deriving DecidableEq, Repr

namespace Buffers

/-- No buffers. -/
def empty : Buffers := ⟨[], 1⟩

/-- The buffer with the number, listed or not. -/
def get? (bs : Buffers) (number : Nat) : Option Buffer :=
  bs.all.find? (·.number == number)

/-- The listed buffers. -/
def listed (bs : Buffers) : List Buffer :=
  bs.all.filter (·.listed)

/-- The listed buffer with the number. -/
def listed? (bs : Buffers) (number : Int) : Option Buffer :=
  bs.listed.find? fun b => (b.number : Int) == number

/-- The listed buffer of the file at an absolute path without double dots. -/
def find? (bs : Buffers) (path : Path) : Option Buffer :=
  bs.listed.find? (·.path == path)

/-- The buffers with one changed. -/
def update (bs : Buffers) (number : Nat) (change : Buffer → Buffer) : Buffers :=
  { bs with all := bs.all.map fun b => if b.number = number then change b else b }

/-- The buffers with a new one for the file at the path, and its number. -/
def add (bs : Buffers) (path : Path) (lines : List Text) : Nat × Buffers :=
  (bs.next, ⟨bs.all ++ [⟨bs.next, path, lines, Cursor.start, false, true⟩], bs.next + 1⟩)

/-- The buffers after the listed buffer with the number is wiped. -/
def wipe (bs : Buffers) (number : Int) : Buffers :=
  { bs with all := bs.all.map fun b =>
      if (b.number : Int) = number then { b with listed := false } else b }

/-- The buffers after the flag of the listed buffer with the number is set. -/
def setModified (bs : Buffers) (number : Int) (value : Bool) : Buffers :=
  { bs with all := bs.all.map fun b =>
      if b.listed && (b.number : Int) = number then { b with modified := value } else b }

/-- The name that a listed buffer is displayed by: its path as seen from the directory `cwd`, if it
lies in it. -/
def displayName (bs : Buffers) (cwd : List Text) (number : Option Int) : Option Text :=
  match number.bind bs.listed? with
  | none => none
  | some b => some ((b.path.relativeTo? cwd).getD b.path).toText

end Buffers

end TagNavigator
