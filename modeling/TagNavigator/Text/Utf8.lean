import TagNavigator.Text.Basic

/-!
# UTF-8

`encode` writes a text as bytes. `decode` reads bytes one at a time and gives a character for every
well-formed sequence and nothing for every ill-formed one, where an ill-formed sequence is the
longest start of a sequence that some byte cuts short, or else a single byte. So a byte that starts
a sequence is never lost to the ill-formed sequence before it.
-/

namespace TagNavigator

/-- The content of a file. -/
abbrev Bytes := List UInt8

namespace Utf8

/-- The bytes of a text. -/
def encode (t : Text) : Bytes :=
  t.flatMap String.utf8EncodeChar

/-- What a reader knows between two bytes. -/
inductive State where
  /-- The next byte starts a sequence. -/
  | ready
  /-- The bits read so far, the number of bytes to come, and the bounds of the next one. -/
  | within (bits count low high : Nat)
  deriving DecidableEq, Repr

/-- The effect of a byte that starts a sequence: what it completes, and the state after it. -/
def start (b : Nat) : List (Option Char) × State :=
  if b < 0x80 then ([some (Char.ofNat b)], .ready)
  else if b < 0xC2 then ([none], .ready)
  else if b < 0xE0 then ([], .within (b - 0xC0) 1 0x80 0xBF)
  else if b = 0xE0 then ([], .within 0 2 0xA0 0xBF)
  else if b = 0xED then ([], .within 0xD 2 0x80 0x9F)
  else if b < 0xF0 then ([], .within (b - 0xE0) 2 0x80 0xBF)
  else if b = 0xF0 then ([], .within 0 3 0x90 0xBF)
  else if b < 0xF4 then ([], .within (b - 0xF0) 3 0x80 0xBF)
  else if b = 0xF4 then ([], .within 4 3 0x80 0x8F)
  else ([none], .ready)

/-- The effect of a byte in any state. -/
def step : State → Nat → List (Option Char) × State
  | .ready, b => start b
  | .within bits count low high, b =>
    if low ≤ b && b ≤ high then
      let bits := 64 * bits + (b - 0x80)
      if count ≤ 1 then ([some (Char.ofNat bits)], .ready)
      else ([], .within bits (count - 1) 0x80 0xBF)
    else
      let (completed, state) := start b
      (none :: completed, state)

/-- The sequences of the bytes that follow the state. -/
def decodeFrom : State → Bytes → List (Option Char)
  | .ready, [] => []
  | .within _ _ _ _, [] => [none]
  | state, b :: rest => (step state b.toNat).1 ++ decodeFrom (step state b.toNat).2 rest

/-- The characters of the well-formed sequences, and nothing for each ill-formed one. -/
def decode (bytes : Bytes) : List (Option Char) :=
  decodeFrom .ready bytes

/-- The text of well-formed bytes. -/
def decode? (bytes : Bytes) : Option Text :=
  (decode bytes).mapM id

/-- The text of the bytes, with a replacement character for each ill-formed sequence. -/
def decodeLossy (bytes : Bytes) : Text :=
  (decode bytes).map (·.getD '\ufffd')

end Utf8

end TagNavigator
