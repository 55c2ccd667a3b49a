import TagNavigator.Text.Utf8

/-!
# Texts written in UTF-8

The bytes of a character lead from the start of a sequence back to it and complete that character
(`decodeFrom_encodeChar`).  So the bytes of a text are well formed, and they are read as that text
(`decode?_encode`).
-/

namespace TagNavigator.Utf8

variable {bits count low high b : Nat} {rest : Bytes}

/-! ### Bytes in a sequence -/

theorem decodeFrom_cons (state : State) (b : UInt8) (rest : Bytes) :
  decodeFrom state (b :: rest)
    = (step state b.toNat).1 ++ decodeFrom (step state b.toNat).2 rest
  := by
  cases state <;> rfl

/-- A byte that stands for a number of bits. -/
theorem decodeFrom_ofNat_cons (state : State) (hb : b < 0x100) (rest : Bytes) :
  decodeFrom state (UInt8.ofNat b :: rest)
    = (step state b).1 ++ decodeFrom (step state b).2 rest
  := by
  rw [decodeFrom_cons, UInt8.toNat_ofNat_of_lt' hb]

/-- A byte within the bounds adds its six bits. -/
theorem decodeFrom_within (hlow : low ≤ b + 0x80) (hhigh : b + 0x80 ≤ high) (hb : b < 0x40) :
  decodeFrom (.within bits (count + 2) low high) (UInt8.ofNat (b + 0x80) :: rest)
    = decodeFrom (.within (64 * bits + b) (count + 1) 0x80 0xBF) rest
  := by
  have hstep : step (.within bits (count + 2) low high) (b + 0x80)
      = ([], .within (64 * bits + b) (count + 1) 0x80 0xBF) := by
    simp [step, hlow, hhigh]
  rw [decodeFrom_ofNat_cons _ (by omega), hstep]
  rfl

/-- The last byte of a sequence completes a character. -/
theorem decodeFrom_last (hlow : low ≤ b + 0x80) (hhigh : b + 0x80 ≤ high) (hb : b < 0x40) :
  decodeFrom (.within bits 1 low high) (UInt8.ofNat (b + 0x80) :: rest)
    = some (Char.ofNat (64 * bits + b)) :: decodeFrom .ready rest
  := by
  have hstep : step (.within bits 1 low high) (b + 0x80)
      = ([some (Char.ofNat (64 * bits + b))], .ready) := by
    simp [step, hlow, hhigh]
  rw [decodeFrom_ofNat_cons _ (by omega), hstep]
  rfl

/-! ### Bytes that start a sequence -/

theorem start_one (h : b < 0x80) :
  start b = ([some (Char.ofNat b)], .ready)
  := if_pos h

theorem start_two (hlow : 2 ≤ b) (hhigh : b < 0x20) :
  start (b + 0xC0) = ([], .within b 1 0x80 0xBF)
  := by
  rw [start, if_neg (by omega), if_neg (by omega), if_pos (by omega), Nat.add_sub_cancel]

/-- The bounds of the byte after the first of three leave out short forms and surrogates. -/
theorem exists_start_three (hhigh : b < 0x10) :
  ∃ low high, start (b + 0xE0) = ([], .within b 2 low high)
    ∧ low = (if b = 0 then 0xA0 else 0x80) ∧ high = (if b = 0xD then 0x9F else 0xBF)
  := by
  rw [start, if_neg (by omega), if_neg (by omega), if_neg (by omega)]
  by_cases hzero : b = 0
  · subst hzero
    exact ⟨_, _, rfl, rfl, rfl⟩
  · rw [if_neg (by omega), if_neg hzero]
    by_cases hsurrogates : b = 0xD
    · subst hsurrogates
      exact ⟨_, _, rfl, rfl, rfl⟩
    · rw [if_neg (by omega), if_pos (by omega), Nat.add_sub_cancel, if_neg hsurrogates]
      exact ⟨_, _, rfl, rfl, rfl⟩

/-- The bounds of the byte after the first of four leave out short forms, and what is beyond
Unicode. -/
theorem exists_start_four (hhigh : b < 5) :
  ∃ low high, start (b + 0xF0) = ([], .within b 3 low high)
    ∧ low = (if b = 0 then 0x90 else 0x80) ∧ high = (if b = 4 then 0x8F else 0xBF)
  := by
  obtain rfl | rfl | rfl | rfl | rfl : b = 0 ∨ b = 1 ∨ b = 2 ∨ b = 3 ∨ b = 4 := by omega
  all_goals exact ⟨_, _, rfl, rfl, rfl⟩

/-! ### Characters -/

theorem decodeFrom_one {v : Nat} (hv : v < 0x80) :
  decodeFrom .ready (UInt8.ofNat v :: rest) = some (Char.ofNat v) :: decodeFrom .ready rest
  := by
  rw [decodeFrom_ofNat_cons _ (by omega), step, start_one hv]
  rfl

theorem decodeFrom_two {v : Nat} (hlow : 0x80 ≤ v) (hhigh : v < 0x800) :
  decodeFrom .ready (UInt8.ofNat (v / 0x40 % 0x20 + 0xC0) :: UInt8.ofNat (v % 0x40 + 0x80) :: rest)
    = some (Char.ofNat v) :: decodeFrom .ready rest
  := by
  have hbits : 64 * (v / 0x40 % 0x20) + v % 0x40 = v := by omega
  rw [decodeFrom_ofNat_cons _ (by omega), step, start_two (by omega) (by omega), List.nil_append,
    decodeFrom_last (by omega) (by omega) (by omega), hbits]

theorem decodeFrom_three {v : Nat} (hlow : 0x800 ≤ v) (hhigh : v < 0x10000)
    (hvalid : v < 0xD800 ∨ 0xDFFF < v) :
  decodeFrom .ready (UInt8.ofNat (v / 0x1000 % 0x10 + 0xE0)
      :: UInt8.ofNat (v / 0x40 % 0x40 + 0x80) :: UInt8.ofNat (v % 0x40 + 0x80) :: rest)
    = some (Char.ofNat v) :: decodeFrom .ready rest
  := by
  have hbits : 64 * (64 * (v / 0x1000 % 0x10) + v / 0x40 % 0x40) + v % 0x40 = v := by omega
  obtain ⟨low, high, hstart, hlow', hhigh'⟩ :=
    exists_start_three (show v / 0x1000 % 0x10 < 0x10 by omega)
  have hwithin : low ≤ v / 0x40 % 0x40 + 0x80 ∧ v / 0x40 % 0x40 + 0x80 ≤ high := by
    rw [hlow', hhigh']
    constructor
    · split <;> omega
    · split <;> omega
  rw [decodeFrom_ofNat_cons _ (by omega), step, hstart, List.nil_append,
    decodeFrom_within hwithin.1 hwithin.2 (by omega),
    decodeFrom_last (by omega) (by omega) (by omega), hbits]

theorem decodeFrom_four {v : Nat} (hlow : 0x10000 ≤ v) (hhigh : v < 0x110000) :
  decodeFrom .ready (UInt8.ofNat (v / 0x40000 % 0x08 + 0xF0)
      :: UInt8.ofNat (v / 0x1000 % 0x40 + 0x80) :: UInt8.ofNat (v / 0x40 % 0x40 + 0x80)
      :: UInt8.ofNat (v % 0x40 + 0x80) :: rest)
    = some (Char.ofNat v) :: decodeFrom .ready rest
  := by
  have hbits : 64 * (64 * (64 * (v / 0x40000 % 0x08) + v / 0x1000 % 0x40) + v / 0x40 % 0x40)
      + v % 0x40 = v := by
    omega
  obtain ⟨low, high, hstart, hlow', hhigh'⟩ :=
    exists_start_four (show v / 0x40000 % 0x08 < 5 by omega)
  have hwithin : low ≤ v / 0x1000 % 0x40 + 0x80 ∧ v / 0x1000 % 0x40 + 0x80 ≤ high := by
    rw [hlow', hhigh']
    constructor
    · split <;> omega
    · split <;> omega
  rw [decodeFrom_ofNat_cons _ (by omega), step, hstart, List.nil_append,
    decodeFrom_within hwithin.1 hwithin.2 (by omega),
    decodeFrom_within (by omega) (by omega) (by omega),
    decodeFrom_last (by omega) (by omega) (by omega), hbits]

/-- The bytes of a character are read as that character, whatever bytes follow. -/
theorem decodeFrom_encodeChar (c : Char) (rest : Bytes) :
  decodeFrom .ready (String.utf8EncodeChar c ++ rest) = some c :: decodeFrom .ready rest
  := by
  have hvalid : c.val.toNat < 0xD800 ∨ 0xDFFF < c.val.toNat ∧ c.val.toNat < 0x110000 := c.valid
  have hofNat : Char.ofNat c.val.toNat = c := Char.ofNat_toNat c
  rw [String.utf8EncodeChar]
  generalize c.val.toNat = v at hvalid hofNat
  subst hofNat
  split
  · exact decodeFrom_one (by omega)
  · split
    · exact decodeFrom_two (by omega) (by omega)
    · split
      · exact decodeFrom_three (by omega) (by omega) (by omega)
      · exact decodeFrom_four (by omega) (by omega)

/-! ### Texts -/

theorem encode_cons (c : Char) (t : Text) :
  encode (c :: t) = String.utf8EncodeChar c ++ encode t
  := List.flatMap_cons

/-- The bytes of a text are read as its characters. -/
theorem decode_encode (t : Text) :
  decode (encode t) = t.map some
  := by
  induction t with
  | nil => rfl
  | cons c t ih =>
      rw [encode_cons, decode, decodeFrom_encodeChar, List.map_cons, ← ih, decode]

/-- The bytes of a text are well formed, and its text is that text. -/
theorem decode?_encode (t : Text) :
  decode? (encode t) = some t
  := by
  rw [decode?, decode_encode]
  induction t with
  | nil => rfl
  | cons c t ih =>
      rw [List.map_cons, List.mapM_cons, ih]
      rfl

end TagNavigator.Utf8
