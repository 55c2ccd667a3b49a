import TagNavigator.Proofs.Text.Blank
import TagNavigator.Proofs.Text.Digit
import TagNavigator.Search.LineAddress

/-!
# Addresses of lines

Which texts name a line, and which one.  `LineCommand` is the grammar: an address, after a colon and
blanks or alone.  As long as no row of digits is longer than what is read as a number, a command of
the grammar is resolved to the line that it names, moved into the buffer (`resolve_of_lineCommand`),
and any other text to none (`resolve_of_not_lineCommand`).
-/

namespace TagNavigator.LineAddress

open Text (Numeral isBlank isDigit)

/-- The text is the address of a line, as seen from the line `current` of a buffer of `count` lines.
The line need not be in the buffer. -/
inductive Address (current count : Int) : Text → Int → Prop
  | here : Address current count [] current
  | number {t n} (h : Numeral t n) : Address current count t n
  | last : Address current count ['$'] count
  | down {t n} (h : Numeral t n) : Address current count ('+' :: t) (current + n)
  | up {t n} (h : Numeral t n) : Address current count ('-' :: t) (current - n)
  | next : Address current count ['+'] (current + 1)
  | previous : Address current count ['-'] (current - 1)

/-- The text is a line command, an address that a colon and blanks may precede, for the line. -/
def LineCommand (current count : Int) (t : Text) (line : Int) : Prop :=
  ∃ colon blanks address, t = colon ++ blanks ++ address ∧ (colon = [] ∨ colon = [':'])
    ∧ (∀ c ∈ blanks, isBlank c = true) ∧ Address current count address line

/-- No row of digits in the text is too long to be read as a number. -/
def Short (t : Text) : Prop :=
  ∀ row, row <:+: t → (∀ c ∈ row, isDigit c = true) → row.length ≤ 4300

variable {current count line : Int} {t u : Text}

theorem Short.of_isInfix (h : Short t) (hu : u <:+: t) :
  Short u
  := fun row hrow hdigits => h row (hrow.trans hu) hdigits

theorem Short.readDigits_eq (h : Short t) (hdigits : ∀ c ∈ t, isDigit c = true) :
  Text.readDigits t = .ok (Text.valueOfDigits t)
  := Text.readDigits_of_le (h t (List.infix_refl t) hdigits)

/-! ### Addresses -/

theorem Address.head (h : Address current count t line) :
  ∀ c ∈ t.head?, isBlank c = false ∧ c ≠ ':'
  := by
  have hnumber {t n} (h : Numeral t n) : ∀ c ∈ t.head?, isBlank c = false ∧ c ≠ ':' := by
    intro c hc
    have hdigit := (Text.numeral_iff.mp h).2.1 c (List.mem_of_mem_head? hc)
    refine ⟨Text.not_isBlank_of_isDigit hdigit, ?_⟩
    rintro rfl
    exact absurd hdigit (by decide)
  cases h with
  | here => nofun
  | number h => exact hnumber h
  | last | down | up | next | previous =>
      rintro c ⟨⟩
      decide

theorem address_nil_iff :
  Address current count [] line ↔ line = current
  := by
  constructor
  · rintro (_ | ⟨⟨hne, -⟩⟩)
    · rfl
    · exact absurd rfl hne
  · rintro rfl
    exact .here

theorem not_numeral_cons {c : Char} (hc : isDigit c = false) (t : Text) (n : Nat) :
  ¬ Numeral (c :: t) n
  := by
  intro h
  have hdigit := (Text.numeral_iff.mp h).2.1 c List.mem_cons_self
  rw [hc] at hdigit
  cases hdigit

theorem address_dollar_iff :
  Address current count ['$'] line ↔ line = count
  := by
  constructor
  · rintro (_ | h | _)
    · exact absurd h (not_numeral_cons (by decide) _ _)
    · rfl
  · rintro rfl
    exact .last

/-- What follows a sign writes a distance: one if it is empty. -/
def Distance (t : Text) (n : Nat) : Prop :=
  (t = [] ∧ n = 1) ∨ Numeral t n

theorem Distance.unique {n m : Nat} (hn : Distance t n) (hm : Distance t m) :
  n = m
  := by
  rcases hn with ⟨rfl, rfl⟩ | hn
  · rcases hm with ⟨-, rfl⟩ | hm
    · rfl
    · exact absurd rfl hm.ne_nil
  · rcases hm with ⟨rfl, rfl⟩ | hm
    · exact absurd rfl hn.ne_nil
    · exact (Text.numeral_iff.mp hn).2.2.symm.trans (Text.numeral_iff.mp hm).2.2

theorem address_plus_iff {n : Nat} (hn : Distance t n) :
  Address current count ('+' :: t) line ↔ line = current + n
  := by
  constructor
  · rintro (_ | h | _ | h)
    · exact absurd h (not_numeral_cons (by decide) _ _)
    · rw [hn.unique (.inr h)]
    · rw [hn.unique (.inl ⟨rfl, rfl⟩)]
      rfl
  · rintro rfl
    rcases hn with ⟨rfl, rfl⟩ | hn
    · exact .next
    · exact .down hn

theorem address_minus_iff {n : Nat} (hn : Distance t n) :
  Address current count ('-' :: t) line ↔ line = current - n
  := by
  constructor
  · rintro (_ | h | _ | _ | h)
    · exact absurd h (not_numeral_cons (by decide) _ _)
    · rw [hn.unique (.inr h)]
    · rw [hn.unique (.inl ⟨rfl, rfl⟩)]
      rfl
  · rintro rfl
    rcases hn with ⟨rfl, rfl⟩ | hn
    · exact .previous
    · exact .up hn

/-- Other texts are addresses only if they are numbers. -/
theorem address_cons_iff {c : Char} (hdollar : c = '$' → t = [] → False)
    (hplus : ¬ (c = '+' ∧ ∀ d ∈ t, isDigit d = true))
    (hminus : ¬ (c = '-' ∧ ∀ d ∈ t, isDigit d = true)) :
  Address current count (c :: t) line ↔ ∃ n : Nat, Numeral (c :: t) n ∧ line = n
  := by
  constructor
  · rintro (_ | h | _ | h | h)
    · exact ⟨_, h, rfl⟩
    · exact (hdollar rfl rfl).elim
    · exact absurd ⟨rfl, (Text.numeral_iff.mp h).2.1⟩ hplus
    · exact absurd ⟨rfl, (Text.numeral_iff.mp h).2.1⟩ hminus
    · exact absurd ⟨rfl, nofun⟩ hplus
    · exact absurd ⟨rfl, nofun⟩ hminus
  · rintro ⟨n, h, rfl⟩
    exact .number h

/-! ### Reading an address -/

theorem readDistance_eq (hshort : Short t) (hdigits : ∀ c ∈ t, isDigit c = true) :
  ∃ n : Nat, readDistance t = .ok n ∧ Distance t n
  := by
  rw [readDistance]
  cases t with
  | nil => exact ⟨1, rfl, .inl ⟨rfl, rfl⟩⟩
  | cons c t =>
      refine ⟨_, hshort.readDigits_eq hdigits, .inr ?_⟩
      exact Text.numeral_iff.mpr ⟨List.cons_ne_nil c t, hdigits, rfl⟩

/-- What is read is the address that the text is, if it is one. -/
theorem read_spec (hshort : Short t) :
  ∃ address, read t = .ok address ∧ ∀ current count line,
    Address current count t line ↔ ∃ a, address = some a ∧ a.target current count = line
  := by
  -- One case for each branch of `read`: the equivalence shows that no other form fits the text.
  unfold read
  split
  · refine ⟨_, rfl, fun current count line => ?_⟩
    rw [address_nil_iff]
    simp [target, eq_comm]
  · refine ⟨_, rfl, fun current count line => ?_⟩
    rw [address_dollar_iff]
    simp [target, eq_comm]
  · rename_i c digits hdollar
    have hrest : Short digits := hshort.of_isInfix (List.suffix_cons c digits).isInfix
    simp only [Bool.and_eq_true, decide_eq_true_eq, List.all_eq_true]
    split
    next hplus =>
      obtain ⟨rfl, hdigits⟩ := hplus
      obtain ⟨n, hn, hdistance⟩ := readDistance_eq hrest hdigits
      refine ⟨some (.relative n), by rw [hn]; rfl, fun current count line => ?_⟩
      rw [address_plus_iff hdistance]
      simp [target, eq_comm]
    next hplus =>
      split
      next hminus =>
        obtain ⟨rfl, hdigits⟩ := hminus
        obtain ⟨n, hn, hdistance⟩ := readDistance_eq hrest hdigits
        refine ⟨some (.relative (-n)), by rw [hn]; rfl, fun current count line => ?_⟩
        rw [address_minus_iff hdistance]
        simp [target, eq_comm, Int.sub_eq_add_neg]
      next hminus =>
        split
        next hdigits =>
          refine ⟨some (.absolute _), by rw [hshort.readDigits_eq hdigits]; rfl, ?_⟩
          intro current count line
          rw [address_cons_iff hdollar hplus hminus]
          constructor
          · rintro ⟨n, h, rfl⟩
            obtain ⟨-, -, rfl⟩ := Text.numeral_iff.mp h
            exact ⟨_, rfl, rfl⟩
          · rintro ⟨_, ⟨⟩, rfl⟩
            exact ⟨_, Text.numeral_iff.mpr ⟨List.cons_ne_nil c digits, hdigits, rfl⟩, rfl⟩
        next hdigits =>
          refine ⟨none, rfl, ?_⟩
          intro current count line
          rw [address_cons_iff hdollar hplus hminus]
          refine iff_of_false ?_ nofun
          rintro ⟨n, h, -⟩
          exact hdigits (Text.numeral_iff.mp h).2.1

/-! ### Line commands -/

theorem lineCommand_colon_iff :
  LineCommand current count (':' :: t) line ↔ Address current count (t.dropWhile isBlank) line
  := by
  constructor
  · rintro ⟨colon, blanks, address, heq, rfl | rfl, hblanks, haddress⟩
    · cases blanks with
      | nil =>
          obtain rfl : ':' :: t = address := heq
          exact absurd rfl (haddress.head ':' rfl).2
      | cons b blanks =>
          obtain ⟨rfl, -⟩ := List.cons.inj heq
          exact absurd (hblanks ':' List.mem_cons_self) (by decide)
    · obtain ⟨-, rfl⟩ := List.cons.inj heq
      change Address current count ((blanks ++ address).dropWhile isBlank) line
      rw [List.dropWhile_append_of_pos hblanks,
        Text.dropWhile_eq_self fun c hc => (haddress.head c hc).1]
      exact haddress
  · intro h
    refine ⟨[':'], t.takeWhile isBlank, _, ?_, .inr rfl, ?_, h⟩
    · rw [List.append_assoc, List.takeWhile_append_dropWhile]
      rfl
    · exact List.all_eq_true.mp List.all_takeWhile

theorem lineCommand_iff_of_head (hhead : ∀ c ∈ t.head?, isBlank c = false ∧ c ≠ ':') :
  LineCommand current count t line ↔ Address current count t line
  := by
  constructor
  · rintro ⟨colon, blanks, address, rfl, rfl | rfl, hblanks, haddress⟩
    · cases blanks with
      | nil => exact haddress
      | cons b blanks =>
          have hblank := hblanks b List.mem_cons_self
          rw [(hhead b rfl).1] at hblank
          cases hblank
    · exact absurd rfl (hhead ':' rfl).2
  · intro h
    exact ⟨[], [], t, rfl, .inl rfl, nofun, h⟩

/-- The address of a line command is the one that its text, without blanks around it, has by the
grammar. -/
theorem ofCommand_spec (hshort : Short (Text.trim u)) :
  ∃ address, ofCommand u = .ok address ∧ ∀ current count line,
    LineCommand current count (Text.trim u) line
      ↔ ∃ a, address = some a ∧ a.target current count = line
  := by
  have hblank : ∀ c ∈ (Text.trim u).head?, isBlank c = false :=
    fun c hc => Text.not_head_trimBy hc
  rw [ofCommand]
  split
  next t ht =>
    rw [ht] at hshort
    have hrest : t.dropWhile isBlank <:+: ':' :: t :=
      ((List.dropWhile_suffix isBlank).trans (List.suffix_cons ':' t)).isInfix
    obtain ⟨address, hread, hspec⟩ := read_spec (hshort.of_isInfix hrest)
    refine ⟨address, hread, fun current count line => ?_⟩
    rw [ht, lineCommand_colon_iff, hspec]
  next hcolon =>
    obtain ⟨address, hread, hspec⟩ := read_spec hshort
    refine ⟨address, hread, fun current count line => ?_⟩
    rw [lineCommand_iff_of_head, hspec]
    intro c hc
    refine ⟨hblank c hc, ?_⟩
    rintro rfl
    obtain ⟨rest, hrest⟩ := List.head?_eq_some_iff.mp hc
    exact hcolon rest hrest

theorem resolve_of_lineCommand (hshort : Short (Text.trim u)) (hcount : 1 ≤ count)
    (h : LineCommand current count (Text.trim u) line) :
  resolve u current count = .ok (some (min (max 1 line) count))
  := by
  obtain ⟨address, hread, hspec⟩ := ofCommand_spec hshort
  obtain ⟨a, rfl, rfl⟩ := (hspec current count line).mp h
  rw [resolve, hread, max_eq_right hcount]
  rfl

theorem resolve_of_not_lineCommand (hshort : Short (Text.trim u))
    (h : ∀ line, ¬ LineCommand current count (Text.trim u) line) :
  resolve u current count = .ok none
  := by
  obtain ⟨address, hread, hspec⟩ := ofCommand_spec hshort
  cases address with
  | none =>
      rw [resolve, hread]
      rfl
  | some a => exact absurd ((hspec current count _).mpr ⟨a, rfl, rfl⟩) (h _)

end TagNavigator.LineAddress
