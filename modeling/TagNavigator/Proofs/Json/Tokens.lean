import TagNavigator.Proofs.Json.Numbers
import TagNavigator.Proofs.Json.Strings

/-!
# Tokens of printed values

Cutting a printed value into tokens gives the tokens of the value (`lexes_printIndented`).  A number
is cut off only where something follows that cannot belong to it, which is so after every value that
is printed inside another.
-/

namespace TagNavigator.Json

variable {t u rest : Text} {ts us : List Token} {c : Char}

/-! ### Cutting off tokens -/

/-- Whatever follows, the text is cut into the tokens. -/
def CutsInto (t : Text) (ts : List Token) : Prop :=
  ∀ rest, tokenizeFrom 0 (t ++ rest) = (tokenizeFrom 0 rest).map (ts ++ ·)

/-- The text is cut into the tokens, unless the last one is a number that goes on. -/
def Lexes (t : Text) (ts : List Token) : Prop :=
  ∀ rest, EndsNumber rest → tokenizeFrom 0 (t ++ rest) = (tokenizeFrom 0 rest).map (ts ++ ·)

theorem CutsInto.lexes (h : CutsInto t ts) :
  Lexes t ts
  := fun rest _ => h rest

theorem cutsInto_nil :
  CutsInto [] []
  := by
  intro rest
  exact Option.map_id'.symm

theorem CutsInto.append (h : CutsInto t ts) (h' : CutsInto u us) :
  CutsInto (t ++ u) (ts ++ us)
  := by
  intro rest
  rw [List.append_assoc, h, h', Option.map_map]
  simp only [Function.comp_def, List.append_assoc]

theorem CutsInto.append_lexes (h : CutsInto t ts) (h' : Lexes u us) :
  Lexes (t ++ u) (ts ++ us)
  := by
  intro rest hrest
  rw [List.append_assoc, h, h' rest hrest, Option.map_map]
  simp only [Function.comp_def, List.append_assoc]

theorem Lexes.append (h : Lexes t ts) (h' : CutsInto (c :: u) us) (hc : EndsNumber [c]) :
  CutsInto (t ++ c :: u) (ts ++ us)
  := by
  intro rest
  have hends : EndsNumber (c :: u ++ rest) := hc
  rw [List.append_assoc, h _ hends, h', Option.map_map]
  simp only [Function.comp_def, List.append_assoc]

theorem tokenizeFrom_length_append (t rest : Text) :
  tokenizeFrom t.length (t ++ rest) = tokenizeFrom 0 rest
  := by
  induction t with
  | nil => rfl
  | cons c t ih => exact ih

theorem tokenizeFrom_space (hc : isSpace c = true) :
  tokenizeFrom 0 (c :: t) = tokenizeFrom 0 t
  := by
  rw [tokenizeFrom, if_pos hc]

theorem cutsInto_replicate (n : Nat) :
  CutsInto (List.replicate n ' ') []
  := by
  induction n with
  | zero => exact cutsInto_nil
  | succ n ih =>
      intro rest
      rw [List.replicate_succ, List.cons_append, tokenizeFrom_space rfl, ih]

theorem cutsInto_lineBreak (depth : Nat) :
  CutsInto (lineBreak depth) []
  := by
  intro rest
  rw [lineBreak, List.cons_append, tokenizeFrom_space rfl, cutsInto_replicate]

/-- A text that is one token is cut off. -/
theorem tokenizeFrom_token {token : Token} (hc : isSpace c = false)
    (h : tokenAt? c (t ++ rest) = some (token, t.length)) :
  tokenizeFrom 0 (c :: t ++ rest) = (tokenizeFrom 0 rest).map ([token] ++ ·)
  := by
  rw [List.cons_append, tokenizeFrom, hc, if_neg Bool.false_ne_true, h]
  dsimp only
  rw [tokenizeFrom_length_append]
  rfl

theorem cutsInto_of_tokenAt? {token : Token} (hc : isSpace c = false)
    (h : ∀ rest, tokenAt? c (t ++ rest) = some (token, t.length)) :
  CutsInto (c :: t) [token]
  := fun rest => tokenizeFrom_token hc (h rest)

/-! ### Scalars -/

theorem cutsInto_null :
  CutsInto "null".toList [.scalar .null]
  := cutsInto_of_tokenAt? rfl fun _ => rfl

theorem cutsInto_bool (b : Bool) :
  CutsInto (if b then "true" else "false").toList [.scalar (.bool b)]
  := by
  cases b with
  | false => exact cutsInto_of_tokenAt? rfl fun _ => rfl
  | true => exact cutsInto_of_tokenAt? rfl fun _ => rfl

theorem ne_of_isDigit {d : Char} (hc : c.isDigit = true) (hd : d.isDigit = false) :
  c ≠ d
  := by
  rintro rfl
  rw [hc] at hd
  contradiction

/-- A numeral starts with a digit, or with a minus sign and a digit. -/
theorem Numeral.text_eq_cons {m : Numeral} (hm : m.WellFormed) :
  ∃ c u, m.text = c :: u ∧ (c.isDigit = true ∨ c = '-' ∧ ∃ d v, u = d :: v ∧ d.isDigit = true)
  := by
  obtain ⟨d, v, hwhole, hd⟩ := exists_whole_eq_cons hm
  rw [text, hwhole]
  cases m.negative with
  | false => exact ⟨d, _, rfl, .inl hd⟩
  | true => exact ⟨'-', _, rfl, .inr ⟨rfl, d, _, rfl, hd⟩⟩

theorem head?_literals :
  ∀ l ∈ literals, ∃ d v, l.1 = d :: v ∧ d.isDigit = false
  := by
  simp [literals]

theorem tokenAt?_of_isDigit (hc : c.isDigit = true) :
  tokenAt? c t = (scanNumber? (c :: t)).map fun r => (.scalar r.1, r.2 - 1)
  := by
  have hliterals : literals.find? (fun l => l.1.isPrefixOf (c :: t)) = none := by
    apply List.find?_eq_none.mpr
    intro l hl
    obtain ⟨d, v, hd, hdigit⟩ := head?_literals l hl
    have hne : (d == c) = false := beq_false_of_ne (ne_of_isDigit hc hdigit).symm
    rw [hd, List.isPrefixOf_cons_cons, hne]
    exact Bool.false_ne_true
  rw [tokenAt?]
  · rw [hliterals]
  all_goals exact ne_of_isDigit hc rfl

theorem tokenAt?_minus (hc : c.isDigit = true) :
  tokenAt? '-' (c :: t) = (scanNumber? ('-' :: c :: t)).map fun r => (.scalar r.1, r.2 - 1)
  := by
  have hne : 'I' ≠ c := (ne_of_isDigit hc rfl).symm
  have hliterals : literals.find? (fun l => l.1.isPrefixOf ('-' :: c :: t)) = none := by
    simp [literals, hne]
  rw [tokenAt?]
  · rw [hliterals]
  all_goals decide

theorem lexes_numeral {m : Numeral} {j : Json} (hm : m.WellFormed) (hj : m.value? = some j) :
  Lexes m.text [.scalar j]
  := by
  intro rest hrest
  have hscan := Numeral.scanNumber?_text hm hrest
  obtain ⟨c, u, htext, hstart⟩ := Numeral.text_eq_cons hm
  rw [hj, htext] at hscan
  have htoken : tokenAt? c (u ++ rest) = some (.scalar j, u.length) := by
    rcases hstart with hc | ⟨rfl, d, v, rfl, hd⟩
    · rw [tokenAt?_of_isDigit hc, ← List.cons_append, hscan]
      rfl
    · rw [List.cons_append, tokenAt?_minus hd, ← List.cons_append, ← List.cons_append, hscan]
      rfl
  have hspace : isSpace c = false := by
    rcases hstart with hc | ⟨rfl, -⟩
    · simp [isSpace, ne_of_isDigit hc]
    · rfl
  rw [htext]
  exact tokenizeFrom_token hspace htoken

theorem lexes_int {n : Int} (hn : IsShort n) :
  Lexes (Text.ofInt n) [.scalar (.int n)]
  := by
  rw [← text_numeralOf]
  exact lexes_numeral (numeralOf_wellFormed n) (value?_numeralOf hn)

theorem lexes_float (x : Binary64) :
  Lexes (printFloat x) [.scalar (.float (reread x))]
  := by
  cases x with
  | nan => exact (cutsInto_of_tokenAt? rfl fun _ => rfl).lexes
  | infinite negative =>
      cases negative with
      | false => exact (cutsInto_of_tokenAt? rfl fun _ => rfl).lexes
      | true => exact (cutsInto_of_tokenAt? rfl fun _ => rfl).lexes
  | finite negative m e =>
      obtain ⟨n, hn, hvalue, htext⟩ := exists_numeral_value? negative m e
      rw [htext]
      exact lexes_numeral hn hvalue

/-! ### Strings -/

theorem cutsInto_printString {s : JsonString} (hs : Joined s) :
  CutsInto (printString s) [.string s]
  := by
  have hprint : printString s = '"' :: (s.flatMap printCodePoint ++ ['"']) := rfl
  rw [hprint]
  apply cutsInto_of_tokenAt? rfl
  intro rest
  rw [List.append_assoc, List.singleton_append, tokenAt?, scanString?_quoted hs.lt, Option.map_some,
    joinSurrogates_codeUnits hs, List.length_append, List.length_singleton]

/-! ### Values -/

mutual

/-- The tokens of a value. -/
def tokensOf : Json → List Token
  | .null => [.scalar .null]
  | .bool b => [.scalar (.bool b)]
  | .int n => [.scalar (.int n)]
  | .float x => [.scalar (.float (reread x))]
  | .string s => [.string s]
  | .array items => .bracketOpen :: [Token.comma].intercalate (itemTokens items) ++ [.bracketClose]
  | .object fields => .braceOpen :: [Token.comma].intercalate (fieldTokens fields) ++ [.braceClose]

/-- The tokens of the items of an array. -/
def itemTokens : List Json → List (List Token)
  | [] => []
  | j :: rest => tokensOf j :: itemTokens rest

/-- The tokens of the fields of an object. -/
def fieldTokens : List (JsonString × Json) → List (List Token)
  | [] => []
  | (name, j) :: rest => (.string name :: .colon :: tokensOf j) :: fieldTokens rest

end

/-- A value that is read back from inside containers of which `room` more may be open: its strings
have no halves of a surrogate pair one after the other, its integers not too many digits, and its
objects one value for each name. -/
inductive Sound : (room : Nat) → Json → Prop
  | null {room : Nat} : Sound room .null
  | bool {room : Nat} (b : Bool) : Sound room (.bool b)
  | int {room : Nat} {n : Int} (h : IsShort n) : Sound room (.int n)
  | float {room : Nat} (x : Binary64) : Sound room (.float x)
  | string {room : Nat} {s : JsonString} (h : Joined s) : Sound room (.string s)
  | array {room : Nat} {items : List Json} (h : ∀ j ∈ items, Sound room j) :
    Sound (room + 1) (.array items)
  | object {room : Nat} {fields : List (JsonString × Json)} (names : (fields.map Prod.fst).Nodup)
    (joined : ∀ f ∈ fields, Joined f.1) (h : ∀ f ∈ fields, Sound room f.2) :
    Sound (room + 1) (.object fields)

theorem itemTokens_eq_map (items : List Json) :
  itemTokens items = items.map tokensOf
  := by
  induction items with
  | nil => rfl
  | cons j items ih => rw [itemTokens, ih, List.map_cons]

theorem fieldTokens_eq_map (fields : List (JsonString × Json)) :
  fieldTokens fields = fields.map fun f => .string f.1 :: .colon :: tokensOf f.2
  := by
  induction fields with
  | nil => rfl
  | cons f fields ih =>
      obtain ⟨name, j⟩ := f
      rw [fieldTokens, ih, List.map_cons]

theorem indentedItems_eq_map (depth : Nat) (items : List Json) :
  indentedItems depth items = items.map fun j => lineBreak depth ++ printIndented depth j
  := by
  induction items with
  | nil => rfl
  | cons j items ih => rw [indentedItems, ih, List.map_cons]

theorem indentedFields_eq_map (depth : Nat) (fields : List (JsonString × Json)) :
  indentedFields depth fields
    = fields.map fun f =>
      lineBreak depth ++ printString f.1 ++ [':', ' '] ++ printIndented depth f.2
  := by
  induction fields with
  | nil => rfl
  | cons f fields ih =>
      obtain ⟨name, j⟩ := f
      rw [indentedFields, ih, List.map_cons]

theorem cutsInto_comma :
  CutsInto [','] [.comma]
  := cutsInto_of_tokenAt? rfl fun _ => rfl

theorem endsNumber_singleton (hc : c.isDigit = false ∧ c ≠ '.' ∧ c ≠ 'e' ∧ c ≠ 'E') :
  EndsNumber [c]
  := by
  intro d hd
  obtain rfl := Option.some.inj hd
  exact hc

/-- Parts with commas between them. -/
theorem lexes_join {α : Type} {parts : List α} {text : α → Text} {tokens : α → List Token}
    (h : ∀ x ∈ parts, Lexes (text x) (tokens x)) :
  Lexes (Text.join [','] (parts.map text)) ([Token.comma].intercalate (parts.map tokens))
  := by
  rw [Text.join]
  induction parts with
  | nil => exact cutsInto_nil.lexes
  | cons x parts ih =>
      cases parts with
      | nil =>
          rw [List.map_singleton, List.map_singleton, List.intercalate_singleton,
            List.intercalate_singleton]
          exact h x List.mem_cons_self
      | cons y parts =>
          have hrest := ih fun z hz => h z (List.mem_cons_of_mem x hz)
          have hfirst := (h x List.mem_cons_self).append cutsInto_comma
            (endsNumber_singleton (by decide))
          simp only [List.map_cons, List.intercalate_cons_cons]
          exact hfirst.append_lexes hrest

/-- An array or an object with its items or fields on lines of their own. -/
theorem cutsInto_lines {α : Type} {parts : List α} {text : α → Text} {tokens : α → List Token}
    {first last : Char} {opening closing : Token} {depth : Nat}
    (h : ∀ x ∈ parts, Lexes (text x) (tokens x)) (hfirst : CutsInto [first] [opening])
    (hlast : CutsInto [last] [closing]) :
  CutsInto (first :: Text.join [','] (parts.map text) ++ lineBreak depth ++ [last])
    (opening :: [Token.comma].intercalate (parts.map tokens) ++ [closing])
  := by
  have hend := (cutsInto_lineBreak depth).append hlast
  have hbody := (lexes_join h).append hend (endsNumber_singleton (by decide))
  have hall := hfirst.append hbody
  simpa [lineBreak] using hall

/-- A field on a line of its own. -/
theorem lexes_field {name : JsonString} {ts : List Token} (hname : Joined name) (h : Lexes t ts)
    (depth : Nat) :
  Lexes (lineBreak depth ++ printString name ++ [':', ' '] ++ t) (.string name :: .colon :: ts)
  := by
  have hmark : CutsInto [':'] [.colon] := cutsInto_of_tokenAt? rfl fun _ => rfl
  have hcolon : CutsInto [':', ' '] [.colon] := hmark.append (cutsInto_replicate 1)
  exact (((cutsInto_lineBreak depth).append (cutsInto_printString hname)).append
    hcolon).append_lexes h

/-- Cutting a printed value into tokens gives the tokens of the value. -/
theorem lexes_printIndented {j : Json} {room : Nat} (h : Sound room j) (depth : Nat) :
  Lexes (printIndented depth j) (tokensOf j)
  := by
  induction h generalizing depth with
  | null => exact cutsInto_null.lexes
  | bool b => exact (cutsInto_bool b).lexes
  | int h => exact lexes_int h
  | float x => exact lexes_float x
  | string h => exact (cutsInto_printString h).lexes
  | @array room items h ih =>
      have hopen : CutsInto ['['] [.bracketOpen] := cutsInto_of_tokenAt? rfl fun _ => rfl
      have hclose : CutsInto [']'] [.bracketClose] := cutsInto_of_tokenAt? rfl fun _ => rfl
      rw [tokensOf, itemTokens_eq_map]
      cases items with
      | nil => exact (hopen.append hclose).lexes
      | cons j items =>
          rw [printIndented, indentedItems_eq_map]
          apply (cutsInto_lines _ hopen hclose).lexes
          intro k hk
          exact (cutsInto_lineBreak (depth + 1)).append_lexes (ih k hk (depth + 1))
  | @object room fields names joined h ih =>
      have hopen : CutsInto ['{'] [.braceOpen] := cutsInto_of_tokenAt? rfl fun _ => rfl
      have hclose : CutsInto ['}'] [.braceClose] := cutsInto_of_tokenAt? rfl fun _ => rfl
      rw [tokensOf, fieldTokens_eq_map]
      cases fields with
      | nil => exact (hopen.append hclose).lexes
      | cons f fields =>
          rw [printIndented, indentedFields_eq_map]
          apply (cutsInto_lines _ hopen hclose).lexes
          intro g hg
          exact lexes_field (joined g hg) (ih g hg (depth + 1)) (depth + 1)

end TagNavigator.Json
