import Mathlib.Data.List.Induction
import TagNavigator.Proofs.Pattern.Spelling
import TagNavigator.Proofs.Tag.WrittenCommand

/-!
# Search commands in the two spellings

The search pattern of a record is made for the spelling that is in use: in the magic one the
characters that would be operators carry a backslash, in the other one they are bare.  Either way
the record is searched for by the same regular expression (`source_ofField`), unless its field holds
a backslash before an operator or a bar, which is copied and does not mean the same in both
spellings.
-/

namespace TagNavigator

namespace Pattern

/-- Two texts that spell the same pattern without groups, branches and operators, the first in the
magic spelling and the second in the other one.  A caret, or a character that is an operator in the
magic spelling, carries a backslash in the first text and is bare in the second. -/
inductive Twins : Text → Text → Prop where
  | nil : Twins [] []
  | lone : Twins ['\\'] ['\\']
  | pair {c : Char} {m n : Text} (hc : c ∉ ['(', '|', '.', '*', '[']) (h : Twins m n) :
    Twins ('\\' :: c :: m) ('\\' :: c :: n)
  | bare {c : Char} {m n : Text} (hquote : c ≠ '\\') (hc : TagCommand.isMagic c = false)
    (h : Twins m n) : Twins (c :: m) (c :: n)
  | magic {c : Char} {m n : Text} (hc : TagCommand.isMagic c = true) (h : Twins m n) :
    Twins ('\\' :: c :: m) (c :: n)

variable {c : Char} {m n : Text}

theorem isOperator_of_not_isMagic (h : TagCommand.isMagic c = false) :
  isOperator c = false
  := by
  simp only [TagCommand.isMagic, Bool.or_eq_false_iff] at h
  simp [isOperator, h]

theorem eq_of_isMagic (h : TagCommand.isMagic c = true) :
  c = '^' ∨ isOperator c = true
  := by
  simp only [TagCommand.isMagic, Bool.or_eq_true, beq_iff_eq] at h
  rcases h with ((rfl | rfl) | rfl) | rfl
  · exact .inr rfl
  · exact .inl rfl
  · exact .inr rfl
  · exact .inr rfl

theorem Twins.closesHere_eq (h : Twins m n) :
  closesHere n = closesHere m
  := by
  cases h with
  | nil => rfl
  | lone => rfl
  | pair hc h => rfl
  | bare hquote hc h => rw [closesHere_cons hquote, closesHere_cons hquote]
  | magic hc h =>
      rcases eq_of_isMagic hc with rfl | hop
      · rfl
      · obtain rfl | rfl | rfl := eq_of_isOperator hop
        all_goals rfl

/-- Where an atom stands does not matter for the start of a branch after it. -/
theorem startsBranch_after (a : Atom) (prev : Option Atom) :
  startsBranch (some (a.after prev)) = startsBranch (some a)
  := by
  cases a with
  | star =>
      rw [Atom.after]
      split <;> rfl
  | caret =>
      rw [Atom.after]
      split <;> rfl
  | dollar closes => cases closes <;> rfl
  | _ => rfl

theorem startsBranch_escapedAtom (magic : Bool) (hopen : c ≠ '(') (hbar : c ≠ '|') :
  startsBranch (some (escapedAtom magic c)) = false
  := by
  unfold escapedAtom
  split
  · contradiction
  · rfl
  · contradiction
  · rfl
  · rfl
  · rfl
  · cases magic <;> rfl
  · cases magic <;> rfl
  · rfl

theorem startsBranch_plainAtom (magic : Bool) (c : Char) (t : Text) :
  startsBranch (some (plainAtom magic c t)) = false
  := by
  unfold plainAtom
  cases magic <;> split <;> rfl

theorem settle_cons (prev : Option Atom) (a : Atom) (rest : List Atom) :
  settle prev (a :: rest) = a.after prev :: settle (some (a.after prev)) rest
  := rfl

/-- The twins are the same atoms, unless the second one has a caret where it is an operator. -/
theorem Twins.settle_readFrom (h : Twins m n) {prev : Option Atom}
    (hcaret : startsBranch prev = true → n.head? ≠ some '^') :
  settle prev (readFrom true 0 m) = settle prev (readFrom false 0 n)
  := by
  induction h generalizing prev with
  | nil => rfl
  | lone => rfl
  | @pair c m n hc h ih =>
      simp only [List.mem_cons, List.not_mem_nil, or_false, not_or] at hc
      obtain ⟨hopen, hbar, hdot, hstar, hbracket⟩ := hc
      have hop : isOperator c = false := by simp [isOperator, hdot, hstar, hbracket]
      have hnext : startsBranch (some ((escapedAtom true c).after prev)) = false := by
        rw [startsBranch_after, startsBranch_escapedAtom true hopen hbar]
      rw [readFrom_escaped (fun _ => rfl), readFrom_escaped (absurd · hbracket),
        escapedAtom_of_not_isOperator hop, settle_cons, settle_cons, ih]
      intro hstart
      exact absurd (hnext.symm.trans hstart) Bool.false_ne_true
  | @bare c m n hquote hc h ih =>
      have hop := isOperator_of_not_isMagic hc
      obtain ⟨-, -, hbracket⟩ := ne_of_not_isOperator hop
      have hnext : startsBranch (some ((plainAtom true c m).after prev)) = false := by
        rw [startsBranch_after, startsBranch_plainAtom]
      rw [readFrom_bare (absurd · hquote) (absurd · hbracket), readFrom_bare (absurd · hquote)
        (fun _ => rfl), plainAtom_of_not_isOperator hop h.closesHere_eq, settle_cons, settle_cons, ih]
      intro hstart
      exact absurd (hnext.symm.trans hstart) Bool.false_ne_true
  | @magic c m n hc h ih =>
      have hescaped : (escapedAtom true c).after prev = .char c := by
        rcases eq_of_isMagic hc with rfl | hop
        · rfl
        · rw [escapedAtom_of_isOperator hop]
          rfl
      have hplain : (plainAtom false c n).after prev = .char c := by
        rcases eq_of_isMagic hc with rfl | hop
        · have hinner : startsBranch prev = false := by
            rw [← Bool.not_eq_true]
            exact fun hstart => hcaret hstart rfl
          simp [plainAtom, Atom.after, hinner]
        · rw [plainAtom_of_isOperator hop]
          rfl
      have hquote : c ≠ '\\' := by
        rintro rfl
        contradiction
      rw [readFrom_escaped (fun _ => rfl), readFrom_bare (absurd · hquote) (fun _ => rfl),
        settle_cons, settle_cons, hescaped, hplain, ih]
      intro hstart
      exact absurd hstart Bool.false_ne_true

/-- Twins are written as the same regular expression, unless the second one starts with a caret. -/
theorem Twins.source_eq (h : Twins m n) (hcaret : n.head? ≠ some '^') :
  source true m = source false n
  := by
  rw [source, source, atoms, atoms, h.settle_readFrom (fun _ => hcaret)]

/-- After a caret at the start no caret is an operator. -/
theorem Twins.source_caret (h : Twins m n) :
  source true ('^' :: m) = source false ('^' :: n)
  := by
  have hnext : startsBranch (some (Atom.caret.after none)) = false := rfl
  rw [source, source, atoms, atoms, readFrom_caret, readFrom_caret, settle_cons, settle_cons,
    h.settle_readFrom]
  intro hstart
  exact absurd (hnext.symm.trans hstart) Bool.false_ne_true

end Pattern

namespace TagCommand

open Pattern (Twins eq_nil_of_not_pair)

variable {d c : Char} {t u : Text}

/-! ### The closing delimiter -/

/-- A pair at the start leaves it open whether an escape ends the text. -/
theorem backslashesAtEnd_pair (c : Char) (t : Text) :
  backslashesAtEnd ('\\' :: c :: t) % 2 = backslashesAtEnd t % 2
  := by
  induction t using List.reverseRecOn with
  | nil =>
      have hsplit : ['\\', c] = ['\\'] ++ [c] := rfl
      rw [hsplit]
      by_cases hc : c = '\\'
      · rw [hc, backslashesAtEnd_append_backslash]
        rfl
      · rw [backslashesAtEnd_append_of_ne hc]
        rfl
  | append_singleton t e ih =>
      rw [← List.cons_append, ← List.cons_append]
      by_cases he : e = '\\'
      · rw [he, backslashesAtEnd_append_backslash, backslashesAtEnd_append_backslash]
        omega
      · rw [backslashesAtEnd_append_of_ne he, backslashesAtEnd_append_of_ne he]

theorem backslashesAtEnd_bare (hc : c ≠ '\\') (t : Text) :
  backslashesAtEnd (c :: t) = backslashesAtEnd t
  := by
  induction t using List.reverseRecOn with
  | nil => exact backslashesAtEnd_append_of_ne hc []
  | append_singleton t e ih =>
      rw [← List.cons_append]
      by_cases he : e = '\\'
      · rw [he, backslashesAtEnd_append_backslash, backslashesAtEnd_append_backslash, ih]
      · rw [backslashesAtEnd_append_of_ne he, backslashesAtEnd_append_of_ne he]

theorem withoutClosing_pair (c : Char) (t : Text) :
  withoutClosing d ('\\' :: c :: t) = '\\' :: c :: withoutClosing d t
  := by
  rcases t.eq_nil_or_concat with rfl | ⟨t, e, rfl⟩
  · have hodd : ¬ (c = d ∧ backslashesAtEnd ['\\'] % 2 = 0) := by
      rintro ⟨-, h⟩
      contradiction
    have h := withoutClosing_append (d := d) ['\\'] c
    rwa [if_neg hodd] at h
  · rw [List.concat_eq_append, ← List.cons_append, ← List.cons_append, withoutClosing_append,
      withoutClosing_append, backslashesAtEnd_pair]
    split <;> rfl

theorem withoutClosing_bare (hc : c ≠ '\\') (t : Text) :
  withoutClosing d (c :: t) = if c = d ∧ t = [] then [] else c :: withoutClosing d t
  := by
  rcases t.eq_nil_or_concat with rfl | ⟨t, e, rfl⟩
  · have h := withoutClosing_append (d := d) [] c
    have hnil : withoutClosing d [] = [] := rfl
    simpa [backslashesAtEnd, hnil] using h
  · rw [List.concat_eq_append, ← List.cons_append, withoutClosing_append, withoutClosing_append,
      backslashesAtEnd_bare hc]
    split <;> simp

/-- The closing delimiter is dropped from both twins or from none. -/
theorem twins_withoutClosing (hd : isDelimiter d = true) {m n : Text} (h : Twins m n) :
  Twins (withoutClosing d m) (withoutClosing d n)
  := by
  induction h with
  | nil => exact .nil
  | lone =>
      have hlone : withoutClosing d ['\\'] = ['\\'] := by
        rcases eq_of_isDelimiter hd with rfl | rfl <;> rfl
      rw [hlone]
      exact .lone
  | pair hc h ih =>
      rw [withoutClosing_pair, withoutClosing_pair]
      exact .pair hc ih
  | @bare c m n hquote hc h ih =>
      have hnil : m = [] ↔ n = [] := by
        cases h <;> simp
      rw [withoutClosing_bare hquote, withoutClosing_bare hquote]
      by_cases hlast : c = d ∧ m = []
      · rw [if_pos hlast, if_pos ⟨hlast.1, hnil.mp hlast.2⟩]
        exact .nil
      · rw [if_neg hlast, if_neg fun h => hlast ⟨h.1, hnil.mpr h.2⟩]
        exact .bare hquote hc ih
  | @magic c m n hc h ih =>
      have hquote : c ≠ '\\' := by
        rintro rfl
        contradiction
      have hne : c ≠ d := by
        rintro rfl
        rcases eq_of_isDelimiter hd with rfl | rfl <;> contradiction
      rw [withoutClosing_pair, withoutClosing_bare hquote, if_neg (fun h => hne h.1)]
      exact .magic hc ih

/-! ### The search pattern -/

/-- The characters that a backslash precedes on the first line, read from left to right. -/
def escapedChars : Text → List Char
  | [] => []
  | '\\' :: c :: t => if Text.isLineEnd c then [] else c :: escapedChars t
  | c :: t => if Text.isLineEnd c then [] else escapedChars t

theorem escapedChars_pair (hend : Text.isLineEnd c = false) (t : Text) :
  escapedChars ('\\' :: c :: t) = c :: escapedChars t
  := by
  rw [escapedChars, hend]
  rfl

theorem escapedChars_bare (hc : c ≠ '\\') (hend : Text.isLineEnd c = false) (t : Text) :
  escapedChars (c :: t) = escapedChars t
  := by
  rw [escapedChars.eq_def]
  simp [hc, hend]

theorem searchTail_cons_lineEnd (magic : Bool) (hend : Text.isLineEnd c = true) (t : Text) :
  searchTail magic d (c :: t) = [d]
  := by
  have hc : c ≠ '\\' := by
    rintro rfl
    contradiction
  rw [searchTail.eq_def]
  simp [hc, hend]

/-- A backslash at the end of a line stays. -/
theorem searchTail_pair_lineEnd (magic : Bool) (hend : Text.isLineEnd c = true) (t : Text) :
  searchTail magic d ('\\' :: c :: t) = ['\\', d]
  := by
  have hc : c ≠ '(' := by
    rintro rfl
    contradiction
  rw [searchTail, if_neg hc, if_pos hend, searchTail_cons_lineEnd magic hend]

theorem searchTail_delimiter (hd : isDelimiter d = true) (magic : Bool) (t : Text) :
  searchTail magic d (d :: t)
    = if endsLine t then searchTail magic d t else '\\' :: d :: searchTail magic d t
  := by
  have hplain : d ≠ '\\' ∧ Text.isLineEnd d = false := by
    rcases eq_of_isDelimiter hd with rfl | rfl <;> decide
  rw [searchTail.eq_def]
  simp [hplain]

/-- The search patterns for a field in the two spellings are twins. -/
theorem twins_searchTail (hd : isDelimiter d = true)
    (h : ∀ c ∈ escapedChars t, c ∉ ['.', '*', '[', '|']) :
  Twins (searchTail true d t) (searchTail false d t)
  := by
  have hpair : d ∉ ['(', '|', '.', '*', '['] := by
    rcases eq_of_isDelimiter hd with rfl | rfl <;> decide
  have hplain : d ≠ '\\' ∧ isMagic d = false := by
    rcases eq_of_isDelimiter hd with rfl | rfl <;> decide
  fun_induction searchTail true d t with
  | case1 => exact .nil
  | case2 t ih =>
      rw [searchTail, if_pos rfl]
      apply ih
      rw [escapedChars_pair rfl] at h
      rw [escapedChars_bare (by decide) rfl]
      exact fun c hc => h c (List.mem_cons_of_mem _ hc)
  | case3 c t hc hend ih =>
      rw [searchTail_cons_lineEnd true hend, searchTail_pair_lineEnd false hend]
      exact .pair hpair .nil
  | case4 c t hc hend ih =>
      rw [escapedChars_pair (eq_false_of_ne_true hend), List.forall_mem_cons] at h
      rw [searchTail, if_neg hc, if_neg hend]
      refine .pair ?_ (ih h.2)
      simpa [hc, and_assoc, and_comm, and_left_comm] using h.1
  | case5 t hquote =>
      rw [eq_nil_of_not_pair hquote rfl]
      exact .lone
  | case6 c t hquote hc hend =>
      rw [searchTail_cons_lineEnd false hend]
      exact .bare hplain.1 hplain.2 .nil
  | case7 t hends hquote hc hend ih =>
      rw [escapedChars_bare hc (eq_false_of_ne_true hend)] at h
      rw [searchTail_delimiter hd, if_pos hends]
      exact ih h
  | case8 t hends hquote hc hend ih =>
      rw [escapedChars_bare hc (eq_false_of_ne_true hend)] at h
      rw [searchTail_delimiter hd, if_neg hends]
      exact .pair hpair (ih h)
  | case9 c t hquote hc hend hne hmagic ih =>
      rw [escapedChars_bare hc (eq_false_of_ne_true hend)] at h
      rw [searchTail_plain hc hne (eq_false_of_ne_true hend) (Bool.and_false _)]
      rw [Bool.and_true] at hmagic
      exact .magic hmagic (ih h)
  | case10 c t hquote hc hend hne hmagic ih =>
      rw [escapedChars_bare hc (eq_false_of_ne_true hend)] at h
      rw [searchTail_plain hc hne (eq_false_of_ne_true hend) (Bool.and_false _)]
      rw [Bool.and_true] at hmagic
      exact .bare hc (eq_false_of_ne_true hmagic) (ih h)

/-! ### The field -/

/-- A field that starts with a delimiter loses only what stands at its end. -/
theorem exists_dropExtension_eq (hd : isDelimiter d = true) (t : Text) :
  ∃ u, u <+: t ∧ dropExtension (d :: t) = d :: u
  := by
  have hwhole : ∃ u, u <+: t ∧ d :: t = d :: u := ⟨t, List.prefix_rfl, rfl⟩
  unfold dropExtension
  split
  · exact hwhole
  · simp only [if_pos hd]
    split
    · split
      · exact ⟨_, List.take_prefix _ _, rfl⟩
      · exact hwhole
    · exact hwhole

theorem escapedChars_mono (h : u <+: t) :
  ∀ c ∈ escapedChars u, c ∈ escapedChars t
  := by
  fun_induction escapedChars u generalizing t with
  | case1 => nofun
  | case2 c u hend => nofun
  | case3 c u hend ih =>
      obtain ⟨v, rfl⟩ := h
      rw [List.cons_append, List.cons_append, escapedChars_pair (eq_false_of_ne_true hend)]
      intro b hb
      rcases List.mem_cons.mp hb with rfl | hb
      · exact List.mem_cons_self
      · exact List.mem_cons_of_mem _ (ih ⟨v, rfl⟩ b hb)
  | case4 c u hquote hend => nofun
  | case5 c u hquote hend ih =>
      obtain ⟨v, rfl⟩ := h
      by_cases hc : c = '\\'
      · rw [eq_nil_of_not_pair hquote hc]
        nofun
      · rw [List.cons_append, escapedChars_bare hc (eq_false_of_ne_true hend)]
        exact ih ⟨v, rfl⟩

theorem withoutClosing_prefix (d : Char) (t : Text) :
  withoutClosing d t <+: t
  := by
  rcases t.eq_nil_or_concat with rfl | ⟨t, e, rfl⟩
  · exact List.prefix_rfl
  · rw [List.concat_eq_append, withoutClosing_append]
    split
    · exact List.prefix_append _ _
    · exact List.prefix_rfl

/-- A search pattern starts with a caret only if the field does. -/
theorem head?_searchTail (hd : isDelimiter d = true) (magic : Bool) (ht : t.head? ≠ some '^') :
  (searchTail magic d t).head? ≠ some '^'
  := by
  have hcaret : d ≠ '^' := by
    rcases eq_of_isDelimiter hd with rfl | rfl <;> decide
  have hlast : ([d] : Text).head? ≠ some '^' := by
    simpa using hcaret
  fun_cases searchTail magic d t with
  | case1 => nofun
  | case2 t =>
      have hparen : '(' ≠ d := by
        rcases eq_of_isDelimiter hd with rfl | rfl <;> decide
      rw [searchTail_plain (by decide) hparen rfl rfl]
      nofun
  | case3 c t hc hend => nofun
  | case4 c t hc hend => nofun
  | case5 t hquote => nofun
  | case6 c t hquote hc hend => exact hlast
  | case7 t hends hquote hc hend =>
      cases t with
      | nil => nofun
      | cons e t =>
          rw [searchTail_cons_lineEnd magic hends]
          exact hlast
  | case8 t hends hquote hc hend => nofun
  | case9 c t hquote hc hend hne hmagic => nofun
  | case10 c t hquote hc hend hne hmagic => exact ht

theorem head?_withoutClosing {t : Text} (ht : t.head? ≠ some '^') :
  (withoutClosing d t).head? ≠ some '^'
  := by
  obtain ⟨u, hu⟩ := withoutClosing_prefix d t
  intro hhead
  apply ht
  rw [← hu, List.head?_append, hhead]
  rfl

/-- A field that starts with a delimiter is a pattern. -/
theorem pattern?_ofField (hd : isDelimiter d = true) {magic : Bool} {s : Text}
    (h : toSearch? magic (dropExtension (d :: t)) = some (d :: s)) :
  (ofField magic (d :: t)).pattern? = some (d, withoutClosing d s)
  := by
  have hblank : (d :: t).dropWhile (fun c => c == ' ' || c == '\t') = d :: t := by
    rcases eq_of_isDelimiter hd with rfl | rfl <;> rfl
  rw [ofField, hblank, h]
  rfl

/-- The pattern of a field keeps a caret after the delimiter. -/
theorem pattern?_ofField_caret (hd : isDelimiter d = true) (magic : Bool)
    (h : dropExtension (d :: t) = d :: '^' :: u) :
  (ofField magic (d :: t)).pattern? = some (d, '^' :: withoutClosing d (searchTail magic d u))
  := by
  have hne : '^' ≠ d := by
    rcases eq_of_isDelimiter hd with rfl | rfl <;> decide
  have hbare := withoutClosing_bare (d := d) (c := '^') (by decide) (searchTail magic d u)
  rw [if_neg fun hlast => hne hlast.1] at hbare
  rw [← hbare]
  apply pattern?_ofField hd
  rw [h, toSearch?_caret hd]

theorem pattern?_ofField_of_head?_ne (hd : isDelimiter d = true) (magic : Bool)
    (hu : u.head? ≠ some '^') (h : dropExtension (d :: t) = d :: u) :
  (ofField magic (d :: t)).pattern? = some (d, withoutClosing d (searchTail magic d u))
  := by
  apply pattern?_ofField hd
  rw [h, toSearch?_of_head?_ne hd magic hu]

/-- A field that is a pattern is searched for by the same regular expression in both spellings, if
no backslash in it precedes an operator or a bar. -/
theorem source_ofField (hd : isDelimiter d = true)
    (h : ∀ c ∈ escapedChars (d :: t), c ∉ ['.', '*', '[', '|']) :
  ∃ p q, (ofField true (d :: t)).pattern? = some (d, p)
    ∧ (ofField false (d :: t)).pattern? = some (d, q)
    ∧ Pattern.source true p = Pattern.source false q
  := by
  have hplain : d ≠ '\\' ∧ Text.isLineEnd d = false := by
    rcases eq_of_isDelimiter hd with rfl | rfl <;> decide
  obtain ⟨u, hu, hdrop⟩ := exists_dropExtension_eq hd t
  have hchars : ∀ c ∈ escapedChars u, c ∉ ['.', '*', '[', '|'] := by
    rw [escapedChars_bare hplain.1 hplain.2] at h
    exact fun c hc => h c (escapedChars_mono hu c hc)
  by_cases hcaret : u.head? = some '^'
  · obtain ⟨v, rfl⟩ := List.head?_eq_some_iff.mp hcaret
    rw [escapedChars_bare (by decide) rfl] at hchars
    refine ⟨_, _, pattern?_ofField_caret hd true hdrop, pattern?_ofField_caret hd false hdrop, ?_⟩
    exact (twins_withoutClosing hd (twins_searchTail hd hchars)).source_caret
  · refine ⟨_, _, pattern?_ofField_of_head?_ne hd true hcaret hdrop,
      pattern?_ofField_of_head?_ne hd false hcaret hdrop, ?_⟩
    apply (twins_withoutClosing hd (twins_searchTail hd hchars)).source_eq
    exact head?_withoutClosing (head?_searchTail hd false hcaret)

/-- A field with a caret, operators, a group that is none and a delimiter inside gives two patterns
for one expression. -/
theorem source_ofField_operators :
  isDelimiter '/' = true
    ∧ (∀ c ∈ escapedChars "/^^f.[\\(x/y*\\>$/\n".toList, c ∉ ['.', '*', '[', '|'])
    ∧ (ofField true "/^^f.[\\(x/y*\\>$/\n".toList).pattern?
        = some ('/', "^\\^f\\.\\[(x\\/y\\*\\>$".toList)
    ∧ (ofField false "/^^f.[\\(x/y*\\>$/\n".toList).pattern?
        = some ('/', "^^f.[(x\\/y*\\>$".toList)
    ∧ Pattern.source true "^\\^f\\.\\[(x\\/y\\*\\>$".toList
        = Pattern.source false "^^f.[(x\\/y*\\>$".toList
  := by
  have hd : isDelimiter '/' = true := rfl
  have hescaped : escapedChars "/^^f.[\\(x/y*\\>$/\n".toList = ['(', '>'] := by decide
  have hchars : ∀ c ∈ escapedChars "/^^f.[\\(x/y*\\>$/\n".toList, c ∉ ['.', '*', '[', '|'] := by
    rw [hescaped]
    simp
  have hmagic : (ofField true "/^^f.[\\(x/y*\\>$/\n".toList).pattern?
      = some ('/', "^\\^f\\.\\[(x\\/y\\*\\>$".toList) := by decide
  have hplain : (ofField false "/^^f.[\\(x/y*\\>$/\n".toList).pattern?
      = some ('/', "^^f.[(x\\/y*\\>$".toList) := by decide
  obtain ⟨p, q, hp, hq, hsource⟩ := source_ofField hd hchars
  obtain ⟨-, rfl⟩ := Prod.mk.inj (Option.some.inj (hp.symm.trans hmagic))
  obtain ⟨-, rfl⟩ := Prod.mk.inj (Option.some.inj (hq.symm.trans hplain))
  exact ⟨hd, hchars, hmagic, hplain, hsource⟩

end TagCommand

end TagNavigator
