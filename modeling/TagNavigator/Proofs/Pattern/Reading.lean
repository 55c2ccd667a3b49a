import TagNavigator.Proofs.Pattern.Denotes
import TagNavigator.Proofs.Pattern.Tokens

/-!
# Patterns are read by their grammar

The tokens of a part of a pattern lead the reader of regular expressions to what denotes the
expression of that part, in front of whatever is read next (`Reads.run`).  This is shown rule by
rule.  The meaning of an atom depends on the atom before it, so each rule comes with what it needs
to know of that atom (`Fresh`).
-/

namespace TagNavigator

namespace Regex.Reading

/-- The reading with more items in the innermost group. -/
def extend (s : Reading) (rs : List Regex) : Reading :=
  ⟨⟨s.current.branches, rs.reverse ++ s.current.items⟩, s.outer⟩

theorem extend_append (s : Reading) (rs rs' : List Regex) :
  s.extend (rs ++ rs') = (s.extend rs).extend rs'
  := by
  simp [extend]

theorem run_cons_of_ok {s s' : Reading} {token : Token} (h : s.step token = .ok s')
    (toks : List Token) :
  s.run (token :: toks) = s'.run toks
  := by
  rw [run, h]
  rfl

/-- Tokens that add items add them before what follows is read. -/
theorem run_append_of_items {toks : List Token} {rs : List Regex}
    (h : toks.map Token.item? = rs.map some) (s : Reading) (toks' : List Token) :
  s.run (toks ++ toks') = (s.extend rs).run toks'
  := by
  induction toks generalizing rs s with
  | nil =>
      obtain rfl : rs = [] := by simpa using h.symm
      rfl
  | cons token toks ih =>
      cases rs with
      | nil => contradiction
      | cons r rs =>
          obtain ⟨hr, hrs⟩ := List.cons.inj h
          rw [List.cons_append, run_cons_of_ok (step_of_item? hr s), ih hrs]
          simp [extend, push, Frame.push]

end Regex.Reading

namespace Pattern

variable {magic : Bool} {t u : Text}

/-! ### Atoms -/

theorem readFrom_skip (n : Nat) (t : Text) :
  readFrom magic n t = readFrom magic 0 (t.drop n)
  := by
  induction n generalizing t with
  | zero => rfl
  | succ n ih =>
      cases t with
      | nil => rw [List.drop_nil, readFrom, readFrom]
      | cons c t => rw [readFrom, ih, List.drop_succ_cons]

theorem readFrom_bare {c : Char} (hquote : c = '\\' → t = []) (hbracket : c = '[' → magic = false) :
  readFrom magic 0 (c :: t) = plainAtom magic c t :: readFrom magic 0 t
  := by
  rw [readFrom]
  · rw [if_neg (by simpa using hbracket)]
  · rintro d s rfl rfl
    have hnil := hquote rfl
    contradiction

theorem readFrom_escaped {c : Char} (hbracket : c = '[' → magic = true) :
  readFrom magic 0 ('\\' :: c :: t) = escapedAtom magic c :: readFrom magic 0 t
  := by
  rw [readFrom, if_neg (by simpa using hbracket)]

theorem readFrom_set {b : Bracket} (h : b.Written t u) :
  readFrom magic 0 (operator magic '[' ++ t) = .set b :: readFrom magic 0 u
  := by
  obtain ⟨n, hb, rfl⟩ := bracket?_of_written h
  cases magic <;> simp [operator, readFrom, hb, readFrom_skip n]

theorem readFrom_unclosed (h : ∀ b u, ¬ Bracket.Written b t u) :
  readFrom magic 0 (operator magic '[' ++ t) = .char '[' :: readFrom magic 0 t
  := by
  cases magic <;> simp [operator, readFrom, bracket?_eq_none_iff.mpr h]

theorem readFrom_any :
  readFrom magic 0 (operator magic '.' ++ t) = .any :: readFrom magic 0 t
  := by
  cases magic with
  | false => exact readFrom_escaped (by decide)
  | true => exact readFrom_bare (by simp) (by simp)

theorem readFrom_star :
  readFrom magic 0 (operator magic '*' ++ t) = .star :: readFrom magic 0 t
  := by
  cases magic with
  | false => exact readFrom_escaped (by decide)
  | true => exact readFrom_bare (by simp) (by simp)

theorem escapedAtom_eq_char {c : Char} (hc : c ∉ ['(', ')', '|', '<', '>', 't'])
    (hmagic : c ∈ ['.', '*', '['] → magic = true) :
  escapedAtom magic c = .char c
  := by
  unfold escapedAtom
  split
  · contradiction
  · contradiction
  · contradiction
  · contradiction
  · contradiction
  · contradiction
  · rw [if_pos (hmagic (by simp))]
  · rw [if_pos (hmagic (by simp))]
  · rfl

/-- A backslash and a character that is no operator with it stand for the character. -/
theorem readFrom_quotedChar {c : Char} (hc : c ∉ ['(', ')', '|', '<', '>', 't'])
    (hop : ¬ StartsOperator magic ['.', '*', '['] ('\\' :: c :: t)) :
  readFrom magic 0 ('\\' :: c :: t) = .char c :: readFrom magic 0 t
  := by
  have hmagic : c ∈ ['.', '*', '['] → magic = true := by
    intro hmem
    cases magic with
    | false => exact absurd ⟨c, hmem, t, rfl⟩ hop
    | true => rfl
  rw [readFrom_escaped, escapedAtom_eq_char hc hmagic]
  rintro rfl
  apply hmagic (by simp)

/-- A branch ends where the grammar says so. -/
theorem closesHere_iff :
  closesHere t = true ↔ BranchEnds t
  := by
  fun_cases closesHere t with
  | case1 => simp [BranchEnds]
  | case2 c t => simp [BranchEnds, eq_comm (a := c)]
  | case3 t hnil hquote =>
      constructor
      · intro h
        contradiction
      · rintro (rfl | ⟨t, rfl⟩ | ⟨t, rfl⟩)
        · contradiction
        · apply absurd rfl (hquote ')' t)
        · apply absurd rfl (hquote '|' t)

/-- A character that is no operator where it stands, stands for itself. -/
theorem after_plainAtom {c : Char} {prev : Option Atom} (hdollar : c = '$' → ¬ BranchEnds t)
    (hcaret : c = '^' → startsBranch prev = false)
    (hop : ¬ StartsOperator magic ['.', '*', '['] (c :: t)) :
  (plainAtom magic c t).after prev = .char c
  := by
  have hmagic : c ∈ ['.', '*', '['] → magic = false := by
    intro hmem
    cases magic with
    | false => rfl
    | true => exact absurd ⟨c, hmem, t, rfl⟩ hop
  unfold plainAtom
  split
  · simp [Atom.after, hcaret rfl]
  · have hopen := mt closesHere_iff.mp (hdollar rfl)
    simp [Atom.after, hopen]
  · simp [Atom.after, hmagic]
  · simp [Atom.after, hmagic]
  · rfl

/-! ### Items -/

/-- The tokens of the text `t` where it follows the atom `prev`. -/
def tokensAfter (magic : Bool) (prev : Option Atom) (t : Text) : List Regex.Token :=
  (settle prev (readFrom magic 0 t)).flatMap Atom.tokens

theorem tokensAfter_of_readFrom {a : Atom} (h : readFrom magic 0 t = a :: readFrom magic 0 u)
    (prev : Option Atom) :
  tokensAfter magic prev t
    = (a.after prev).tokens ++ tokensAfter magic (some (a.after prev)) u
  := by
  rw [tokensAfter, h, settle, List.flatMap_cons, tokensAfter]

/-- Where a branch ends, it does not matter which atom precedes. -/
theorem tokensAfter_of_branchEnds (h : BranchEnds t) (prev : Option Atom) :
  tokensAfter magic prev t = tokensAfter magic none t
  := by
  rcases h with rfl | ⟨t, rfl⟩ | ⟨t, rfl⟩
  · rfl
  · have hread : readFrom magic 0 ('\\' :: ')' :: t) = .groupClose :: readFrom magic 0 t :=
      readFrom_escaped (by simp)
    exact (tokensAfter_of_readFrom hread prev).trans (tokensAfter_of_readFrom hread none).symm
  · have hread : readFrom magic 0 ('\\' :: '|' :: t) = .bar :: readFrom magic 0 t :=
      readFrom_escaped (by simp)
    exact (tokensAfter_of_readFrom hread prev).trans (tokensAfter_of_readFrom hread none).symm

/-- After the atom `prev`, neither a star nor a caret at the start of `t` is an operator. -/
structure Fresh (magic : Bool) (prev : Option Atom) (t : Text) : Prop where
  star : operator magic '*' <+: t → repeatable prev = false
  caret : t.head? = some '^' → startsBranch prev = false

/-- The text `t` after the atom `prev` adds the items `rs`, and then the text `u` is read after the
atom `next`. -/
def Adds (magic : Bool) (prev : Option Atom) (t : Text) (rs : List Regex) (next : Option Atom)
    (u : Text) : Prop :=
  ∀ s : Regex.Reading,
    s.run (tokensAfter magic prev t) = (s.extend rs).run (tokensAfter magic next u)

/-- A star repeats the item. -/
def Repeats (r : Regex) : Prop :=
  ∀ branches before, Regex.Frame.repeatLast ⟨branches, r :: before⟩
    = .ok ⟨branches, .star r :: before⟩

/-- The text `t` after the atom `prev` starts with the item `e`, which is read as the items `front`
and `r`, of which a star would repeat only `r`. -/
structure AddsItem (magic : Bool) (prev : Option Atom) (t : Text) (e : Expr) (front : List Regex)
    (r : Regex) (next : Option Atom) (u : Text) : Prop where
  adds : Adds magic prev t (front ++ [r]) next u
  denotes : Denotes (Regex.sequence (front ++ [r])) e
  repeats : Repeats r
  whole : front = [] ∨ e.IsEdge
  next : repeatable next = true

theorem Adds.of_readFrom {prev : Option Atom} {a a' : Atom} {rs : List Regex}
    (hread : readFrom magic 0 t = a :: readFrom magic 0 u) (hafter : a.after prev = a')
    (htokens : a'.tokens.map Regex.Token.item? = rs.map some) :
  Adds magic prev t rs (some a') u
  := by
  subst hafter
  intro s
  rw [tokensAfter_of_readFrom hread, Regex.Reading.run_append_of_items htokens]

theorem Adds.trans {prev next last : Option Atom} {v : Text} {rs rs' : List Regex}
    (h : Adds magic prev t rs next u) (h' : Adds magic next u rs' last v) :
  Adds magic prev t (rs ++ rs') last v
  := by
  intro s
  rw [h s, h' (s.extend rs), Regex.Reading.extend_append]

variable {prev : Option Atom} {e : Expr}

theorem repeats_ofSet (s : CharSet) :
  Repeats (Regex.ofSet s)
  := by
  rw [Regex.ofSet.eq_def]
  split <;> exact fun _ _ => rfl

/-- An atom that is read as one item. -/
theorem AddsItem.single {a a' : Atom} {r : Regex}
    (hread : readFrom magic 0 t = a :: readFrom magic 0 u) (hafter : a.after prev = a')
    (htokens : a'.tokens.map Regex.Token.item? = [some r]) (hdenotes : Denotes r e)
    (hrepeats : Repeats r) (hnext : repeatable (some a') = true) :
  AddsItem magic prev t e [] r (some a') u
  := by
  constructor
  · exact Adds.of_readFrom hread hafter htokens
  · exact hdenotes
  · exact hrepeats
  · exact Or.inl rfl
  · exact hnext

/-- An atom that stands for one character. -/
theorem AddsItem.char {a : Atom} {c : Char} (hread : readFrom magic 0 t = a :: readFrom magic 0 u)
    (hafter : a.after prev = .char c) :
  AddsItem magic prev t (.char c) [] (.char c) (some (.char c)) u
  :=
  AddsItem.single hread hafter rfl (Denotes.char c) (fun _ _ => rfl) rfl

theorem AddsItem.wordStart :
  AddsItem magic prev ('\\' :: '<' :: t) .wordStart [.boundary] .wordAhead (some .wordStart) t
  := by
  constructor
  · exact Adds.of_readFrom (a := .wordStart) (readFrom_escaped (by simp)) rfl rfl
  · apply Denotes.wordStart
  · exact fun _ _ => rfl
  · apply Or.inr (Or.inl rfl)
  · rfl

theorem AddsItem.wordEnd :
  AddsItem magic prev ('\\' :: '>' :: t) .wordEnd [.boundary] .wordBehind (some .wordEnd) t
  := by
  constructor
  · exact Adds.of_readFrom (a := .wordEnd) (readFrom_escaped (by simp)) rfl rfl
  · apply Denotes.wordEnd
  · exact fun _ _ => rfl
  · apply Or.inr (Or.inr rfl)
  · rfl

/-! ### Branches and groups -/

/-- The text `t` after the atom `prev` adds the branches `branches` and the items `items` of a last
branch to a group of which only whole branches have been read, and then `u` is read. -/
def AddsBranches (magic : Bool) (prev : Option Atom) (t : Text) (branches : List (List Regex))
    (items : List Regex) (u : Text) : Prop :=
  ∀ finished outer, Regex.Reading.run ⟨⟨finished, []⟩, outer⟩ (tokensAfter magic prev t)
    = Regex.Reading.run ⟨⟨branches ++ finished, items⟩, outer⟩ (tokensAfter magic none u)

/-- What reading a part of a pattern comes to. -/
def Part.Run (magic : Bool) : Part → Text → Expr → Text → Prop
  | .alternatives, t, e, u => ∀ prev, startsBranch prev = true → ∃ branches items,
    AddsBranches magic prev t branches items u
      ∧ Denotes (Regex.Frame.finish ⟨branches, items⟩) e
  | .branch, t, e, u => ∀ prev, startsBranch prev = true → ∃ rs,
    Adds magic prev t rs none u ∧ Denotes (Regex.sequence rs) e
  | .items, t, e, u => ∀ prev, Fresh magic prev t → ∃ rs,
    Adds magic prev t rs none u ∧ Denotes (Regex.sequence rs) e
  | .item, t, e, u => ∀ prev, Fresh magic prev t → ∃ front r next,
    AddsItem magic prev t e front r next u

theorem not_repeatable_of_startsBranch (h : startsBranch prev = true) :
  repeatable prev = false
  := by
  unfold repeatable
  split
  · rfl
  · rfl
  · rw [h]
    rfl

theorem not_startsBranch_of_repeatable (h : repeatable prev = true) :
  startsBranch prev = false
  := by
  rw [← Bool.not_eq_true]
  intro hstarts
  rw [not_repeatable_of_startsBranch hstarts] at h
  contradiction

theorem Adds.addsBranches {rs : List Regex} (h : Adds magic prev t rs none u) :
  AddsBranches magic prev t [] rs.reverse u
  := by
  intro finished outer
  rw [h]
  simp [Regex.Reading.extend]

/-- A bar finishes a branch. -/
theorem Adds.bar {rs : List Regex} (h : Adds magic prev t rs none ('\\' :: '|' :: u))
    (finished : List (List Regex)) (outer : List Regex.Frame) :
  Regex.Reading.run ⟨⟨finished, []⟩, outer⟩ (tokensAfter magic prev t)
    = Regex.Reading.run ⟨⟨rs :: finished, []⟩, outer⟩ (tokensAfter magic (some .bar) u)
  := by
  have hbar : tokensAfter magic none ('\\' :: '|' :: u) = .bar :: tokensAfter magic (some .bar) u :=
    tokensAfter_of_readFrom (readFrom_escaped (by simp)) none
  have hsplit : Regex.Reading.step (Regex.Reading.extend ⟨⟨finished, []⟩, outer⟩ rs) .bar
      = .ok ⟨⟨rs :: finished, []⟩, outer⟩ := by
    simp [Regex.Reading.step, Regex.Reading.extend, Regex.Frame.split]
  rw [h, hbar, Regex.Reading.run_cons_of_ok hsplit]

theorem run_more {v : Text} {a b : Expr} (ha : Part.Run magic .branch t a ('\\' :: '|' :: u))
    (hb : Part.Run magic .alternatives u b v) :
  Part.Run magic .alternatives t (.alt a b) v
  := by
  intro prev hprev
  obtain ⟨rs, hadds, hdenotes⟩ := ha prev hprev
  obtain ⟨branches, items, hbranches, hothers⟩ := hb (some .bar) rfl
  refine ⟨branches ++ [rs], items, ?_, hdenotes.more hothers⟩
  intro finished outer
  rw [hadds.bar, hbranches, List.append_assoc]
  rfl

/-- An opened group is read from its start. -/
theorem run_groupOpen (s : Regex.Reading) :
  s.run (tokensAfter magic prev ('\\' :: '(' :: t))
    = Regex.Reading.run ⟨⟨[], []⟩, s.current :: s.outer⟩ (tokensAfter magic (some .groupOpen) t)
  := by
  have hopen : tokensAfter magic prev ('\\' :: '(' :: t)
      = .groupOpen :: tokensAfter magic (some .groupOpen) t :=
    tokensAfter_of_readFrom (readFrom_escaped (by simp)) prev
  have hstep : s.step .groupOpen = .ok ⟨⟨[], []⟩, s.current :: s.outer⟩ := rfl
  rw [hopen, Regex.Reading.run_cons_of_ok hstep]

theorem AddsItem.group {branches : List (List Regex)} {items : List Regex}
    (h : AddsBranches magic (some .groupOpen) t branches items ('\\' :: ')' :: u))
    (hdenotes : Denotes (Regex.Frame.finish ⟨branches, items⟩) e) :
  AddsItem magic prev ('\\' :: '(' :: t) e [] (.group (Regex.Frame.finish ⟨branches, items⟩))
    (some .groupClose) u
  := by
  constructor
  · intro s
    have hclose : tokensAfter magic none ('\\' :: ')' :: u)
        = .groupClose :: tokensAfter magic (some .groupClose) u :=
      tokensAfter_of_readFrom (readFrom_escaped (by simp)) none
    rw [run_groupOpen, h, hclose, Regex.Reading.run_cons_of_ok rfl, List.append_nil]
    rfl
  · exact hdenotes
  · exact fun _ _ => rfl
  · apply Or.inl rfl
  · rfl

/-- A star after an item repeats it. -/
theorem AddsItem.star {front : List Regex} {r : Regex} {next : Option Atom}
    (h : AddsItem magic prev t e front r next (operator magic '*' ++ u)) :
  Adds magic prev t (front ++ [.star r]) (some .star) u
  := by
  intro s
  have htokens : tokensAfter magic next (operator magic '*' ++ u)
      = .star :: tokensAfter magic (some .star) u := by
    rw [tokensAfter_of_readFrom readFrom_star, Atom.after, h.next]
    rfl
  have hstep : (s.extend (front ++ [r])).step .star = .ok (s.extend (front ++ [.star r])) := by
    simp only [Regex.Reading.extend, Regex.Reading.step, List.reverse_append,
      List.reverse_singleton, List.cons_append, h.repeats _ _]
    rfl
  rw [h.adds, htokens, Regex.Reading.run_cons_of_ok hstep]

theorem run_starred {v : Text} {a b : Expr}
    (ha : Part.Run magic .item t a (operator magic '*' ++ u)) (hb : Part.Run magic .items u b v) :
  Part.Run magic .items t (.seq (.star a) b) v
  := by
  intro prev hfresh
  obtain ⟨front, r, next, hitem⟩ := ha prev hfresh
  obtain ⟨rs, hadds, hdenotes⟩ := hb (some .star) ⟨fun _ => rfl, fun _ => rfl⟩
  refine ⟨front ++ [.star r] ++ rs, hitem.star.trans hadds, ?_⟩
  · apply Denotes.append _ hdenotes
    rcases hitem.whole with rfl | hedge
    · exact hitem.denotes.star
    · intro hno
      apply absurd hedge hno.1

theorem run_once {v : Text} {a b : Expr} (ha : Part.Run magic .item t a u)
    (hstar : ¬ operator magic '*' <+: u) (hb : Part.Run magic .items u b v) :
  Part.Run magic .items t (.seq a b) v
  := by
  intro prev hfresh
  obtain ⟨front, r, next, hitem⟩ := ha prev hfresh
  have hnext : Fresh magic next u := by
    constructor
    · intro h
      contradiction
    · exact fun _ => not_startsBranch_of_repeatable hitem.next
  obtain ⟨rs, hadds, hdenotes⟩ := hb next hnext
  exact ⟨front ++ [r] ++ rs, hitem.adds.trans hadds, hitem.denotes.append hdenotes⟩

/-- A caret at the start of a branch is the start of the text. -/
theorem Adds.caret (h : startsBranch prev = true) :
  Adds magic prev ('^' :: t) [.textStart] (some .caret) t
  := by
  have hafter : Atom.after prev .caret = .caret := by
    rw [Atom.after, if_pos h]
  apply Adds.of_readFrom (readFrom_bare (by simp) (by simp)) hafter rfl

theorem run_anchored (h : Part.Run magic .items t e u) :
  Part.Run magic .branch ('^' :: t) (.seq .lineStart e) u
  := by
  intro prev hprev
  obtain ⟨rs, hadds, hdenotes⟩ := h (some .caret) ⟨fun _ => rfl, fun _ => rfl⟩
  have hstart : Denotes (Regex.sequence [.textStart]) .lineStart := Denotes.lineStart
  exact ⟨[.textStart] ++ rs, (Adds.caret hprev).trans hadds, hstart.append hdenotes⟩

theorem run_free (hcaret : t.head? ≠ some '^') (h : Part.Run magic .items t e u) :
  Part.Run magic .branch t e u
  := by
  intro prev hprev
  apply h prev
  constructor
  · exact fun _ => not_repeatable_of_startsBranch hprev
  · intro hhead
    contradiction

theorem run_nil (hend : BranchEnds t) :
  Part.Run magic .items t .empty t
  := by
  intro prev _
  refine ⟨[], ?_, Denotes.empty⟩
  intro s
  rw [tokensAfter_of_branchEnds hend]
  rfl

theorem run_dollar (hend : BranchEnds t) :
  Part.Run magic .items ('$' :: t) .lineEnd t
  := by
  intro prev _
  refine ⟨[.textEnd], ?_, Denotes.lineEnd⟩
  have hatom : plainAtom magic '$' t = .dollar true := by
    rw [plainAtom, closesHere_iff.mpr hend]
  have hdollar : Adds magic prev ('$' :: t) [.textEnd] (some (.dollar true)) t := by
    apply Adds.of_readFrom (readFrom_bare (by simp) (by simp)) _ rfl
    rw [hatom]
    rfl
  intro s
  rw [hdollar, tokensAfter_of_branchEnds hend]

theorem run_star :
  Part.Run magic .item (operator magic '*' ++ t) (.char '*') t
  := by
  intro prev hfresh
  have hafter : Atom.after prev .star = .char '*' := by
    rw [Atom.after, hfresh.star (List.prefix_append _ _)]
    rfl
  exact ⟨_, _, _, AddsItem.char readFrom_star hafter⟩

theorem run_bare {c : Char} (hquote : c = '\\' → t = []) (hdollar : c = '$' → ¬ BranchEnds t)
    (hop : ¬ StartsOperator magic ['.', '*', '['] (c :: t)) :
  Part.Run magic .item (c :: t) (.char c) t
  := by
  intro prev hfresh
  have hbracket : c = '[' → magic = false := by
    rintro rfl
    cases magic with
    | false => rfl
    | true => exact absurd ⟨'[', by simp, t, rfl⟩ hop
  have hcaret : c = '^' → startsBranch prev = false := by
    rintro rfl
    apply hfresh.caret rfl
  exact ⟨_, _, _,
    AddsItem.char (readFrom_bare hquote hbracket) (after_plainAtom hdollar hcaret hop)⟩

/-- Every part of a pattern is read as its expression. -/
theorem Reads.run {part : Part} (h : Reads magic part t e u) :
  part.Run magic t e u
  := by
  -- Induction on the derivation; what stands before the part enters each case through `prev`.
  induction h with
  | last h hbar ih =>
      intro prev hprev
      obtain ⟨rs, hadds, hdenotes⟩ := ih prev hprev
      exact ⟨[], rs.reverse, hadds.addsBranches, hdenotes.last⟩
  | more ha hb iha ihb => exact run_more iha ihb
  | anchored h ih => exact run_anchored ih
  | free hcaret h ih => exact run_free hcaret ih
  | nil hend => exact run_nil hend
  | dollar hend => exact run_dollar hend
  | once ha hstar hb iha ihb => exact run_once iha hstar ihb
  | starred ha hb iha ihb => exact run_starred iha ihb
  | any t =>
      intro prev _
      exact ⟨_, _, _, AddsItem.single readFrom_any rfl rfl Denotes.any (fun _ _ => rfl) rfl⟩
  | set h =>
      intro prev _
      exact ⟨_, _, _, AddsItem.single (readFrom_set h) rfl rfl (Denotes.set _) (repeats_ofSet _) rfl⟩
  | group h ih =>
      intro prev _
      obtain ⟨branches, items, hadds, hdenotes⟩ := ih (some .groupOpen) rfl
      exact ⟨_, _, _, AddsItem.group hadds hdenotes⟩
  | wordStart t => exact fun _ _ => ⟨_, _, _, AddsItem.wordStart⟩
  | wordEnd t => exact fun _ _ => ⟨_, _, _, AddsItem.wordEnd⟩
  | tab t =>
      intro prev _
      exact ⟨_, _, _, AddsItem.single (a := .tab) (readFrom_escaped (by simp)) rfl rfl
        (Denotes.char _) (fun _ _ => rfl) rfl⟩
  | star t => exact run_star
  | bracket h =>
      intro prev _
      exact ⟨_, _, _, AddsItem.char (readFrom_unclosed h) rfl⟩
  | quoted hc hop =>
      intro prev _
      exact ⟨_, _, _, AddsItem.char (readFrom_quotedChar hc hop) rfl⟩
  | bare hquote hdollar hop => exact run_bare hquote hdollar hop

end Pattern

end TagNavigator
