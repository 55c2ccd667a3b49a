import TagNavigator.Proofs.Pattern.Reading

/-!
# The meaning of patterns

A pattern that compiles is one that the grammar can read (`exists_reads`), and its matcher finds the
first place where the expression it is read as matches (`first_compile`).
-/

namespace TagNavigator.Pattern

variable {magic : Bool} {t u : Text} {e : Expr} {prev : Option Atom}

/-! ### Ends of readings -/

/-- The least number of characters of a part. -/
def Part.width : Part → Nat
  | .item => 1
  | _ => 0

theorem length_operator_append (magic : Bool) (c : Char) (t : Text) :
  t.length + 1 ≤ (operator magic c ++ t).length
  := by
  cases magic <;> simp [operator]

theorem Reads.length_add_width_le {part : Part} (h : Reads magic part t e u) :
  u.length + part.width ≤ t.length
  := by
  induction h with
  | @starred t u v a b ha hb iha ihb =>
      have hstar := length_operator_append magic '*' u
      simp only [Part.width] at *
      omega
  | any t => exact length_operator_append magic '.' t
  | @set t u b h =>
      have hlist := h.length_lt
      have hbracket := length_operator_append magic '[' t
      simp only [Part.width]
      omega
  | star t => exact length_operator_append magic '*' t
  | bracket h => exact length_operator_append magic '[' _
  | _ =>
      simp only [Part.width, List.length_cons] at *
      omega

theorem Reads.branchEnds {part : Part} (h : Reads magic part t e u) (hpart : part ≠ .item) :
  BranchEnds u
  := by
  induction h with
  | nil hend => exact hend
  | dollar hend => exact hend
  | last h hbar ih => exact ih nofun
  | more ha hb iha ihb => exact ihb nofun
  | anchored h ih => exact ih nofun
  | free hcaret h ih => exact ih nofun
  | once ha hstar hb iha ihb => exact ihb nofun
  | starred ha hb iha ihb => exact ihb nofun
  | _ => contradiction

/-- What follows alternatives is nothing or the end of a group. -/
theorem Reads.eq_nil_or_groupClose (h : Reads magic .alternatives t e u) :
  u = [] ∨ ['\\', ')'] <+: u
  := by
  have hbar : ¬ ['\\', '|'] <+: u := by
    generalize hpart : Part.alternatives = part at h
    induction h with
    | last h hbar ih => exact hbar
    | more ha hb iha ihb => exact ihb hpart
    | _ => contradiction
  rcases h.branchEnds nofun with hend | hend | hend
  · apply Or.inl hend
  · apply Or.inr hend
  · contradiction

/-! ### Existence of a reading -/

/-- The tokens are read without error, and then no group is open that was not open before. -/
def Closes (s : Regex.Reading) (toks : List Regex.Token) : Prop :=
  ∃ s', s.run toks = .ok s' ∧ s'.outer.length ≤ s.outer.length

theorem Closes.of_adds {rs : List Regex} {next : Option Atom} {s : Regex.Reading}
    (h : Closes s (tokensAfter magic prev t)) (hadds : Adds magic prev t rs next u) :
  Closes (s.extend rs) (tokensAfter magic next u)
  := by
  obtain ⟨s', hrun, hlength⟩ := h
  rw [hadds] at hrun
  exact ⟨s', hrun, hlength⟩

/-- The rest `t` of a pattern can be read by the grammar, if it can be read at all. -/
structure Readable (magic : Bool) (t : Text) : Prop where
  alternatives : ∀ prev finished outer, startsBranch prev = true →
    Closes ⟨⟨finished, []⟩, outer⟩ (tokensAfter magic prev t) →
    ∃ e u, Reads magic .alternatives t e u
  items : ∀ prev s, Fresh magic prev t → Closes s (tokensAfter magic prev t) →
    ∃ e u, Reads magic .items t e u

/-- A group that is read is closed. -/
theorem exists_reads_group {s : Regex.Reading} (ht : Readable magic t)
    (hclose : Closes s (tokensAfter magic prev ('\\' :: '(' :: t))) :
  ∃ e u, Reads magic .alternatives t e ('\\' :: ')' :: u)
  := by
  obtain ⟨s', hrun, hlength⟩ := hclose
  rw [run_groupOpen] at hrun
  have hinner : Closes ⟨⟨[], []⟩, s.current :: s.outer⟩ (tokensAfter magic (some .groupOpen) t) :=
    ⟨s', hrun, Nat.le_succ_of_le hlength⟩
  obtain ⟨e, u, hread⟩ := ht.alternatives _ _ _ rfl hinner
  rcases hread.eq_nil_or_groupClose with rfl | ⟨u, rfl⟩
  · obtain ⟨branches, items, hadds, -⟩ := hread.run (some .groupOpen) rfl
    rw [hadds] at hrun
    obtain rfl := Except.ok.inj hrun
    apply absurd hlength (Nat.not_succ_le_self _)
  · exact ⟨e, u, hread⟩

theorem exists_reads_operator (hop : StartsOperator magic ['.', '*', '['] t) :
  ∃ e u, Reads magic .item t e u
  := by
  obtain ⟨c, hc, v, rfl⟩ := hop
  simp only [List.mem_cons, List.not_mem_nil, or_false] at hc
  rcases hc with rfl | rfl | rfl
  · exact ⟨_, _, Reads.any v⟩
  · exact ⟨_, _, Reads.star v⟩
  · by_cases hlist : ∃ b u, Bracket.Written b v u
    · obtain ⟨b, u, hlist⟩ := hlist
      exact ⟨_, _, Reads.set hlist⟩
    · simp only [not_exists] at hlist
      exact ⟨_, _, Reads.bracket hlist⟩

/-- Where a branch does not end, a backslash starts an item, if a group that starts there can be
read. -/
theorem exists_reads_backslash {c : Char} (hend : ¬ BranchEnds ('\\' :: c :: t))
    (hop : ¬ StartsOperator magic ['.', '*', '['] ('\\' :: c :: t))
    (hgroup : c = '(' → ∃ e u, Reads magic .alternatives t e ('\\' :: ')' :: u)) :
  ∃ e u, Reads magic .item ('\\' :: c :: t) e u
  := by
  by_cases hc : c ∈ ['(', ')', '|', '<', '>', 't']
  · simp only [List.mem_cons, List.not_mem_nil, or_false] at hc
    rcases hc with rfl | rfl | rfl | rfl | rfl | rfl
    · obtain ⟨e, u, hread⟩ := hgroup rfl
      exact ⟨_, _, Reads.group hread⟩
    · apply absurd (Or.inr (Or.inl ⟨t, rfl⟩)) hend
    · apply absurd (Or.inr (Or.inr ⟨t, rfl⟩)) hend
    · exact ⟨_, _, Reads.wordStart t⟩
    · exact ⟨_, _, Reads.wordEnd t⟩
    · exact ⟨_, _, Reads.tab t⟩
  · exact ⟨_, _, Reads.quoted hc hop⟩

/-- Where a branch does not end, an item can be read, if a group that starts there can be read. -/
theorem exists_reads_item (hend : ¬ BranchEnds t) (hdollar : ∀ v, t = '$' :: v → ¬ BranchEnds v)
    (hgroup : ∀ v, t = '\\' :: '(' :: v → ∃ e u, Reads magic .alternatives v e ('\\' :: ')' :: u)) :
  ∃ e u, Reads magic .item t e u
  := by
  by_cases hop : StartsOperator magic ['.', '*', '['] t
  · apply exists_reads_operator hop
  · cases t with
    | nil => exact absurd (Or.inl rfl) hend
    | cons c t =>
        by_cases hquote : c = '\\' → t = []
        · refine ⟨_, _, Reads.bare hquote ?_ hop⟩
          rintro rfl
          apply hdollar t rfl
        · simp only [not_forall] at hquote
          obtain ⟨rfl, hne⟩ := hquote
          obtain ⟨d, t, rfl⟩ := List.exists_cons_of_ne_nil hne
          apply exists_reads_backslash hend hop
          rintro rfl
          apply hgroup t rfl

theorem exists_reads_items {s : Regex.Reading} (ih : ∀ v, v.length < t.length → Readable magic v)
    (hfresh : Fresh magic prev t) (hclose : Closes s (tokensAfter magic prev t)) :
  ∃ e u, Reads magic .items t e u
  := by
  by_cases hend : BranchEnds t
  · exact ⟨_, _, Reads.nil hend⟩
  by_cases hdollar : ∃ v, t = '$' :: v ∧ BranchEnds v
  · obtain ⟨v, rfl, hv⟩ := hdollar
    exact ⟨_, _, Reads.dollar hv⟩
  have hitem : ∃ a u, Reads magic .item t a u := by
    apply exists_reads_item hend
    · intro v ht hv
      apply hdollar ⟨v, ht, hv⟩
    · rintro v rfl
      apply exists_reads_group (ih v _) hclose
      simp only [List.length_cons]
      omega
  obtain ⟨a, u, ha⟩ := hitem
  have hlt : u.length + 1 ≤ t.length := ha.length_add_width_le
  obtain ⟨front, r, next, hadds⟩ := ha.run prev hfresh
  -- A star right after the item belongs to it, and after that a star is a character.
  by_cases hstar : operator magic '*' <+: u
  · obtain ⟨v, rfl⟩ := hstar
    have hv := length_operator_append magic '*' v
    obtain ⟨b, w, hb⟩ := (ih v (by omega)).items _ _ ⟨fun _ => rfl, fun _ => rfl⟩
      (hclose.of_adds hadds.star)
    exact ⟨_, _, Reads.starred ha hb⟩
  · have hnext : Fresh magic next u :=
      ⟨fun h => absurd h hstar, fun _ => not_startsBranch_of_repeatable hadds.next⟩
    obtain ⟨b, w, hb⟩ := (ih u hlt).items _ _ hnext (hclose.of_adds hadds.adds)
    exact ⟨_, _, Reads.once ha hstar hb⟩

theorem exists_reads_branch {s : Regex.Reading} (ih : ∀ v, v.length < t.length → Readable magic v)
    (hprev : startsBranch prev = true) (hclose : Closes s (tokensAfter magic prev t)) :
  ∃ e u, Reads magic .branch t e u
  := by
  by_cases hcaret : t.head? = some '^'
  · obtain ⟨v, rfl⟩ := List.head?_eq_some_iff.mp hcaret
    obtain ⟨e, u, hread⟩ := (ih v (Nat.lt_succ_self _)).items _ _ ⟨fun _ => rfl, fun _ => rfl⟩
      (hclose.of_adds (Adds.caret hprev))
    exact ⟨_, _, Reads.anchored hread⟩
  · have hfresh : Fresh magic prev t :=
      ⟨fun _ => not_repeatable_of_startsBranch hprev, fun h => absurd h hcaret⟩
    obtain ⟨e, u, hread⟩ := exists_reads_items ih hfresh hclose
    exact ⟨_, _, Reads.free hcaret hread⟩

theorem exists_reads_alternatives (ih : ∀ v, v.length < t.length → Readable magic v)
    (hprev : startsBranch prev = true) {finished : List (List Regex)} {outer : List Regex.Frame}
    (hclose : Closes ⟨⟨finished, []⟩, outer⟩ (tokensAfter magic prev t)) :
  ∃ e u, Reads magic .alternatives t e u
  := by
  obtain ⟨a, u, ha⟩ := exists_reads_branch ih hprev hclose
  by_cases hbar : ['\\', '|'] <+: u
  · obtain ⟨v, rfl⟩ := hbar
    obtain ⟨rs, hadds, -⟩ := ha.run prev hprev
    have hlength := ha.length_add_width_le
    simp only [List.length_append, List.length_cons] at hlength
    obtain ⟨s', hrun, houter⟩ := hclose
    rw [Adds.bar hadds] at hrun
    obtain ⟨b, w, hb⟩ := (ih v (by omega)).alternatives _ _ _ rfl ⟨s', hrun, houter⟩
    exact ⟨_, _, Reads.more ha hb⟩
  · exact ⟨_, _, Reads.last ha hbar⟩

/-- Whatever can be read, can be read by the grammar. -/
theorem readable (t : Text) :
  Readable magic t
  := by
  -- Both parts at once: an item can be a group, and the branches of a group begin with items.
  induction hn : t.length using Nat.strong_induction_on generalizing t with
  | h n ih =>
      subst hn
      have hshorter : ∀ v : Text, v.length < t.length → Readable magic v :=
        fun v hv => ih v.length hv v rfl
      constructor
      · intro prev finished outer hprev hclose
        apply exists_reads_alternatives hshorter hprev hclose
      · intro prev s hfresh hclose
        apply exists_reads_items hshorter hfresh hclose

/-! ### Compiled patterns -/

variable {p : Text} {m : Matcher}

/-- The tokens of a pattern that compiles are read to the end, and every group is closed. -/
theorem run_of_compile (h : compile p magic false = .ok m) :
  ∃ f, Regex.Reading.start.run (tokensAfter magic none p) = .ok ⟨f, []⟩ ∧ m = ⟨f.finish, false⟩
  := by
  rw [compile] at h
  split at h
  next r hparse =>
    obtain rfl := Except.ok.inj h
    obtain ⟨toks, htoks, hread⟩ := bind_eq_ok_iff.mp hparse
    obtain ⟨⟨f, outer⟩, hrun, hfinish⟩ := bind_eq_ok_iff.mp hread
    rw [(tokenize_source_iff.mp htoks).2] at hrun
    rw [Regex.Reading.finish] at hfinish
    split at hfinish
    next hempty =>
      obtain rfl : outer = [] := List.isEmpty_iff.mp hempty
      obtain rfl := Except.ok.inj hfinish
      exact ⟨f, hrun, rfl⟩
    · contradiction
  · contradiction

/-- A pattern that compiles can be read by the grammar. -/
theorem exists_reads_of_compile (h : compile p magic false = .ok m) :
  ∃ e, Reads magic .alternatives p e []
  := by
  obtain ⟨f, hrun, -⟩ := run_of_compile h
  obtain ⟨e, u, hread⟩ := (readable p).alternatives none [] [] rfl ⟨_, hrun, Nat.le_refl _⟩
  rcases hread.eq_nil_or_groupClose with rfl | ⟨u, rfl⟩
  · exact ⟨e, hread⟩
  · obtain ⟨branches, items, hadds, -⟩ := hread.run none rfl
    have hclose : tokensAfter magic none ('\\' :: ')' :: u)
        = .groupClose :: tokensAfter magic (some .groupClose) u :=
      tokensAfter_of_readFrom (readFrom_escaped (by simp)) none
    rw [Regex.Reading.start, Regex.Frame.start, hadds] at hrun
    rw [List.cons_append, List.singleton_append, hclose] at hrun
    contradiction

/-- The regular expression of a pattern denotes any expression that the pattern is read as. -/
theorem denotes_of_compile (h : compile p magic false = .ok m)
    (he : Reads magic .alternatives p e []) :
  m.ignoreCase = false ∧ Denotes m.regex e
  := by
  obtain ⟨f, hrun, rfl⟩ := run_of_compile h
  obtain ⟨branches, items, hadds, hdenotes⟩ := he.run none rfl
  rw [Regex.Reading.start, Regex.Frame.start, hadds, List.append_nil] at hrun
  obtain ⟨rfl, -⟩ := Regex.Reading.mk.inj (Except.ok.inj hrun)
  exact ⟨rfl, hdenotes⟩

/-- A pattern that compiles can be read by the grammar.  However it is read, its matcher finds the
first place where a match of its expression starts, and none exactly if a match starts nowhere. -/
theorem first_compile (h : compile p magic false = .ok m) :
  (∃ e, Reads magic .alternatives p e [])
    ∧ ∀ e, Reads magic .alternatives p e [] → e.NoStarredEdge → ∀ t : Text, '\n' ∉ t →
      (∀ i, m.first t = some i ↔ IsLeast {i | i ≤ t.length ∧ ∃ j, e.Matches t i j} i)
        ∧ (m.first t = none ↔ ∀ i ≤ t.length, ∀ j, ¬ e.Matches t i j)
  := by
  refine ⟨exists_reads_of_compile h, ?_⟩
  intro e he hedge t ht
  obtain ⟨hcase, hdenotes⟩ := denotes_of_compile h he
  have hmatches : ∀ i ≤ t.length, m.matchesAt t.toArray i = true ↔ ∃ j, e.Matches t i j := by
    intro i hi
    rw [Matcher.matchesAt_iff, hcase]
    apply exists_congr (hdenotes hedge t ht i hi)
  constructor
  · intro i
    have hset : {i | i ≤ t.length ∧ m.matchesAt t.toArray i = true}
        = {i | i ≤ t.length ∧ ∃ j, e.Matches t i j} := by
      ext i
      apply and_congr_right (hmatches i)
    rw [Matcher.first_eq_some_iff, hset]
  · rw [Matcher.first_eq_none_iff]
    apply forall₂_congr
    intro i hi
    rw [← Bool.not_eq_true, hmatches i hi, not_exists]

/-- A word that consists of letters from `b` to `d` up to an `x` or up to the end:
`\<[b-d]*\(x\|$\)`. -/
def wordPattern : Text :=
  ['\\', '<', '[', 'b', '-', 'd', ']', '*', '\\', '(', 'x', '\\', '|', '$', '\\', ')']

/-- The expression of `wordPattern`. -/
def wordExpr : Expr :=
  .seq .wordStart
    (.seq (.star (.set ⟨false, false, [⟨false, 'b'⟩, ⟨false, '-'⟩, ⟨false, 'd'⟩]⟩))
      (.seq (.alt (.seq (.char 'x') .empty) .lineEnd) .empty))

theorem reads_wordPattern :
  Reads true .alternatives wordPattern wordExpr []
  := by
  have hlist : Bracket.Written ⟨false, false, [⟨false, 'b'⟩, ⟨false, '-'⟩, ⟨false, 'd'⟩]⟩
      ('b' :: '-' :: 'd' :: ']' :: wordPattern.drop 7) (wordPattern.drop 7) := by
    constructor
    · decide
    · refine ⟨_, rfl, ?_, by decide⟩
      apply ListRead.bare (by decide) (by decide)
      apply ListRead.bare (by decide) (by decide)
      apply ListRead.bare (by decide) (by decide)
      apply ListRead.close
  have hx : Reads true .branch (wordPattern.drop 10) (.seq (.char 'x') .empty)
      (wordPattern.drop 11) := by
    apply Reads.free (by decide)
    apply Reads.once (Reads.bare (by decide) (by decide) (by decide)) (by decide)
    apply Reads.nil (by decide)
  have hend : Reads true .alternatives (wordPattern.drop 13) .lineEnd (wordPattern.drop 14) := by
    apply Reads.last _ (by decide)
    apply Reads.free (by decide)
    apply Reads.dollar (by decide)
  apply Reads.last _ (by decide)
  apply Reads.free (by decide)
  apply Reads.once (Reads.wordStart _) (by decide)
  apply Reads.starred (Reads.set hlist)
  apply Reads.once (Reads.group (Reads.more hx hend)) (by decide)
  apply Reads.nil (by decide)

/-- In `ab cdx`, the pattern matches first at the start of the second word. -/
theorem first_compile_wordPattern :
  (∃ m, compile wordPattern true false = .ok m ∧ m.first "ab cdx".toList = some 3)
    ∧ wordExpr.NoStarredEdge
    ∧ IsLeast {i | i ≤ "ab cdx".toList.length ∧ ∃ j, wordExpr.Matches "ab cdx".toList i j} 3
  := by
  have hcompile : compile wordPattern true false = .ok ⟨.seq .boundary (.seq .wordAhead
      (.seq (.star (.set ⟨false, [.range 'b' 'd']⟩)) (.group (.alt (.char 'x') .textEnd)))), false⟩ :=
    rfl
  have hfirst : Matcher.first ⟨.seq .boundary (.seq .wordAhead
      (.seq (.star (.set ⟨false, [.range 'b' 'd']⟩)) (.group (.alt (.char 'x') .textEnd)))), false⟩
      "ab cdx".toList = some 3 := by
    decide +kernel
  have hedge : wordExpr.NoStarredEdge := by
    simp [wordExpr, Expr.NoStarredEdge, Expr.IsEdge]
  refine ⟨⟨_, hcompile, hfirst⟩, hedge, ?_⟩
  have hmeaning := (first_compile hcompile).2 wordExpr reads_wordPattern hedge "ab cdx".toList
    (by decide)
  exact (hmeaning.1 3).mp hfirst

end TagNavigator.Pattern
