import Mathlib.Data.List.Chain
import TagNavigator.Proofs.Pattern.Spelling

/-!
# Patterns that compile

A pattern is refused for two reasons only: its groups are not balanced, or a range in its brackets
ends before it starts (`compile_error_iff`).  `Marks` says what the groups and the brackets of a
pattern are, and `Balanced` which sequences of groups are in order.  Neither refers to how patterns
are compiled.

A star that is an operator always has an item to repeat (`Ready`), so reading the tokens of a pattern
comes to nothing but the number of groups that are open (`run_settle`).
-/

namespace TagNavigator

namespace Regex.Reading

theorem run_append (s : Reading) (toks toks' : List Token) :
  s.run (toks ++ toks') = s.run toks >>= fun s' => s'.run toks'
  := by
  induction toks generalizing s with
  | nil => rfl
  | cons token toks ih =>
      rw [List.cons_append, run, run]
      cases s.step token with
      | error e => rfl
      | ok s' => apply ih

/-- A reading is finished if no group is open. -/
theorem exists_finish_iff (s : Reading) :
  (∃ r, s.finish = .ok r) ↔ s.outer.length = 0
  := by
  rw [finish, List.length_eq_zero_iff, ← List.isEmpty_iff]
  split
  next h => simp [h]
  next h => simp [h]

end Regex.Reading

namespace Pattern

/-! ### Groups and brackets -/

/-- The start or the end of a group, or brackets. -/
inductive Mark where
  | groupOpen
  | groupClose
  | set (b : Bracket)
  deriving DecidableEq

/-- `Marks magic t ms`: the groups and the brackets of the pattern `t` are `ms`, in this order.  What
stands between brackets belongs to them, and a bracket that is not closed is a character. -/
inductive Marks (magic : Bool) : Text → List Mark → Prop where
  | nil : Marks magic [] []
  | groupOpen {t : Text} {ms : List Mark} (h : Marks magic t ms) :
    Marks magic ('\\' :: '(' :: t) (.groupOpen :: ms)
  | groupClose {t : Text} {ms : List Mark} (h : Marks magic t ms) :
    Marks magic ('\\' :: ')' :: t) (.groupClose :: ms)
  | set {t u : Text} {b : Bracket} {ms : List Mark} (hb : b.Written t u) (h : Marks magic u ms) :
    Marks magic (operator magic '[' ++ t) (.set b :: ms)
  | unclosed {t : Text} {ms : List Mark} (hb : ∀ b u, ¬ Bracket.Written b t u)
    (h : Marks magic t ms) : Marks magic (operator magic '[' ++ t) ms
  | pair {c : Char} {t : Text} {ms : List Mark} (hgroup : c ∉ ['(', ')'])
    (hbracket : c = '[' → magic = true) (h : Marks magic t ms) :
    Marks magic ('\\' :: c :: t) ms
  | bare {c : Char} {t : Text} {ms : List Mark} (hquote : c = '\\' → t = [])
    (hbracket : c = '[' → magic = false) (h : Marks magic t ms) : Marks magic (c :: t) ms

/-- No group ends that has not started, and every group that starts ends. -/
structure Balanced (ms : List Mark) : Prop where
  started : ∀ ns, ns <+: ms → ns.count .groupClose ≤ ns.count .groupOpen
  ended : ms.count .groupOpen = ms.count .groupClose

/-- The number of groups that are open after the marks, where `depth` groups are open before them. -/
def depthAfter : (depth : Nat) → List Mark → Except Regex.Malformed Nat
  | depth, [] => .ok depth
  | depth, .groupOpen :: ms => depthAfter (depth + 1) ms
  | 0, .groupClose :: _ => .error .unbalancedClose
  | depth + 1, .groupClose :: ms => depthAfter depth ms
  | depth, .set _ :: ms => depthAfter depth ms

theorem depthAfter_append (depth : Nat) (ms ns : List Mark) :
  depthAfter depth (ms ++ ns) = depthAfter depth ms >>= fun d => depthAfter d ns
  := by
  fun_induction depthAfter depth ms with
  | case1 depth => rfl
  | case2 depth ms ih => exact ih
  | case3 ms => rfl
  | case4 depth ms ih => exact ih
  | case5 depth b ms ih => exact ih

theorem forall_prefix_cons_iff {m : Mark} {ms : List Mark} {P : List Mark → Prop} :
  (∀ ns, ns <+: m :: ms → P ns) ↔ P [] ∧ ∀ ns, ns <+: ms → P (m :: ns)
  := by
  constructor
  · intro h
    refine ⟨h [] List.nil_prefix, ?_⟩
    intro ns hns
    apply h
    apply List.cons_prefix_cons.mpr ⟨rfl, hns⟩
  · rintro ⟨hnil, hcons⟩ ns hns
    rcases List.prefix_cons_iff.mp hns with rfl | ⟨ns, rfl, hprefix⟩
    · apply hnil
    · apply hcons ns hprefix

/-- Groups are open after the marks if each one that ends has started. -/
theorem depthAfter_eq_ok_iff {depth n : Nat} {ms : List Mark} :
  depthAfter depth ms = .ok n
    ↔ (∀ ns, ns <+: ms → ns.count .groupClose ≤ depth + ns.count .groupOpen)
      ∧ depth + ms.count .groupOpen = n + ms.count .groupClose
  := by
  fun_induction depthAfter depth ms with
  | case1 depth => simp
  | case2 depth ms ih =>
      rw [ih, forall_prefix_cons_iff]
      simp [Nat.add_assoc, Nat.add_comm 1]
  | case3 ms =>
      rw [forall_prefix_cons_iff]
      constructor
      · intro h
        contradiction
      · rintro ⟨⟨-, hstarted⟩, -⟩
        have hfirst := hstarted [] List.nil_prefix
        simp at hfirst
  | case4 depth ms ih =>
      rw [ih, forall_prefix_cons_iff]
      simp [Nat.add_right_comm depth 1, ← Nat.add_assoc]
  | case5 depth b ms ih =>
      rw [ih, forall_prefix_cons_iff]
      simp

theorem balanced_iff {ms : List Mark} :
  Balanced ms ↔ depthAfter 0 ms = .ok 0
  := by
  simp only [depthAfter_eq_ok_iff, Nat.zero_add]
  constructor
  · rintro ⟨hstarted, hended⟩
    exact ⟨hstarted, hended⟩
  · rintro ⟨hstarted, hended⟩
    exact ⟨hstarted, hended⟩

/-! ### The marks of atoms -/

/-- The mark that an atom is, if it is one. -/
def Atom.mark? : Atom → Option Mark
  | .groupOpen => some .groupOpen
  | .groupClose => some .groupClose
  | .set b => some (.set b)
  | _ => none

variable {magic : Bool} {t : Text} {ms : List Mark} {prev : Option Atom}

theorem mark?_after (a : Atom) (prev : Option Atom) :
  (a.after prev).mark? = a.mark?
  := by
  cases a with
  | star =>
      rw [Atom.after]
      split <;> rfl
  | caret =>
      rw [Atom.after]
      split <;> rfl
  | dollar closes => cases closes <;> rfl
  | _ => rfl

theorem filterMap_settle (prev : Option Atom) (as : List Atom) :
  (settle prev as).filterMap Atom.mark? = as.filterMap Atom.mark?
  := by
  induction as generalizing prev with
  | nil => rfl
  | cons a as ih => rw [settle, List.filterMap_cons, List.filterMap_cons, mark?_after, ih]

theorem mark?_escapedAtom {c : Char} (hc : c ∉ ['(', ')']) :
  (escapedAtom magic c).mark? = none
  := by
  simp only [List.mem_cons, List.not_mem_nil, or_false, not_or] at hc
  unfold escapedAtom
  cases magic <;> split <;> first | rfl | simp at hc

theorem mark?_plainAtom (c : Char) (t : Text) :
  (plainAtom magic c t).mark? = none
  := by
  unfold plainAtom
  cases magic <;> split <;> rfl

/-- The marks of a pattern are those of its atoms. -/
theorem marks_readFrom (n : Nat) (t : Text) :
  Marks magic (t.drop n) ((readFrom magic n t).filterMap Atom.mark?)
  := by
  fun_induction readFrom magic n t with
  | case1 n =>
      rw [List.drop_nil]
      apply Marks.nil
  | case2 n c t ih => exact ih
  | case3 c t hc b n hb ih =>
      obtain ⟨rfl, rfl⟩ : c = '[' ∧ magic = false := by simpa using hc
      exact Marks.set (written_of_bracket? hb) ih
  | case4 c t hc hb ih =>
      obtain ⟨rfl, rfl⟩ : c = '[' ∧ magic = false := by simpa using hc
      exact Marks.unclosed (bracket?_eq_none_iff.mp hb) ih
  | case5 c t hc ih =>
      have hbracket : c = '[' → magic = true := by simpa using hc
      by_cases hgroup : c ∈ ['(', ')']
      · simp only [List.mem_cons, List.not_mem_nil, or_false] at hgroup
        rcases hgroup with rfl | rfl
        · exact Marks.groupOpen ih
        · exact Marks.groupClose ih
      · rw [List.filterMap_cons, mark?_escapedAtom hgroup]
        exact Marks.pair hgroup hbracket ih
  | case6 c t hquote hc b n hb ih =>
      obtain ⟨rfl, rfl⟩ : c = '[' ∧ magic = true := by simpa using hc
      exact Marks.set (written_of_bracket? hb) ih
  | case7 c t hquote hc hb ih =>
      obtain ⟨rfl, rfl⟩ : c = '[' ∧ magic = true := by simpa using hc
      exact Marks.unclosed (bracket?_eq_none_iff.mp hb) ih
  | case8 c t hquote hc ih =>
      have hbracket : c = '[' → magic = false := by simpa using hc
      rw [List.filterMap_cons, mark?_plainAtom]
      apply Marks.bare (eq_nil_of_not_pair hquote) hbracket ih

/-- A pattern has only one sequence of marks. -/
theorem Marks.eq_filterMap (h : Marks magic t ms) :
  ms = (readFrom magic 0 t).filterMap Atom.mark?
  := by
  induction h with
  | nil => rfl
  | groupOpen h ih =>
      rw [readFrom_escaped (by simp), ih]
      rfl
  | groupClose h ih =>
      rw [readFrom_escaped (by simp), ih]
      rfl
  | set hb h ih =>
      rw [readFrom_set hb, ih]
      rfl
  | unclosed hb h ih =>
      rw [readFrom_unclosed hb, ih]
      rfl
  | pair hgroup hbracket h ih =>
      rw [readFrom_escaped hbracket, List.filterMap_cons, mark?_escapedAtom hgroup, ih]
  | bare hquote hbracket h ih =>
      rw [readFrom_bare hquote hbracket, List.filterMap_cons, mark?_plainAtom, ih]

/-! ### Stars -/

theorem closesHere_of_plainAtom {c : Char} (h : plainAtom magic c t = .dollar true) :
  closesHere t = true
  := by
  unfold plainAtom at h
  split at h
  · contradiction
  · exact Atom.dollar.inj h
  · cases magic <;> contradiction
  · cases magic <;> contradiction
  · contradiction

/-- No star follows where a group, a branch or the pattern ends. -/
theorem head?_readFrom_of_closesHere (h : closesHere t = true) :
  (readFrom magic 0 t).head? ≠ some .star
  := by
  rcases closesHere_iff.mp h with rfl | ⟨u, rfl⟩ | ⟨u, rfl⟩
  · simp [readFrom]
  · rw [List.cons_append, List.singleton_append, readFrom_escaped (by simp)]
    simp [escapedAtom]
  · rw [List.cons_append, List.singleton_append, readFrom_escaped (by simp)]
    simp [escapedAtom]

/-- No star follows a dollar that is an operator. -/
def StarAllowed (a b : Atom) : Prop :=
  a = .dollar true → b ≠ .star

theorem isChain_cons_of_ne {a : Atom} {as : List Atom} (ha : a ≠ .dollar true)
    (h : as.IsChain StarAllowed) :
  (a :: as).IsChain StarAllowed
  := by
  apply List.isChain_cons.mpr ⟨_, h⟩
  intro b _ heq
  contradiction

theorem isChain_readFrom (n : Nat) (t : Text) :
  (readFrom magic n t).IsChain StarAllowed
  := by
  fun_induction readFrom magic n t with
  | case1 n => exact List.IsChain.nil
  | case2 n c t ih => exact ih
  | case3 c t hc b n hb ih => exact isChain_cons_of_ne (by simp) ih
  | case4 c t hc hb ih => exact isChain_cons_of_ne (by simp) ih
  | case5 c t hc ih =>
      apply isChain_cons_of_ne _ ih
      unfold escapedAtom
      cases magic <;> split <;> simp
  | case6 c t hquote hc b n hb ih => exact isChain_cons_of_ne (by simp) ih
  | case7 c t hquote hc hb ih => exact isChain_cons_of_ne (by simp) ih
  | case8 c t hquote hc ih =>
      apply List.isChain_cons.mpr ⟨_, ih⟩
      rintro b hb hdollar rfl
      apply head?_readFrom_of_closesHere (closesHere_of_plainAtom hdollar) hb

/-! ### Reading the tokens -/

/-- The atom is a dollar that is an operator. -/
def IsDollar (prev : Option Atom) : Prop :=
  ∃ closes, prev = some (.dollar closes)

/-- After the atom `prev`, the last item that was read is one that a star can repeat, if a star is an
operator there.  No star that is one follows a dollar. -/
def Ready (prev : Option Atom) (s : Regex.Reading) : Prop :=
  repeatable prev = true → ¬ IsDollar prev → ∃ r before, s.current.items = r :: before ∧ Repeats r

/-- Reading the tokens of an atom comes to the number of groups that are open after it. -/
structure Advances (s : Regex.Reading) (a : Atom) : Prop where
  depth : (fun s' => s'.outer.length) <$> s.run a.tokens = depthAfter s.outer.length a.mark?.toList
  ready : ∀ s', s.run a.tokens = .ok s' → Ready (some a) s'

theorem Advances.of_ok {s s' : Regex.Reading} {a : Atom} (hrun : s.run a.tokens = .ok s')
    (hdepth : depthAfter s.outer.length a.mark?.toList = .ok s'.outer.length)
    (hready : Ready (some a) s') :
  Advances s a
  := by
  constructor
  · rw [hrun, hdepth]
    rfl
  · intro s'' h
    obtain rfl := Except.ok.inj (hrun.symm.trans h)
    exact hready

theorem advances {a : Atom} {s : Regex.Reading} (hready : Ready prev s)
    (hstar : a = .star → repeatable prev = true ∧ ¬ IsDollar prev) :
  Advances s a
  := by
  obtain ⟨⟨branches, items⟩, outer⟩ := s
  cases a with
  | set b => exact Advances.of_ok rfl rfl fun _ _ => ⟨_, _, rfl, repeats_ofSet _⟩
  | groupOpen => exact Advances.of_ok rfl rfl fun h => absurd h (by decide)
  | groupClose =>
      cases outer with
      | nil => exact ⟨rfl, nofun⟩
      | cons f outer => exact Advances.of_ok rfl rfl fun _ _ => ⟨_, _, rfl, fun _ _ => rfl⟩
  | bar => exact Advances.of_ok rfl rfl fun h => absurd h (by decide)
  | caret => exact Advances.of_ok rfl rfl fun h => absurd h (by decide)
  | dollar closes => exact Advances.of_ok rfl rfl fun _ h => absurd ⟨closes, rfl⟩ h
  | star =>
      obtain ⟨r, before, rfl, hrepeats⟩ := hready (hstar rfl).1 (hstar rfl).2
      have hrun : Regex.Reading.run ⟨⟨branches, r :: before⟩, outer⟩ [.star]
          = .ok ⟨⟨branches, .star r :: before⟩, outer⟩ := by
        simp only [Regex.Reading.run, Regex.Reading.step, hrepeats branches before]
        rfl
      exact Advances.of_ok hrun rfl fun h => absurd h (by decide)
  | _ => exact Advances.of_ok rfl rfl fun _ _ => ⟨_, _, rfl, fun _ _ => rfl⟩

theorem eq_dollar_of_after {a : Atom} (h : IsDollar (some (a.after prev))) :
  a = .dollar true
  := by
  obtain ⟨closes, h⟩ := h
  cases a with
  | dollar closes =>
      cases closes with
      | false => cases h
      | true => rfl
  | star =>
      rw [Atom.after] at h
      split at h <;> cases h
  | caret =>
      rw [Atom.after] at h
      split at h <;> cases h
  | _ => cases h

theorem repeatable_of_after {a : Atom} (h : a.after prev = .star) :
  a = .star ∧ repeatable prev = true
  := by
  cases a with
  | star =>
      rw [Atom.after] at h
      split at h
      next hrepeatable => exact ⟨rfl, hrepeatable⟩
      · cases h
  | caret =>
      rw [Atom.after] at h
      split at h <;> cases h
  | dollar closes => cases closes <;> cases h
  | _ => cases h

/-- Reading the tokens of atoms comes to the number of groups that are open after them. -/
theorem run_settle {as : List Atom} {s : Regex.Reading} (hchain : as.IsChain StarAllowed)
    (hready : Ready prev s) (hfirst : IsDollar prev → as.head? ≠ some .star) :
  (fun s' => s'.outer.length) <$> s.run ((settle prev as).flatMap Atom.tokens)
    = depthAfter s.outer.length (as.filterMap Atom.mark?)
  := by
  -- Induction on the atoms; what a star would repeat enters through `Ready`.
  induction as generalizing prev s with
  | nil => rfl
  | cons a as ih =>
      obtain ⟨hnext, hchain⟩ := List.isChain_cons.mp hchain
      have hstar : a.after prev = .star → repeatable prev = true ∧ ¬ IsDollar prev := by
        intro h
        obtain ⟨rfl, hrepeatable⟩ := repeatable_of_after h
        exact ⟨hrepeatable, fun hdollar => hfirst hdollar rfl⟩
      obtain ⟨hdepth, hready⟩ := advances hready hstar
      have hmarks : (a :: as).filterMap Atom.mark?
          = (a.after prev).mark?.toList ++ as.filterMap Atom.mark? := by
        rw [mark?_after, List.filterMap_cons]
        cases a.mark? <;> rfl
      rw [settle, List.flatMap_cons, Regex.Reading.run_append, hmarks, depthAfter_append, ← hdepth]
      cases hrun : s.run (a.after prev).tokens with
      | error e => rfl
      | ok s' =>
          apply ih hchain (hready s' hrun)
          intro hdollar hhead
          apply hnext .star hhead (eq_dollar_of_after hdollar) rfl

/-! ### Compiled patterns -/

/-- A pattern compiles unless a range in its brackets is reversed or its groups are not balanced. -/
theorem exists_compile_iff {ms : List Mark} (ignoreCase : Bool) {p : Text} (h : Marks magic p ms) :
  (∃ m, compile p magic ignoreCase = .ok m) ↔ (∀ b, .set b ∈ ms → ¬ b.Reversed) ∧ Balanced ms
  := by
  have hmarks : (atoms magic p).filterMap Atom.mark? = ms := by
    rw [atoms, filterMap_settle, h.eq_filterMap]
  have hset {b : Bracket} : .set b ∈ atoms magic p ↔ .set b ∈ ms := by
    rw [← hmarks, List.mem_filterMap]
    constructor
    · intro hb
      exact ⟨_, hb, rfl⟩
    · rintro ⟨a, ha, hmark⟩
      cases a <;> cases hmark
      exact ha
  have hdepth : (fun s => s.outer.length) <$> Regex.Reading.start.run
      ((atoms magic p).flatMap Atom.tokens) = depthAfter 0 ms := by
    rw [h.eq_filterMap]
    apply run_settle (isChain_readFrom 0 p)
    · exact fun h => absurd h (by decide)
    · rintro ⟨closes, h⟩
      cases h
  have hparse : (∃ m, compile p magic ignoreCase = .ok m)
      ↔ ∃ r, Regex.parse (source magic p) = .ok r := by
    rw [compile]
    cases Regex.parse (source magic p) with
    | error e => simp
    | ok r => simp
  rw [hparse, balanced_iff, ← hdepth, map_eq_ok_iff]
  simp only [Regex.parse, Regex.ofTokens, bind_eq_ok_iff, tokenize_source_iff, hset]
  constructor
  · rintro ⟨r, _, ⟨hranges, rfl⟩, s, hrun, hfinish⟩
    exact ⟨hranges, s, hrun, s.exists_finish_iff.mp ⟨r, hfinish⟩⟩
  · rintro ⟨hranges, s, hrun, hlength⟩
    obtain ⟨r, hfinish⟩ := s.exists_finish_iff.mpr hlength
    exact ⟨r, _, ⟨hranges, rfl⟩, s, hrun, hfinish⟩

theorem exists_error_iff {p : Text} {ignoreCase : Bool} :
  (∃ reason, compile p magic ignoreCase = .error ⟨p, reason⟩)
    ↔ ¬ ∃ m, compile p magic ignoreCase = .ok m
  := by
  rw [compile]
  cases Regex.parse (source magic p) with
  | error e => simp
  | ok r => simp

/-- The groups and the brackets of a pattern are determined.  The pattern is refused exactly if its
groups are not balanced or a range in its brackets ends before it starts, whatever else it holds. -/
theorem compile_error_iff (magic ignoreCase : Bool) (p : Text) :
  ∃ ms, Marks magic p ms ∧ (∀ ns, Marks magic p ns → ns = ms)
    ∧ ((∃ reason, compile p magic ignoreCase = .error ⟨p, reason⟩)
      ↔ ¬ Balanced ms ∨ ∃ b, .set b ∈ ms ∧ b.Reversed)
  := by
  have hmarks : Marks magic p ((readFrom magic 0 p).filterMap Atom.mark?) := marks_readFrom 0 p
  refine ⟨_, hmarks, fun ns hns => hns.eq_filterMap, ?_⟩
  rw [exists_error_iff, exists_compile_iff ignoreCase hmarks, not_and_or, or_comm]
  simp only [not_forall, not_not, exists_prop]

/-- A reversed range is refused only in brackets that are closed. -/
example : (∃ m, compile "[z-a".toList true false = .ok m)
    ∧ compile "[z-a]".toList true false = .error ⟨"[z-a]".toList, .badRange 'z' 'a'⟩ :=
  ⟨⟨_, rfl⟩, rfl⟩

end Pattern

end TagNavigator
