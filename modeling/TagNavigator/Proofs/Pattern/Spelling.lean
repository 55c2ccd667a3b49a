import TagNavigator.Proofs.Pattern.Reading

/-!
# The two spellings of a pattern

The operators `.`, `*` and `[` are bare in the magic spelling and carry a backslash in the other one.
`respell` takes a pattern from the magic spelling to the other one: it puts a backslash before a bare
operator and drops the one before an operator that carries it.  What stands between brackets is the
same in both spellings and stays as it is.  Either spelling is written as the same regular expression
(`source_respell`).
-/

namespace TagNavigator.Pattern

/-- A character that is an operator either bare or after a backslash. -/
def isOperator (c : Char) : Bool :=
  c == '.' || c == '*' || c == '['

/-- The number of characters after an opening bracket up to the one that closes it, which is
counted too; none if there is no closing bracket. -/
def bracketLength (t : Text) : Nat :=
  match bracket? t with
  | some (_, n) => n
  | none => 0

/-- The pattern of the magic spelling in the other spelling, where the first `skip` characters stand
between brackets. -/
def respellFrom : (skip : Nat) → Text → Text
  | _, [] => []
  | skip + 1, c :: t => c :: respellFrom skip t
  | 0, '\\' :: c :: t => (if isOperator c then [c] else ['\\', c]) ++ respellFrom 0 t
  | 0, c :: t =>
    (if isOperator c then ['\\', c] else [c])
      ++ respellFrom (if c = '[' then bracketLength t else 0) t

/-- The pattern of the magic spelling in the other spelling. -/
def respell (p : Text) : Text :=
  respellFrom 0 p

variable {t u : Text} {c : Char} {b : Bracket} {n : Nat}

/-- A pattern is read in pairs of a backslash and a character, and bare characters. -/
theorem pair_or_bare (t : Text) :
  t = [] ∨ (∃ c u, t = '\\' :: c :: u) ∨ ∃ c u, t = c :: u ∧ (c = '\\' → u = [])
  := by
  rcases t with _ | ⟨c, _ | ⟨d, u⟩⟩
  · exact .inl rfl
  · exact .inr (.inr ⟨c, [], rfl, fun _ => rfl⟩)
  · by_cases hc : c = '\\'
    · exact .inr (.inl ⟨d, u, by rw [hc]⟩)
    · exact .inr (.inr ⟨c, d :: u, rfl, fun h => absurd h hc⟩)

theorem bracketLength_of_some (h : bracket? t = some (b, n)) :
  bracketLength t = n
  := by
  rw [bracketLength, h]

theorem bracketLength_of_none (h : bracket? t = none) :
  bracketLength t = 0
  := by
  rw [bracketLength, h]

/-- A backslash that starts no pair is the last character. -/
theorem eq_nil_of_not_pair (h : ∀ d u, c = '\\' → t = d :: u → False) (hc : c = '\\') :
  t = []
  := by
  cases t with
  | nil => rfl
  | cons d u => exact (h d u hc rfl).elim

theorem ne_of_not_isOperator (h : isOperator c = false) :
  c ≠ '.' ∧ c ≠ '*' ∧ c ≠ '['
  := by
  simpa [isOperator, and_assoc] using h

theorem eq_of_isOperator (h : isOperator c = true) :
  c = '.' ∨ c = '*' ∨ c = '['
  := by
  simpa [isOperator, or_assoc] using h

theorem respellFrom_pair (c : Char) (t : Text) :
  respellFrom 0 ('\\' :: c :: t) = (if isOperator c then [c] else ['\\', c]) ++ respellFrom 0 t
  := rfl

/-- A backslash that nothing follows is a bare character. -/
theorem respellFrom_bare (hc : c = '\\' → t = []) :
  respellFrom 0 (c :: t)
    = (if isOperator c then ['\\', c] else [c])
      ++ respellFrom (if c = '[' then bracketLength t else 0) t
  := by
  rw [respellFrom.eq_def]
  split
  · contradiction
  · contradiction
  next heq =>
    obtain ⟨rfl, rfl⟩ := List.cons.inj heq
    apply absurd (hc rfl) (List.cons_ne_nil _ _)
  next heq =>
    obtain ⟨rfl, rfl⟩ := List.cons.inj heq
    rfl

/-- A character that opens no bracket expression. -/
theorem respellFrom_single (hc : c = '\\' → t = []) (hopen : c = '[' → bracket? t = none) :
  respellFrom 0 (c :: t) = (if isOperator c then ['\\', c] else [c]) ++ respellFrom 0 t
  := by
  have hskip : (if c = '[' then bracketLength t else 0) = 0 := by
    split
    next hbracket => exact bracketLength_of_none (hopen hbracket)
    · rfl
  rw [respellFrom_bare hc, hskip]

theorem respellFrom_plain (hc : c = '\\' → t = []) (hop : isOperator c = false) :
  respellFrom 0 (c :: t) = c :: respellFrom 0 t
  := by
  have hopen : c = '[' → bracket? t = none := fun h => absurd h (ne_of_not_isOperator hop).2.2
  rw [respellFrom_single hc hopen, hop]
  rfl

/-! ### Bracket expressions that are closed -/

/-- What stands in brackets stays as it is. -/
theorem respellFrom_eq_take_append (n : Nat) (t : Text) :
  respellFrom n t = t.take n ++ respellFrom 0 (t.drop n)
  := by
  induction n generalizing t with
  | zero => rfl
  | succ n ih =>
      cases t with
      | nil => rfl
      | cons c t =>
          rw [respellFrom, ih]
          rfl

/-- Whether characters between brackets are closed does not depend on what follows. -/
theorem bracketBody_take_append {cs : List BracketChar} (h : bracketBody t = some (cs, n))
    (u : Text) :
  bracketBody (t.take n ++ u) = some (cs, n)
  := by
  fun_induction bracketBody t generalizing cs n with
  | case1 => contradiction
  | case2 c t ih =>
      obtain ⟨⟨cs', n'⟩, hbody, heq⟩ := Option.map_eq_some_iff.mp h
      obtain ⟨rfl, rfl⟩ := Prod.mk.inj heq
      rw [List.take_succ_cons, List.take_succ_cons, List.cons_append, List.cons_append,
        bracketBody, ih hbody]
      rfl
  | case3 t hquote =>
      obtain ⟨rfl, rfl⟩ := Prod.mk.inj (Option.some.inj h)
      simp [bracketBody]
  | case4 c t hquote hclose ih =>
      obtain ⟨⟨cs', n'⟩, hbody, heq⟩ := Option.map_eq_some_iff.mp h
      obtain ⟨rfl, rfl⟩ := Prod.mk.inj heq
      have hne : c ≠ '\\' := by
        intro hc
        rw [eq_nil_of_not_pair hquote hc] at hbody
        contradiction
      rw [List.take_succ_cons, List.cons_append, bracketBody.eq_def]
      simp [hne, hclose, ih hbody]

theorem pos_of_bracketBody {cs : List BracketChar} (h : bracketBody t = some (cs, n)) :
  0 < n ∧ t ≠ []
  := by
  have hlt := (listRead_of_bracketBody h).length_lt
  rw [List.length_drop] at hlt
  constructor
  · omega
  · rintro rfl
    contradiction

theorem head?_take_append (hn : 0 < n) (hne : t ≠ []) (u : Text) :
  (t.take n ++ u).head? = t.head?
  := by
  obtain ⟨d, t, rfl⟩ := List.exists_cons_of_ne_nil hne
  obtain ⟨m, rfl⟩ := Nat.exists_eq_succ_of_ne_zero (Nat.ne_of_gt hn)
  rfl

/-- Whether a bracket expression is closed does not depend on what follows it. -/
theorem bracket?_take_append (h : bracket? t = some (b, n)) (u : Text) :
  bracket? (t.take n ++ u) = some (b, n)
  := by
  obtain ⟨s, m, rfl, hcaret, hclosing, hbody, rfl⟩ := bracket?_eq_some_iff.mp h
  obtain ⟨hm, hs⟩ := pos_of_bracketBody hbody
  have hne : b.opening ++ s ≠ [] := List.append_ne_nil_of_right_ne_nil _ hs
  apply bracket?_eq_some_iff.mpr
  refine ⟨s.take m ++ u, m, ?_, ?_, ?_, bracketBody_take_append hbody u, rfl⟩
  · rw [List.take_length_add_append, List.append_assoc]
  · rw [head?_take_append (Nat.add_pos_right _ hm) hne]
    exact hcaret
  · rw [head?_take_append hm hs]
    exact hclosing

/-! ### Brackets that are not closed -/

/-- A character other than a closing bracket does not close brackets. -/
theorem bracketBody_cons_eq_none_iff (hclose : c ≠ ']') (hc : c ≠ '\\') :
  bracketBody (c :: t) = none ↔ bracketBody t = none
  := by
  rw [bracketBody.eq_def]
  simp [hclose, hc]

theorem bracketBody_pair_eq_none_iff (c : Char) (t : Text) :
  bracketBody ('\\' :: c :: t) = none ↔ bracketBody t = none
  := by
  simp [bracketBody]

theorem skipOne_eq_of_bracketBody (h : bracketBody t = none) :
  skipOne ']' t = (false, t)
  := by
  apply skipOne_eq_iff.mpr
  refine ⟨rfl, ?_⟩
  intro _ hhead
  obtain ⟨u, rfl⟩ := List.head?_eq_some_iff.mp hhead
  simp [bracketBody] at h

/-- Where no closing bracket follows, no bracket expression does. -/
theorem bracket?_of_bracketBody (h : bracketBody t = none) :
  bracket? t = none
  := by
  obtain ⟨negated, t₁, hcaret⟩ : ∃ negated t₁, skipOne '^' t = (negated, t₁) := ⟨_, _, rfl⟩
  have hbody : bracketBody t₁ = none := by
    obtain ⟨rfl, -⟩ := skipOne_eq_iff.mp hcaret
    cases negated with
    | false => exact h
    | true => exact (bracketBody_cons_eq_none_iff (by decide) (by decide)).mp h
  simp [bracket?, hcaret, skipOne_eq_of_bracketBody hbody, hbody]

/-- Where no closing bracket follows, none does in the other spelling. -/
theorem bracketBody_respellFrom (h : bracketBody t = none) :
  bracketBody (respellFrom 0 t) = none
  := by
  fun_induction bracketBody t with
  | case1 => rfl
  | case2 c t ih =>
      have hrest := ih (Option.map_eq_none_iff.mp h)
      rw [respellFrom_pair]
      cases hop : isOperator c with
      | true =>
          obtain rfl | rfl | rfl := eq_of_isOperator hop
          all_goals exact (bracketBody_cons_eq_none_iff (by decide) (by decide)).mpr hrest
      | false => exact (bracketBody_pair_eq_none_iff c _).mpr hrest
  | case3 t hquote => contradiction
  | case4 c t hquote hclose ih =>
      have hrest := ih (Option.map_eq_none_iff.mp h)
      have hlone := eq_nil_of_not_pair hquote
      have hopen : c = '[' → bracket? t = none :=
        fun _ => bracket?_of_bracketBody (Option.map_eq_none_iff.mp h)
      rw [respellFrom_single hlone hopen]
      cases isOperator c with
      | true => exact (bracketBody_pair_eq_none_iff c _).mpr hrest
      | false =>
          by_cases hc : c = '\\'
          · rw [hlone hc, hc]
            rfl
          · exact (bracketBody_cons_eq_none_iff hclose hc).mpr hrest

theorem skipOne_of_ne {d : Char} (h : d ≠ c) (t : Text) :
  skipOne c (d :: t) = (false, d :: t)
  := by
  rw [skipOne, if_neg h]

/-- A caret or a closing bracket at the start is one in the other spelling. -/
theorem skipOne_respellFrom (hc : c ≠ '\\') (hop : isOperator c = false) (t : Text) :
  skipOne c (respellFrom 0 t) = ((skipOne c t).1, respellFrom 0 (skipOne c t).2)
  := by
  have hne {d : Char} (hd : isOperator d = true) : d ≠ c := by
    rintro rfl
    rw [hop] at hd
    contradiction
  have hquote : '\\' ≠ c := Ne.symm hc
  rcases pair_or_bare t with rfl | ⟨d, t, rfl⟩ | ⟨d, t, rfl, hlone⟩
  · rfl
  · rw [skipOne_of_ne hquote, respellFrom_pair]
    cases hd : isOperator d with
    | true => exact skipOne_of_ne (hne hd) _
    | false => exact skipOne_of_ne hquote _
  · by_cases heq : d = c
    · subst heq
      rw [respellFrom_plain hlone hop]
      simp [skipOne]
    · rw [skipOne_of_ne heq, respellFrom_bare hlone]
      cases hd : isOperator d with
      | true => exact skipOne_of_ne hquote _
      | false => exact skipOne_of_ne heq _

/-- A bracket that is not closed is not closed in the other spelling. -/
theorem bracket?_respellFrom (h : bracket? t = none) :
  bracket? (respellFrom 0 t) = none
  := by
  simp only [bracket?, Option.map_eq_none_iff] at h ⊢
  rw [skipOne_respellFrom (by decide) (by decide), skipOne_respellFrom (by decide) (by decide)]
  exact bracketBody_respellFrom h

/-! ### Atoms -/

theorem closesHere_cons (hc : c ≠ '\\') (t : Text) :
  closesHere (c :: t) = false
  := by
  rw [closesHere.eq_def]
  simp [hc]

/-- A group, a branch or the pattern ends at the same places in both spellings. -/
theorem closesHere_respellFrom (t : Text) :
  closesHere (respellFrom 0 t) = closesHere t
  := by
  rcases pair_or_bare t with rfl | ⟨c, t, rfl⟩ | ⟨c, t, rfl, hlone⟩
  · rfl
  · rw [respellFrom_pair]
    cases hop : isOperator c with
    | true =>
        obtain rfl | rfl | rfl := eq_of_isOperator hop
        all_goals rfl
    | false => rfl
  · by_cases hc : c = '\\'
    · rw [hlone hc, hc]
      rfl
    · rw [closesHere_cons hc, respellFrom_bare hlone]
      cases hop : isOperator c with
      | true =>
          obtain rfl | rfl | rfl := eq_of_isOperator hop
          all_goals rfl
      | false => exact closesHere_cons hc _

/-- An operator that is written in the wrong way for the spelling stands for itself. -/
theorem escapedAtom_of_isOperator (h : isOperator c = true) :
  escapedAtom true c = .char c
  := by
  obtain rfl | rfl | rfl := eq_of_isOperator h
  all_goals rfl

theorem plainAtom_of_isOperator (h : isOperator c = true) (t : Text) :
  plainAtom false c t = .char c
  := by
  obtain rfl | rfl | rfl := eq_of_isOperator h
  all_goals rfl

/-- Other characters are read alike in both spellings. -/
theorem escapedAtom_of_not_isOperator (h : isOperator c = false) :
  escapedAtom false c = escapedAtom true c
  := by
  obtain ⟨hdot, hstar, -⟩ := ne_of_not_isOperator h
  unfold escapedAtom
  split
  · rfl
  · rfl
  · rfl
  · rfl
  · rfl
  · rfl
  · contradiction
  · contradiction
  · rfl

theorem plainAtom_of_not_isOperator (h : isOperator c = false) {t u : Text}
    (hcloses : closesHere t = closesHere u) :
  plainAtom false c t = plainAtom true c u
  := by
  obtain ⟨hdot, hstar, -⟩ := ne_of_not_isOperator h
  unfold plainAtom
  rw [hcloses]
  split
  · rfl
  · rfl
  · contradiction
  · contradiction
  · rfl

theorem readFrom_bracket (magic : Bool) (h : bracket? t = some (b, n)) :
  readFrom magic 0 (operator magic '[' ++ t) = .set b :: readFrom magic n t
  := by
  rw [readFrom_set (written_of_bracket? h), ← readFrom_skip]

/-- A bare operator is read as the operator with a backslash in the other spelling. -/
theorem readFrom_operator (hop : isOperator c = true) {k : Nat}
    (hk : k = if c = '[' then bracketLength t else 0)
    (h : readFrom false k (respellFrom k t) = readFrom true k t) :
  readFrom false 0 (operator false c ++ respellFrom k t) = readFrom true 0 (operator true c ++ t)
  := by
  obtain rfl | rfl | rfl := eq_of_isOperator hop
  · obtain rfl : k = 0 := by simpa using hk
    rw [readFrom_any, readFrom_any, h]
  · obtain rfl : k = 0 := by simpa using hk
    rw [readFrom_star, readFrom_star, h]
  · rw [if_pos rfl] at hk
    cases hb : bracket? t with
    | none =>
        rw [bracketLength_of_none hb] at hk
        subst hk
        have hnone := bracket?_respellFrom hb
        rw [readFrom_unclosed (bracket?_eq_none_iff.mp hb),
          readFrom_unclosed (bracket?_eq_none_iff.mp hnone), h]
    | some r =>
        obtain ⟨b, n⟩ := r
        rw [bracketLength_of_some hb] at hk
        subst hk
        have hsome : bracket? (respellFrom k t) = some (b, k) := by
          rw [respellFrom_eq_take_append]
          exact bracket?_take_append hb _
        rw [readFrom_bracket true hb, readFrom_bracket false hsome, h]

/-- Both spellings are read as the same atoms. -/
theorem readFrom_respellFrom (n : Nat) (t : Text) :
  readFrom false n (respellFrom n t) = readFrom true n t
  := by
  fun_induction respellFrom n t with
  | case1 n => cases n <;> rfl
  | case2 n c t ih => exact ih
  | case3 c t ih =>
      rw [readFrom_escaped (fun _ => rfl)]
      cases hop : isOperator c with
      | true =>
          have hlone : c = '\\' → respellFrom 0 t = [] := by
            rintro rfl
            contradiction
          rw [if_pos rfl, List.singleton_append, readFrom_bare hlone (fun _ => rfl),
            plainAtom_of_isOperator hop, escapedAtom_of_isOperator hop, ih]
      | false =>
          have hbracket : c = '[' → false = true := fun h => absurd h (ne_of_not_isOperator hop).2.2
          rw [if_neg (by simp), List.cons_append, List.singleton_append, readFrom_escaped hbracket,
            escapedAtom_of_not_isOperator hop, ih]
  | case4 c t hquote ih =>
      cases hop : isOperator c with
      | true => exact readFrom_operator hop rfl ih
      | false =>
          obtain ⟨-, -, hbracket⟩ := ne_of_not_isOperator hop
          have hlone := eq_nil_of_not_pair hquote
          have hlone' : c = '\\' → respellFrom 0 t = [] := by
            intro hc
            rw [hlone hc]
            rfl
          rw [if_neg hbracket] at ih ⊢
          rw [if_neg (by simp), List.singleton_append, readFrom_bare hlone (absurd · hbracket),
            readFrom_bare hlone' (fun _ => rfl), ih,
            plainAtom_of_not_isOperator hop (closesHere_respellFrom t)]

/-- Both spellings of a pattern are written as the same regular expression. -/
theorem source_respell (p : Text) :
  source false (respell p) = source true p
  := by
  rw [source, atoms, respell, readFrom_respellFrom, source, atoms]

/-- Brackets that are closed stay as they are; a bracket that is not closed is an operator too. -/
example : respell "^[.*]\\[.*[a".toList = "^\\[.*][\\.\\*\\[a".toList := by decide

end TagNavigator.Pattern
