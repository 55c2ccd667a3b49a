import TagNavigator.Proofs.Tag.CommandEnd

/-!
# Extension fields after a search command

Extension fields are cut off after the first delimiter of a pattern that no backslash escapes, while
the search pattern is closed by the last one of the line.  For a line command, and for a pattern
with one such delimiter only, the two agree and a record means the same with and without extension
fields.  For a pattern with another one inside they do not: nothing is cut off, and the extension
fields are searched for (`ofField_extensionFields`).
-/

namespace TagNavigator.TagCommand

variable {d c : Char} {s t : Text}

/-- The delimiter stands at the place and no backslash escapes it. -/
def Unescaped (d : Char) (t : Text) (i : Nat) : Prop :=
  t[i]? = some d ∧ backslashesAtEnd (t.take i) % 2 = 0

/-- A field without the blanks at its start. -/
def unindented (field : Text) : Text :=
  field.dropWhile fun c => c == ' ' || c == '\t'

/-- A field with a line command. -/
def IsLineCommand (field : Text) : Prop :=
  delimiter? (unindented field) = none

/-- A field with a pattern that encloses the text between an opening and a closing delimiter. -/
structure Encloses (field : Text) (d : Char) (s : Text) : Prop where
  delimiter : isDelimiter d = true
  unindented_eq : unindented field = d :: (s ++ [d])
  even : backslashesAtEnd s % 2 = 0

/-! ### The first delimiter that is not escaped -/

theorem exists_unescaped_pair (hd : isDelimiter d = true) (c : Char) (t : Text) :
  (∃ i, Unescaped d ('\\' :: c :: t) i) ↔ ∃ i, Unescaped d t i
  := by
  constructor
  · rintro ⟨_ | _ | i, hi⟩
    · have hne : '\\' ≠ d := by
        rcases eq_of_isDelimiter hd with rfl | rfl <;> decide
      exact absurd (Option.some.inj hi.1) hne
    · have hodd : backslashesAtEnd ['\\'] % 2 = 1 := rfl
      exact absurd (hodd.symm.trans hi.2) Nat.one_ne_zero
    · refine ⟨i, hi.1, ?_⟩
      rw [← backslashesAtEnd_pair c]
      exact hi.2
  · rintro ⟨i, hi⟩
    refine ⟨i + 2, hi.1, ?_⟩
    rw [List.take_succ_cons, List.take_succ_cons, backslashesAtEnd_pair]
    exact hi.2

theorem exists_unescaped_bare (hc : c ≠ '\\') (t : Text) :
  (∃ i, Unescaped d (c :: t) i) ↔ c = d ∨ ∃ i, Unescaped d t i
  := by
  constructor
  · rintro ⟨_ | i, hi⟩
    · exact .inl (Option.some.inj hi.1)
    · refine .inr ⟨i, hi.1, ?_⟩
      rw [← backslashesAtEnd_bare hc]
      exact hi.2
  · rintro (rfl | ⟨i, hi⟩)
    · exact ⟨0, rfl, rfl⟩
    · refine ⟨i + 1, hi.1, ?_⟩
      rw [List.take_succ_cons, backslashesAtEnd_bare hc]
      exact hi.2

theorem lengthToDelimiter_bare (hc : c ≠ '\\') (hend : Text.isLineEnd c = false) (t : Text) :
  lengthToDelimiter d (c :: t)
    = if c = d then some 1 else (lengthToDelimiter d t).map (· + 1)
  := by
  rw [lengthToDelimiter.eq_def]
  simp [hc, hend]

/-- No delimiter is found exactly if every one is escaped. -/
theorem lengthToDelimiter_eq_none_iff (hd : isDelimiter d = true)
    (ht : ∀ b ∈ t, Text.isLineEnd b = false) :
  lengthToDelimiter d t = none ↔ ¬ ∃ i, Unescaped d t i
  := by
  induction t using pairs_induction with
  | nil => simp [lengthToDelimiter, Unescaped]
  | lone =>
      have hne : '\\' ≠ d := by
        rcases eq_of_isDelimiter hd with rfl | rfl <;> decide
      simp [lengthToDelimiter, Unescaped, List.getElem?_cons, hne]
  | pair c t ih =>
      simp only [List.forall_mem_cons] at ht
      rw [exists_unescaped_pair hd, ← ih ht.2.2, lengthToDelimiter, Option.map_eq_none_iff]
  | bare c t hc ih =>
      rw [List.forall_mem_cons] at ht
      rw [exists_unescaped_bare hc, lengthToDelimiter_bare hc ht.1, not_or, ← ih ht.2]
      split
      · simp_all
      · simp_all

theorem lengthToDelimiter_le {n : Nat} (h : lengthToDelimiter d t = some n) :
  n ≤ t.length
  := by
  fun_induction lengthToDelimiter d t generalizing n with
  | case1 => contradiction
  | case2 c t ih =>
      obtain ⟨m, hm, rfl⟩ := Option.map_eq_some_iff.mp h
      have hle := ih hm
      simp
      omega
  | case3 => contradiction
  | case4 t hquote hc =>
      obtain rfl := Option.some.inj h
      simp
  | case5 => contradiction
  | case6 c t hquote hc hdelimiter hend ih =>
      obtain ⟨m, hm, rfl⟩ := Option.map_eq_some_iff.mp h
      have hle := ih hm
      simp
      omega

/-- The delimiter after a text that ends no escape is the first one if there is none in the text. -/
theorem lengthToDelimiter_append (ht : ∀ b ∈ t, Text.isLineEnd b = false)
    (heven : backslashesAtEnd t % 2 = 0) (u : Text) :
  lengthToDelimiter d (t ++ u)
    = (lengthToDelimiter d t).or ((lengthToDelimiter d u).map (· + t.length))
  := by
  induction t using pairs_induction with
  | nil => simp [lengthToDelimiter]
  | lone => exact absurd heven (by decide)
  | pair c t ih =>
      simp only [List.forall_mem_cons] at ht
      rw [backslashesAtEnd_pair] at heven
      rw [List.cons_append, List.cons_append, lengthToDelimiter, lengthToDelimiter,
        ih ht.2.2 heven]
      cases lengthToDelimiter d t <;> simp [Option.map_map, Function.comp_def, Nat.add_assoc]
  | bare c t hc ih =>
      rw [List.forall_mem_cons] at ht
      rw [backslashesAtEnd_bare hc] at heven
      rw [List.cons_append, lengthToDelimiter_bare hc ht.1, lengthToDelimiter_bare hc ht.1,
        ih ht.2 heven]
      split
      · rfl
      · cases lengthToDelimiter d t <;> simp [Option.map_map, Function.comp_def, Nat.add_assoc]

/-! ### What is cut off -/

theorem before_append_extensionMarker (ht : Text.occurs extensionMarker t = false) (rest : Text) :
  Text.before extensionMarker (t ++ (extensionMarker ++ rest)) = t
  := by
  induction t with
  | nil => rfl
  | cons c t ih =>
      have htail := Text.not_occurs_of_isInfix ht (List.suffix_cons c t).isInfix
      have hnot : extensionMarker.isPrefixOf (c :: (t ++ (extensionMarker ++ rest))) = false := by
        cases t with
        | nil => simp [extensionMarker, List.isPrefixOf]
        | cons e t =>
            simp only [Text.occurs, Bool.or_eq_false_iff] at ht
            simpa [extensionMarker, List.isPrefixOf] using ht.1
      rw [List.cons_append, Text.before, hnot, if_neg Bool.false_ne_true, ih htail]

/-- A line command is cut at the marker. -/
theorem dropExtension_of_delimiter?_eq_none (h : delimiter? t = none)
    (ht : Text.occurs extensionMarker t = false) (rest : Text) :
  dropExtension (t ++ (extensionMarker ++ rest)) = t
  := by
  have hoccurs := occurs_append extensionMarker (by decide) t rest
  have hbefore := before_append_extensionMarker ht rest
  cases t with
  | nil => rfl
  | cons c t =>
      have hc : isDelimiter c = false := by simpa [delimiter?] using h
      rw [List.cons_append] at hoccurs hbefore ⊢
      simp [dropExtension, hoccurs, hc, hbefore]

/-- A pattern is cut at the marker if no delimiter inside it comes first, and otherwise stays. -/
theorem dropExtension_enclosed (hd : isDelimiter d = true)
    (hs : ∀ b ∈ s, Text.isLineEnd b = false) (heven : backslashesAtEnd s % 2 = 0)
    (hmarker : Text.occurs extensionMarker s = false) (rest : Text) :
  dropExtension (d :: (s ++ d :: (extensionMarker ++ rest)))
    = if lengthToDelimiter d s = none then d :: (s ++ [d])
      else d :: (s ++ d :: (extensionMarker ++ rest))
  := by
  have hoccurs :
      Text.occurs extensionMarker (d :: (s ++ d :: (extensionMarker ++ rest))) = true := by
    have h := occurs_append extensionMarker (by decide) (d :: (s ++ [d])) rest
    simpa using h
  have hclosing : lengthToDelimiter d (d :: (extensionMarker ++ rest)) = some 1 := by
    rcases eq_of_isDelimiter hd with rfl | rfl <;> simp [lengthToDelimiter]
  have hmark : d ∉ extensionMarker := by
    rcases eq_of_isDelimiter hd with rfl | rfl <;> decide
  cases hlength : lengthToDelimiter d s with
  | none =>
      simp only [dropExtension, hoccurs, hd, lengthToDelimiter_append hs heven, hlength, hclosing]
      simp [Nat.add_comm 1, List.drop_length_add_append, List.take_length_add_append]
  | some n =>
      have hcut := isPrefixOf_drop_append hmarker hmark (lengthToDelimiter_le hlength)
        (extensionMarker ++ rest)
      simp [dropExtension, hoccurs, hd, lengthToDelimiter_append hs heven, hlength, hcut]

/-! ### The search pattern -/

/-- What a text that ends no escape becomes does not depend on the rest of the line. -/
theorem exists_searchTail_append (hd : isDelimiter d = true) (magic : Bool)
    (ht : ∀ b ∈ t, Text.isLineEnd b = false) (heven : backslashesAtEnd t % 2 = 0) :
  ∃ w, ∀ u, endsLine u = false → searchTail magic d (t ++ u) = w ++ searchTail magic d u
  := by
  induction t using pairs_induction with
  | nil => exact ⟨[], fun u hu => rfl⟩
  | lone => exact absurd heven (by decide)
  | pair c t ih =>
      simp only [List.forall_mem_cons] at ht
      rw [backslashesAtEnd_pair] at heven
      obtain ⟨w, hw⟩ := ih ht.2.2 heven
      refine ⟨if c = '(' then c :: w else '\\' :: c :: w, ?_⟩
      intro u hu
      rw [List.cons_append, List.cons_append, searchTail_pair hd magic ht.2.1, hw u hu]
      split <;> rfl
  | bare c t hc ih =>
      rw [List.forall_mem_cons] at ht
      rw [backslashesAtEnd_bare hc] at heven
      obtain ⟨w, hw⟩ := ih ht.2 heven
      refine ⟨if c = d ∨ (isMagic c && magic) = true then '\\' :: c :: w else c :: w, ?_⟩
      intro u hu
      have hinner : endsLine (t ++ u) = false := by
        cases t with
        | nil => exact hu
        | cons e t => exact ht.2 e List.mem_cons_self
      rw [List.cons_append, searchTail_bare hd magic hc ht.1, hw u hu, hinner]
      simp only [Bool.false_eq_true, and_false, if_false]
      split <;> rfl

theorem exists_searchBody_append (hd : isDelimiter d = true) (magic : Bool)
    (hs : ∀ b ∈ s, Text.isLineEnd b = false) (heven : backslashesAtEnd s % 2 = 0) :
  ∃ w, ∀ u, searchBody magic d (s ++ d :: u) = w ++ searchTail magic d (d :: u)
  := by
  have hplain : d ≠ '^' ∧ Text.isLineEnd d = false := by
    rcases eq_of_isDelimiter hd with rfl | rfl <;> decide
  by_cases hcaret : s.head? = some '^'
  · obtain ⟨v, rfl⟩ := List.head?_eq_some_iff.mp hcaret
    rw [List.forall_mem_cons] at hs
    rw [backslashesAtEnd_bare (by decide)] at heven
    obtain ⟨w, hw⟩ := exists_searchTail_append hd magic hs.2 heven
    refine ⟨'^' :: w, ?_⟩
    intro u
    rw [List.cons_append, searchBody, hw (d :: u) hplain.2]
    rfl
  · obtain ⟨w, hw⟩ := exists_searchTail_append hd magic hs heven
    refine ⟨w, ?_⟩
    intro u
    rw [searchBody_of_head?_ne magic, hw (d :: u) hplain.2]
    cases s with
    | nil => simpa using hplain.1
    | cons c s => exact hcaret

/-- A closing delimiter with extension fields after it is searched for. -/
theorem searchBody_extension_ne (hd : isDelimiter d = true) (magic : Bool)
    (hs : ∀ b ∈ s, Text.isLineEnd b = false) (heven : backslashesAtEnd s % 2 = 0) (rest : Text) :
  searchBody magic d (s ++ d :: (extensionMarker ++ rest)) ≠ searchBody magic d (s ++ [d])
  := by
  obtain ⟨w, hw⟩ := exists_searchBody_append hd magic hs heven
  rw [hw, hw, searchTail_delimiter hd, searchTail_delimiter hd]
  intro h
  have hnil := List.append_cancel_left h
  contradiction

/-! ### The field -/

theorem unindented_append_extension (field rest : Text) :
  unindented (field ++ (extensionMarker ++ rest)) = unindented field ++ (extensionMarker ++ rest)
  := by
  rw [unindented, unindented, List.dropWhile_append]
  split
  · rename_i hblank
    rw [List.isEmpty_iff.mp hblank]
    rfl
  · rfl

theorem ofField_eq_of_dropExtension_eq (magic : Bool)
    (h : dropExtension (unindented s) = dropExtension (unindented t)) :
  ofField magic s = ofField magic t
  := by
  rw [unindented, unindented] at h
  rw [ofField, ofField, h]

theorem ofField_of_dropExtension_eq (hd : isDelimiter d = true) (magic : Bool) {field : Text}
    (h : dropExtension (unindented field) = d :: t) :
  ofField magic field = ⟨d :: searchBody magic d t, true⟩
  := by
  rw [unindented] at h
  rw [ofField, h, toSearch?_eq hd]

/-- After a pattern extension fields change nothing exactly if every delimiter inside it is
escaped. -/
theorem Encloses.ofField_append_eq_iff {field : Text} (h : Encloses field d s)
    (hline : ∀ b ∈ field, Text.isLineEnd b = false)
    (hmarker : Text.occurs extensionMarker field = false) (rest : Text) (magic : Bool) :
  ofField magic (field ++ (extensionMarker ++ rest)) = ofField magic field
    ↔ ¬ ∃ i, Unescaped d s i
  := by
  obtain ⟨hd, hfield, heven⟩ := h
  have hsuffix : d :: (s ++ [d]) <:+ field := by
    rw [← hfield]
    apply List.dropWhile_suffix
  have hinner : s <:+: d :: (s ++ [d]) := ⟨[d], [d], rfl⟩
  have hs : ∀ b ∈ s, Text.isLineEnd b = false :=
    fun b hb => hline b (hsuffix.subset (hinner.subset hb))
  have hmarker' := Text.not_occurs_of_isInfix hmarker hsuffix.isInfix
  have hwhole : dropExtension (unindented field) = d :: (s ++ [d]) := by
    rw [hfield, dropExtension_of_not_occurs hmarker']
  have hcut : dropExtension (unindented (field ++ (extensionMarker ++ rest)))
      = if lengthToDelimiter d s = none then d :: (s ++ [d])
        else d :: (s ++ d :: (extensionMarker ++ rest)) := by
    rw [← dropExtension_enclosed hd hs heven (Text.not_occurs_of_isInfix hmarker' hinner),
      unindented_append_extension, hfield]
    simp
  rw [← lengthToDelimiter_eq_none_iff hd hs]
  by_cases hnone : lengthToDelimiter d s = none
  · rw [if_pos hnone] at hcut
    refine iff_of_true ?_ hnone
    apply ofField_eq_of_dropExtension_eq
    rw [hcut, hwhole]
  · rw [if_neg hnone] at hcut
    refine iff_of_false ?_ hnone
    rw [ofField_of_dropExtension_eq hd magic hwhole, ofField_of_dropExtension_eq hd magic hcut]
    intro heq
    apply searchBody_extension_ne hd magic hs heven rest
    simpa using heq

/-- Extension fields change nothing after a line command. -/
theorem IsLineCommand.ofField_append_eq {field : Text} (h : IsLineCommand field)
    (hmarker : Text.occurs extensionMarker field = false) (rest : Text) (magic : Bool) :
  ofField magic (field ++ (extensionMarker ++ rest)) = ofField magic field
  := by
  have hmarker' : Text.occurs extensionMarker (unindented field) = false :=
    Text.not_occurs_of_isInfix hmarker (List.dropWhile_suffix _).isInfix
  apply ofField_eq_of_dropExtension_eq
  rw [unindented_append_extension, dropExtension_of_delimiter?_eq_none h hmarker',
    dropExtension_of_not_occurs hmarker']

/-- Extension fields, whatever they are, change nothing after a line command.  After a pattern they
change nothing exactly if every delimiter inside it is escaped. -/
theorem ofField_extensionFields {field : Text} (hline : ∀ b ∈ field, Text.isLineEnd b = false)
    (hmarker : Text.occurs extensionMarker field = false) (rest : Text) (magic : Bool) :
  (IsLineCommand field →
      ofField magic (field ++ (extensionMarker ++ rest)) = ofField magic field)
    ∧ ∀ d s, Encloses field d s →
      (ofField magic (field ++ (extensionMarker ++ rest)) = ofField magic field
        ↔ ¬ ∃ i, Unescaped d s i)
  := by
  constructor
  · intro h
    apply h.ofField_append_eq hmarker
  · intro d s h
    apply h.ofField_append_eq_iff hline hmarker

/-- Extension fields after a pattern with an escaped delimiter inside, and after a line number. -/
theorem ofField_extensionFields_escaped :
  (∀ b ∈ "/a\\/b/".toList, Text.isLineEnd b = false)
    ∧ Text.occurs extensionMarker "/a\\/b/".toList = false
    ∧ (∀ b ∈ " 10".toList, Text.isLineEnd b = false)
    ∧ Text.occurs extensionMarker " 10".toList = false
    ∧ Encloses "/a\\/b/".toList '/' "a\\/b".toList
    ∧ IsLineCommand " 10".toList
    ∧ ofField false "/a\\/b/;\"\tf\n".toList = ofField false "/a\\/b/".toList
    ∧ ofField false " 10;\"\tf\n".toList = ofField false " 10".toList
  := by
  have hline : ∀ b ∈ "/a\\/b/".toList, Text.isLineEnd b = false := by simp [Text.isLineEnd]
  have hmarker : Text.occurs extensionMarker "/a\\/b/".toList = false := by decide
  have hline' : ∀ b ∈ " 10".toList, Text.isLineEnd b = false := by simp [Text.isLineEnd]
  have hmarker' : Text.occurs extensionMarker " 10".toList = false := by decide
  have hencloses : Encloses "/a\\/b/".toList '/' "a\\/b".toList := ⟨rfl, rfl, rfl⟩
  have hcommand : IsLineCommand " 10".toList := rfl
  refine ⟨hline, hmarker, hline', hmarker', hencloses, hcommand, ?_, ?_⟩
  · apply ((ofField_extensionFields hline hmarker "\tf\n".toList false).2 _ _ hencloses).mpr
    rw [← lengthToDelimiter_eq_none_iff rfl]
    · rfl
    · simp [Text.isLineEnd]
  · exact (ofField_extensionFields hline' hmarker' "\tf\n".toList false).1 hcommand

/-- Extension fields after a pattern with a bare delimiter inside are searched for. -/
theorem ofField_extensionFields_bare_delimiter :
  (∀ b ∈ "/a/b/".toList, Text.isLineEnd b = false)
    ∧ Text.occurs extensionMarker "/a/b/".toList = false
    ∧ Encloses "/a/b/".toList '/' "a/b".toList
    ∧ ofField true "/a/b/".toList = ⟨"/a\\/b".toList, true⟩
    ∧ ofField true "/a/b/;\"x".toList = ⟨"/a\\/b\\/;\"x".toList, true⟩
  := by
  refine ⟨?_, rfl, ⟨rfl, rfl, rfl⟩, rfl, rfl⟩
  simp [Text.isLineEnd]

end TagNavigator.TagCommand
