import TagNavigator.Proofs.Tag.CommandSpelling

/-!
# The end of a search command

A line end after a search command becomes the closing delimiter of its search pattern, and the
closing delimiter is left out of the pattern again.  So a record means the same with and without a
line end after it, unless its pattern ends in a backslash that escapes nothing: that one then
escapes the delimiter, which stays (`pattern?_ofField_lineEnd`).

Texts are read by pairs of a backslash and the character after it.  What is proved here is proved by
induction on these pairs.
-/

namespace TagNavigator

theorem Text.occurs_iff_isInfix {mark t : Text} :
  Text.occurs mark t = true ↔ mark <:+: t
  := by
  induction t with
  | nil => simp [Text.occurs]
  | cons c t ih => simp [Text.occurs, List.infix_cons_iff, ih]

theorem Text.not_occurs_of_isInfix {mark t u : Text} (h : Text.occurs mark t = false)
    (hu : u <:+: t) :
  Text.occurs mark u = false
  := by
  rw [← Bool.not_eq_true, Text.occurs_iff_isInfix] at h ⊢
  exact fun hin => h (hin.trans hu)

namespace TagCommand

variable {d c : Char} {s t : Text}

/-- Induction on a text that is read by pairs of a backslash and the character after it.  A
backslash that is the last character stands alone. -/
@[elab_as_elim]
theorem pairs_induction {motive : Text → Prop} (nil : motive []) (lone : motive ['\\'])
    (pair : ∀ c t, motive t → motive ('\\' :: c :: t))
    (bare : ∀ c t, c ≠ '\\' → motive t → motive (c :: t)) (t : Text) :
  motive t
  := by
  match t with
  | [] => exact nil
  | [c] =>
      by_cases hc : c = '\\'
      · rw [hc]
        exact lone
      · exact bare c [] hc nil
  | c :: e :: t =>
      by_cases hc : c = '\\'
      · rw [hc]
        exact pair e t (pairs_induction nil lone pair bare t)
      · exact bare c (e :: t) hc (pairs_induction nil lone pair bare (e :: t))

/-! ### The marker of extension fields -/

/-- Where a character that is not in it follows, a mark starts nowhere else than in the text
alone. -/
theorem isPrefixOf_drop_append {mark : Text} (hmark : Text.occurs mark t = false) (hc : c ∉ mark)
    {n : Nat} (hn : n ≤ t.length) (u : Text) :
  mark.isPrefixOf ((t ++ c :: u).drop n) = false
  := by
  rw [← Bool.not_eq_true, Text.occurs_iff_isInfix] at hmark
  rw [← Bool.not_eq_true, List.isPrefixOf_iff_prefix, List.drop_append_of_le_length hn,
    List.append_cons]
  intro h
  rcases List.prefix_or_prefix_of_prefix h (List.prefix_append (t.drop n ++ [c]) u) with hin | hover
  · rcases List.prefix_concat_iff.mp hin with heq | hbefore
    · apply hc
      rw [heq]
      simp
    · apply hmark
      exact hbefore.isInfix.trans (List.drop_suffix n t).isInfix
  · apply hc
    apply hover.subset
    simp

theorem dropExtension_of_not_occurs (h : Text.occurs extensionMarker t = false) :
  dropExtension t = t
  := by
  simp [dropExtension, h]

/-- No extension fields are cut off before a line end that follows a text without their marker. -/
theorem exists_dropExtension_lineEnd (hd : isDelimiter d = true)
    (hmarker : Text.occurs extensionMarker t = false) (hc : Text.isLineEnd c = true) (u : Text) :
  ∃ v, dropExtension (d :: (t ++ c :: u)) = d :: (t ++ c :: v)
  := by
  have hmark : c ∉ extensionMarker := by
    intro hmem
    simp only [extensionMarker, List.mem_cons, List.not_mem_nil, or_false] at hmem
    rcases hmem with rfl | rfl <;> contradiction
  have hwhole : ∃ v, d :: (t ++ c :: u) = d :: (t ++ c :: v) := ⟨u, rfl⟩
  unfold dropExtension
  split
  · exact hwhole
  · simp only [if_pos hd]
    split
    · rename_i n hn
      split
      · rename_i hcut
        have hlength : t.length < n := by
          by_contra hle
          rw [isPrefixOf_drop_append hmarker hmark (Nat.le_of_not_lt hle)] at hcut
          contradiction
        obtain ⟨k, rfl⟩ := Nat.exists_eq_add_of_lt hlength
        refine ⟨u.take k, ?_⟩
        rw [Nat.add_assoc, List.take_length_add_append, List.take_succ_cons]
      · exact hwhole
    · exact hwhole

/-! ### The search pattern by pairs -/

/-- A backslash before a parenthesis goes, another pair stays. -/
theorem searchTail_pair (hd : isDelimiter d = true) (magic : Bool)
    (hend : Text.isLineEnd c = false) (t : Text) :
  searchTail magic d ('\\' :: c :: t)
    = if c = '(' then c :: searchTail magic d t else '\\' :: c :: searchTail magic d t
  := by
  rw [searchTail, hend]
  split
  · rename_i hparen
    subst hparen
    apply searchTail_plain
    · decide
    · rcases eq_of_isDelimiter hd with rfl | rfl <;> decide
    · rfl
    · rfl
  · rfl

/-- A delimiter at the end of the line goes, another one is escaped like an operator. -/
theorem searchTail_bare (hd : isDelimiter d = true) (magic : Bool) (hc : c ≠ '\\')
    (hend : Text.isLineEnd c = false) (t : Text) :
  searchTail magic d (c :: t)
    = if c = d ∧ endsLine t = true then searchTail magic d t
      else if c = d ∨ (isMagic c && magic) = true then '\\' :: c :: searchTail magic d t
      else c :: searchTail magic d t
  := by
  by_cases hdelimiter : c = d
  · rw [hdelimiter, searchTail_delimiter hd]
    simp
  · rw [searchTail.eq_def]
    simp [hc, hend, hdelimiter]

theorem endsLine_append_lineEnd (hc : Text.isLineEnd c = true) (t u : Text) :
  endsLine (t ++ c :: u) = endsLine t
  := by
  cases t with
  | nil => exact hc
  | cons e t => rfl

/-- A line end becomes the delimiter, and ends the search pattern. -/
theorem searchTail_append_lineEnd (hd : isDelimiter d = true) (magic : Bool)
    (ht : ∀ b ∈ t, Text.isLineEnd b = false) (hc : Text.isLineEnd c = true) (u : Text) :
  searchTail magic d (t ++ c :: u) = searchTail magic d t ++ [d]
  := by
  induction t using pairs_induction with
  | nil => apply searchTail_cons_lineEnd magic hc
  | lone => apply searchTail_pair_lineEnd magic hc
  | pair e t ih =>
      simp only [List.forall_mem_cons] at ht
      obtain ⟨-, he, ht⟩ := ht
      rw [List.cons_append, List.cons_append, searchTail_pair hd magic he,
        searchTail_pair hd magic he, ih ht]
      split <;> rfl
  | bare e t hquote ih =>
      rw [List.forall_mem_cons] at ht
      rw [List.cons_append, searchTail_bare hd magic hquote ht.1,
        searchTail_bare hd magic hquote ht.1, endsLine_append_lineEnd hc, ih ht.2]
      split
      · rfl
      · split <;> rfl

/-- Without a line end a search pattern has no closing delimiter. -/
theorem withoutClosing_searchTail (hd : isDelimiter d = true) (magic : Bool)
    (ht : ∀ b ∈ t, Text.isLineEnd b = false) :
  withoutClosing d (searchTail magic d t) = searchTail magic d t
  := by
  induction t using pairs_induction with
  | nil => rfl
  | lone => rcases eq_of_isDelimiter hd with rfl | rfl <;> rfl
  | pair c t ih =>
      simp only [List.forall_mem_cons] at ht
      obtain ⟨-, hc, ht⟩ := ht
      rw [searchTail_pair hd magic hc]
      split
      · rename_i hparen
        have hne : c ≠ d := by
          rintro rfl
          rw [hparen] at hd
          contradiction
        rw [withoutClosing_bare (by rw [hparen]; decide), if_neg fun h => hne h.1, ih ht]
      · rw [withoutClosing_pair, ih ht]
  | bare c t hquote ih =>
      rw [List.forall_mem_cons] at ht
      rw [searchTail_bare hd magic hquote ht.1]
      split
      · exact ih ht.2
      · split
        · rw [withoutClosing_pair, ih ht.2]
        · rename_i hplain
          rw [withoutClosing_bare hquote, if_neg fun h => hplain (.inl h.1), ih ht.2]

/-- A search pattern ends in a backslash that escapes nothing exactly if the field does. -/
theorem backslashesAtEnd_searchTail (hd : isDelimiter d = true) (magic : Bool)
    (ht : ∀ b ∈ t, Text.isLineEnd b = false) :
  backslashesAtEnd (searchTail magic d t) % 2 = backslashesAtEnd t % 2
  := by
  induction t using pairs_induction with
  | nil => rfl
  | lone => rfl
  | pair c t ih =>
      simp only [List.forall_mem_cons] at ht
      obtain ⟨-, hc, ht⟩ := ht
      rw [searchTail_pair hd magic hc, backslashesAtEnd_pair]
      split
      · rename_i hparen
        rw [backslashesAtEnd_bare (by rw [hparen]; decide), ih ht]
      · rw [backslashesAtEnd_pair, ih ht]
  | bare c t hquote ih =>
      rw [List.forall_mem_cons] at ht
      rw [searchTail_bare hd magic hquote ht.1, backslashesAtEnd_bare hquote, ← ih ht.2]
      split
      · rfl
      · split
        · rw [backslashesAtEnd_pair]
        · rw [backslashesAtEnd_bare hquote]

/-! ### The search pattern of a field -/

/-- The search pattern after its delimiter. A caret at the start of it stays. -/
def searchBody (magic : Bool) (d : Char) : Text → Text
  | '^' :: t => '^' :: searchTail magic d t
  | t => searchTail magic d t

theorem searchBody_of_head?_ne (magic : Bool) (ht : t.head? ≠ some '^') :
  searchBody magic d t = searchTail magic d t
  := by
  unfold searchBody
  split
  · contradiction
  · rfl

theorem toSearch?_eq (hd : isDelimiter d = true) (magic : Bool) (t : Text) :
  toSearch? magic (d :: t) = some (d :: searchBody magic d t)
  := by
  by_cases hcaret : t.head? = some '^'
  · obtain ⟨v, rfl⟩ := List.head?_eq_some_iff.mp hcaret
    apply toSearch?_caret hd
  · rw [toSearch?_of_head?_ne hd magic hcaret, searchBody_of_head?_ne magic hcaret]

theorem searchBody_append_lineEnd (hd : isDelimiter d = true) (magic : Bool)
    (ht : ∀ b ∈ t, Text.isLineEnd b = false) (hc : Text.isLineEnd c = true) (u : Text) :
  searchBody magic d (t ++ c :: u) = searchBody magic d t ++ [d]
  := by
  by_cases hcaret : t.head? = some '^'
  · obtain ⟨v, rfl⟩ := List.head?_eq_some_iff.mp hcaret
    rw [List.forall_mem_cons] at ht
    rw [List.cons_append, searchBody, searchBody, searchTail_append_lineEnd hd magic ht.2 hc]
    rfl
  · have happend : (t ++ c :: u).head? ≠ some '^' := by
      cases t with
      | nil =>
          rintro ⟨⟩
          exact absurd hc (by decide)
      | cons e t => exact hcaret
    rw [searchBody_of_head?_ne magic happend, searchBody_of_head?_ne magic hcaret,
      searchTail_append_lineEnd hd magic ht hc]

theorem withoutClosing_searchBody (hd : isDelimiter d = true) (magic : Bool)
    (ht : ∀ b ∈ t, Text.isLineEnd b = false) :
  withoutClosing d (searchBody magic d t) = searchBody magic d t
  := by
  unfold searchBody
  split
  · have hne : '^' ≠ d := by
      rcases eq_of_isDelimiter hd with rfl | rfl <;> decide
    rw [List.forall_mem_cons] at ht
    rw [withoutClosing_bare (by decide), if_neg fun h => hne h.1,
      withoutClosing_searchTail hd magic ht.2]
  · apply withoutClosing_searchTail hd magic ht

theorem backslashesAtEnd_searchBody (hd : isDelimiter d = true) (magic : Bool)
    (ht : ∀ b ∈ t, Text.isLineEnd b = false) :
  backslashesAtEnd (searchBody magic d t) % 2 = backslashesAtEnd t % 2
  := by
  unfold searchBody
  split
  · rw [List.forall_mem_cons] at ht
    rw [backslashesAtEnd_bare (by decide), backslashesAtEnd_bare (by decide),
      backslashesAtEnd_searchTail hd magic ht.2]
  · apply backslashesAtEnd_searchTail hd magic ht

/-! ### The line end -/

/-- A field without a line end gives its whole search pattern. -/
theorem pattern?_ofField_of_not_occurs (hd : isDelimiter d = true) (magic : Bool)
    (ht : ∀ b ∈ t, Text.isLineEnd b = false)
    (hmarker : Text.occurs extensionMarker (d :: t) = false) :
  (ofField magic (d :: t)).pattern? = some (d, searchBody magic d t)
  := by
  rw [pattern?_ofField hd (s := searchBody magic d t), withoutClosing_searchBody hd magic ht]
  rw [dropExtension_of_not_occurs hmarker, toSearch?_eq hd]

/-- With a line end after it, the field gives the same pattern, or the same one with the delimiter
after a backslash that escapes nothing. -/
theorem pattern?_ofField_append_lineEnd (hd : isDelimiter d = true) (magic : Bool)
    (ht : ∀ b ∈ t, Text.isLineEnd b = false)
    (hmarker : Text.occurs extensionMarker (d :: t) = false) (hc : Text.isLineEnd c = true)
    (u : Text) :
  (ofField magic (d :: (t ++ c :: u))).pattern?
    = some (d, if backslashesAtEnd t % 2 = 0 then searchBody magic d t
        else searchBody magic d t ++ [d])
  := by
  have hinner := Text.not_occurs_of_isInfix hmarker (List.suffix_cons d t).isInfix
  obtain ⟨v, hdrop⟩ := exists_dropExtension_lineEnd hd hinner hc u
  rw [pattern?_ofField hd (s := searchBody magic d t ++ [d]), withoutClosing_append,
    backslashesAtEnd_searchBody hd magic ht]
  · simp
  · rw [hdrop, toSearch?_eq hd, searchBody_append_lineEnd hd magic ht hc]

/-- A line end after a search command, whatever follows it, leaves its pattern as it is exactly if
an even number of backslashes stands before it.  Otherwise the last of them escapes the delimiter
that the line end becomes, and the pattern ends in it. -/
theorem pattern?_ofField_lineEnd (hd : isDelimiter d = true)
    (ht : ∀ b ∈ t, Text.isLineEnd b = false)
    (hmarker : Text.occurs extensionMarker (d :: t) = false) (hc : Text.isLineEnd c = true)
    (u : Text) (magic : Bool) :
  ((ofField magic (d :: (t ++ c :: u))).pattern? = (ofField magic (d :: t)).pattern?
      ↔ backslashesAtEnd t % 2 = 0)
    ∧ ∃ p, (ofField magic (d :: t)).pattern? = some (d, p)
      ∧ (backslashesAtEnd t % 2 = 1
          → (ofField magic (d :: (t ++ c :: u))).pattern? = some (d, p ++ [d]))
  := by
  have hline := pattern?_ofField_append_lineEnd hd magic ht hmarker hc u
  have hfield := pattern?_ofField_of_not_occurs hd magic ht hmarker
  rw [hline, hfield]
  constructor
  · by_cases heven : backslashesAtEnd t % 2 = 0
    · simp [heven]
    · simp [heven]
  · refine ⟨_, rfl, ?_⟩
    intro hodd
    simp [hodd]

/-- A carriage return and a line feed after two backslashes change nothing. -/
theorem pattern?_ofField_lineEnd_escaped :
  isDelimiter '/' = true ∧ (∀ b ∈ "^a\\\\".toList, Text.isLineEnd b = false)
    ∧ Text.occurs extensionMarker "/^a\\\\".toList = false ∧ Text.isLineEnd '\r' = true
    ∧ backslashesAtEnd "^a\\\\".toList % 2 = 0
    ∧ (ofField true "/^a\\\\\r\n".toList).pattern? = (ofField true "/^a\\\\".toList).pattern?
  := by
  have hd : isDelimiter '/' = true := by decide
  have ht : ∀ b ∈ "^a\\\\".toList, Text.isLineEnd b = false := by simp [Text.isLineEnd]
  have hmarker : Text.occurs extensionMarker "/^a\\\\".toList = false := by decide
  have hc : Text.isLineEnd '\r' = true := by decide
  have heven : backslashesAtEnd "^a\\\\".toList % 2 = 0 := by decide
  exact ⟨hd, ht, hmarker, hc, heven,
    (pattern?_ofField_lineEnd hd ht hmarker hc ['\n'] true).1.mpr heven⟩

/-- A line feed after one backslash is taken into the pattern as a delimiter. -/
theorem pattern?_ofField_lone_backslash :
  (∀ b ∈ "/a\\".toList, Text.isLineEnd b = false)
    ∧ Text.occurs extensionMarker "/a\\".toList = false
    ∧ (ofField true "/a\\".toList).pattern? = some ('/', "a\\".toList)
    ∧ (ofField true "/a\\\n".toList).pattern? = some ('/', "a\\/".toList)
  := by
  refine ⟨?_, rfl, rfl, rfl⟩
  simp [Text.isLineEnd]

end TagCommand

end TagNavigator
