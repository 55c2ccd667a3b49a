import TagNavigator.Files.Path
import TagNavigator.Proofs.Text.Parts

/-!
# Written paths

A written path leads from a directory to a place, one part after the other: an empty part or a dot
leads nowhere, double dots lead to the parent directory.  The path that a text writes means the
place that the text leads to (`absoluteNames_ofText`), and a path is written so that it can be read
back (`ofText_toText`).  A path with a root means the same in every directory.
-/

namespace TagNavigator.Path

/-- The directory that one part of a written path leads to. -/
def followPart (names : List Text) (part : Text) : List Text :=
  if part = [] ∨ part = ['.'] then names
  else if part = ['.', '.'] then names.dropLast
  else names ++ [part]

/-- The place that a written path leads to from the directory `cwd`, or from the root if it starts
with a slash. -/
def place (cwd : List Text) (t : Text) : List Text :=
  (t.splitOn '/').foldl followPart (if t.head? = some '/' then [] else cwd)

/-- Names that a written path can have. -/
def Written (p : Path) : Prop :=
  ∀ name ∈ p.names, name ≠ [] ∧ name ≠ ['.'] ∧ '/' ∉ name

variable {p : Path} {t : Text}

/-! ### Roots -/

theorem rootOf_of_head?_ne (h : t.head? ≠ some '/') :
  rootOf t = .here
  := by
  unfold rootOf
  split
  · exact absurd rfl h
  · exact absurd rfl h
  · exact absurd rfl h
  · rfl

theorem rootOf_slash (h : t.head? ≠ some '/') :
  rootOf ('/' :: t) = .slash
  := by
  unfold rootOf
  split
  next heq =>
    cases heq
    exact absurd rfl h
  next heq =>
    cases heq
    exact absurd rfl h
  next => rfl
  next hne => exact absurd rfl (hne t)

theorem rootOf_twoSlashes (h : t.head? ≠ some '/') :
  rootOf ('/' :: '/' :: t) = .twoSlashes
  := by
  unfold rootOf
  split
  next heq =>
    cases heq
    exact absurd rfl h
  next => rfl
  next hne heq => exact absurd (List.cons.inj heq).2.symm (hne t)
  next hne => exact absurd rfl (hne ('/' :: t))

theorem isAbsolute_ofText (t : Text) :
  (ofText t).isAbsolute = true ↔ t.head? = some '/'
  := by
  by_cases h : t.head? = some '/'
  · obtain ⟨t, rfl⟩ := List.head?_eq_some_iff.mp h
    refine iff_of_true ?_ h
    rw [isAbsolute, ofText]
    by_cases h' : t.head? = some '/'
    · obtain ⟨t, rfl⟩ := List.head?_eq_some_iff.mp h'
      by_cases h'' : t.head? = some '/'
      · obtain ⟨t, rfl⟩ := List.head?_eq_some_iff.mp h''
        rfl
      · rw [rootOf_twoSlashes h'']
        rfl
    · rw [rootOf_slash h']
      rfl
  · refine iff_of_false ?_ h
    rw [isAbsolute, ofText, rootOf_of_head?_ne h]
    exact Bool.false_ne_true

/-! ### Places -/

theorem absoluteNames_ofText (cwd : List Text) (t : Text) :
  (ofText t).absoluteNames cwd = place cwd t
  := by
  have hstart : (if (ofText t).isAbsolute = true then [] else cwd)
      = if t.head? = some '/' then [] else cwd := by
    simp only [isAbsolute_ofText]
  have hstep : (fun names part =>
      if (part != [] && part != ['.']) = true then follow names part else names) = followPart := by
    funext names part
    by_cases hnil : part = []
    · simp [followPart, hnil]
    · by_cases hdot : part = ['.']
      · simp [followPart, hdot]
      · rw [followPart, if_neg (not_or.mpr ⟨hnil, hdot⟩), if_pos (by simp [hnil, hdot])]
        rfl
  rw [absoluteNames, hstart, place, ← Text.cutAt_eq_splitOn, ← hstep]
  exact List.foldl_filter

theorem resolve_of_isAbsolute (h : p.isAbsolute = true) (cwd cwd' : List Text) :
  p.resolve cwd = p.resolve cwd'
  := by
  rw [resolve, resolve, absoluteNames, absoluteNames, if_pos h, if_pos h]

/-! ### Reading what is written -/

theorem written_ofText (t : Text) :
  (ofText t).Written
  := by
  intro name hname
  obtain ⟨hcut, hkept⟩ := List.mem_filter.mp hname
  simp only [Bool.and_eq_true, bne_iff_ne] at hkept
  exact ⟨hkept.1, hkept.2, Text.sep_notMem_of_mem_cutAt hcut⟩

theorem Written.parent (h : p.Written) :
  p.parent.Written
  := fun name hname => h name (List.dropLast_subset _ hname)

theorem Written.child (h : p.Written) {name : Text}
    (hname : name ≠ [] ∧ name ≠ ['.'] ∧ '/' ∉ name) :
  (p.child name).Written
  := by
  intro other hother
  rcases List.mem_append.mp hother with hother | hother
  · exact h other hother
  · obtain rfl := List.mem_singleton.mp hother
    exact hname

/-- A slash comes before the names only as the root. -/
theorem Written.head?_join_ne (h : p.Written) :
  (Text.join ['/'] p.names).head? ≠ some '/'
  := by
  unfold Written at h
  cases hnames : p.names with
  | nil => simp [Text.join]
  | cons name rest =>
      rw [hnames] at h
      obtain ⟨hne, -, hslash⟩ := h name List.mem_cons_self
      obtain ⟨c, name, rfl⟩ := List.exists_cons_of_ne_nil hne
      have hc : c ≠ '/' := by
        rintro rfl
        exact hslash List.mem_cons_self
      cases rest with
      | nil => simpa [Text.join] using hc
      | cons next rest => simpa [Text.join] using hc

theorem namesOf_join (h : p.Written) :
  namesOf (Text.join ['/'] p.names) = p.names
  := by
  by_cases hne : p.names = []
  · rw [hne]
    rfl
  · rw [namesOf, Text.cutAt_join (fun name hname => (h name hname).2.2) hne]
    apply List.filter_eq_self.mpr
    intro name hname
    obtain ⟨hnil, hdot, -⟩ := h name hname
    simp [hnil, hdot]

/-- A slash in front adds no name. -/
theorem namesOf_slash (t : Text) :
  namesOf ('/' :: t) = namesOf t
  := by
  rw [namesOf, Text.cutAt, if_pos rfl]
  rfl

theorem ofText_toText (h : p.Written) :
  ofText p.toText = p
  := by
  have hhead := h.head?_join_ne
  have hnames := namesOf_join h
  obtain ⟨root, names⟩ := p
  rw [toText]
  dsimp only at hhead hnames ⊢
  generalize Text.join ['/'] names = t at hhead hnames
  subst hnames
  cases root with
  | here =>
      cases t with
      | nil => rfl
      | cons c t => rw [rootText, List.nil_append, ofText, rootOf_of_head?_ne hhead]
  | slash =>
      change ofText ('/' :: t) = _
      rw [ofText, rootOf_slash hhead, namesOf_slash]
  | twoSlashes =>
      change ofText ('/' :: '/' :: t) = _
      rw [ofText, rootOf_twoSlashes hhead, namesOf_slash, namesOf_slash]

theorem place_toText (h : p.Written) (cwd : List Text) :
  place cwd p.toText = p.absoluteNames cwd
  := by
  rw [← absoluteNames_ofText, ofText_toText h]

/-! ### NUL -/

theorem hasNul_iff :
  p.hasNul = false ↔ ∀ name ∈ p.names, '\x00' ∉ name
  := by
  simp only [hasNul, List.any_eq_false, List.contains_iff_mem]

theorem hasNul_parent (h : p.hasNul = false) :
  p.parent.hasNul = false
  := by
  rw [hasNul_iff] at h ⊢
  exact fun name hname => h name (List.dropLast_subset _ hname)

theorem hasNul_child (h : p.hasNul = false) {name : Text} (hname : '\x00' ∉ name) :
  (p.child name).hasNul = false
  := by
  rw [hasNul_iff] at h ⊢
  exact List.forall_mem_append.mpr ⟨h, List.forall_mem_singleton.mpr hname⟩

theorem hasNul_ofText (h : '\x00' ∉ t) :
  (ofText t).hasNul = false
  := by
  rw [hasNul_iff]
  intro name hname
  have hcut := (List.mem_filter.mp hname).1
  exact fun hnul => h (Text.mem_of_mem_cutAt hcut hnul)

end TagNavigator.Path
