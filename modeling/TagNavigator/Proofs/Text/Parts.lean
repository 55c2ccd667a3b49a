import TagNavigator.Text.Basic

/-!
# Parts of texts

The segments that a text is cut into at a separator are those of `List.splitOn`, so what is known of
that function holds here.  Like a text without its end, they hold characters of the text only.
-/

namespace TagNavigator.Text

variable {sep : Char} {t : Text}

/-! ### Segments -/

theorem cutAt_eq_splitOn (sep : Char) (t : Text) :
  cutAt sep t = t.splitOn sep
  := by
  induction t with
  | nil => rfl
  | cons c t ih =>
      rw [cutAt, ih, List.splitOn_eq_splitOnP, List.splitOn_eq_splitOnP,
        List.splitOnP_cons_eq_if_modifyHead]
      simp only [beq_iff_eq]
      split
      · rfl
      · split
        · rename_i h
          exact absurd h (List.splitOnP_ne_nil _ t)
        · rename_i h
          rw [h]
          rfl

theorem cutAt_of_notMem (h : sep ∉ t) :
  cutAt sep t = [t]
  := by
  rw [cutAt_eq_splitOn]
  exact List.splitOn_eq_singleton h

theorem cutAt_append_sep (h : sep ∉ t) (u : Text) :
  cutAt sep (t ++ sep :: u) = t :: cutAt sep u
  := by
  have hfirst : t.splitOn sep = [t] := List.splitOn_eq_singleton h
  have hsplit : (t ++ sep :: u).splitOn sep = t.splitOn sep ++ u.splitOn sep :=
    List.splitOnP_append_cons t u (beq_self_eq_true sep)
  rw [cutAt_eq_splitOn, cutAt_eq_splitOn, hsplit, hfirst]
  rfl

theorem cutAt_join {parts : List Text} (h : ∀ part ∈ parts, sep ∉ part) (hne : parts ≠ []) :
  cutAt sep (join [sep] parts) = parts
  := by
  rw [cutAt_eq_splitOn]
  exact List.splitOn_intercalate sep h hne

/-- The segments of a text are parts of it, without the separator. -/
theorem mem_and_ne_of_mem_cutAt {part : Text} (h : part ∈ cutAt sep t) {c : Char} (hc : c ∈ part) :
  c ∈ t ∧ c ≠ sep
  := by
  induction t generalizing part with
  | nil =>
      cases List.mem_singleton.mp h
      cases hc
  | cons d t ih =>
      rw [cutAt] at h
      split at h
      · rcases List.mem_cons.mp h with rfl | h
        · cases hc
        · obtain ⟨hmem, hne⟩ := ih h hc
          exact ⟨List.mem_cons_of_mem _ hmem, hne⟩
      · rename_i hd
        split at h
        · cases List.mem_singleton.mp h
          obtain rfl := List.mem_singleton.mp hc
          exact ⟨List.mem_cons_self, hd⟩
        · rename_i first rest hcut
          rcases List.mem_cons.mp h with rfl | h
          · rcases List.mem_cons.mp hc with rfl | hc
            · exact ⟨List.mem_cons_self, hd⟩
            · obtain ⟨hmem, hne⟩ := ih (by rw [hcut]; exact List.mem_cons_self) hc
              exact ⟨List.mem_cons_of_mem _ hmem, hne⟩
          · obtain ⟨hmem, hne⟩ := ih (by rw [hcut]; exact List.mem_cons_of_mem _ h) hc
            exact ⟨List.mem_cons_of_mem _ hmem, hne⟩

theorem mem_of_mem_cutAt {part : Text} (h : part ∈ cutAt sep t) {c : Char} (hc : c ∈ part) :
  c ∈ t
  := (mem_and_ne_of_mem_cutAt h hc).1

theorem sep_notMem_of_mem_cutAt {part : Text} (h : part ∈ cutAt sep t) :
  sep ∉ part
  := fun hsep => (mem_and_ne_of_mem_cutAt h hsep).2 rfl

/-! ### Without the end -/

section

variable {α : Type} {p : α → Bool} {l : List α} {a : α}

theorem dropTrailing_isPrefix (p : α → Bool) (l : List α) :
  dropTrailing p l <+: l
  := by
  rw [← List.reverse_suffix, dropTrailing, List.reverse_reverse]
  apply List.dropWhile_suffix

theorem mem_of_mem_dropTrailing (h : a ∈ dropTrailing p l) :
  a ∈ l
  := (dropTrailing_isPrefix p l).subset h

theorem trimBy_isInfix (p : α → Bool) (l : List α) :
  trimBy p l <:+: l
  := (dropTrailing_isPrefix p _).isInfix.trans (List.dropWhile_suffix p).isInfix

end

end TagNavigator.Text
