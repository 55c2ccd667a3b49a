import TagNavigator.Proofs.Regex.Ends

/-!
# Branches

A group matches what one of its branches matches (`mem_ends_finish`).  It does not matter that items
that all branches start with are read once, and that branches of one character each are read as one
set.
-/

namespace TagNavigator.Regex

variable {t : Array Char} {i j : Nat}

/-- A set matches a character that one of its items admits. -/
theorem mem_ends_set_iff {items : List SetItem} :
  j ∈ ends false t (.set ⟨false, items⟩) i
    ↔ ∃ item ∈ items, (∃ c, t[i]? = some c ∧ item.admits c = true) ∧ j = i + 1
  := by
  simp only [ends, mem_endsOne, CharSet.admits, CharSet.holds, Bool.bne_false, List.any_eq_true,
    Bool.false_eq_true, if_false]
  constructor
  · rintro ⟨⟨c, hc, item, hitem, hadmits⟩, rfl⟩
    exact ⟨item, hitem, ⟨c, hc, hadmits⟩, rfl⟩
  · rintro ⟨item, hitem, ⟨c, hc, hadmits⟩, rfl⟩
    exact ⟨⟨c, hc, item, hitem, hadmits⟩, rfl⟩

theorem mem_ends_char_iff {c : Char} :
  j ∈ ends false t (.char c) i ↔ t[i]? = some c ∧ j = i + 1
  := by
  simp only [ends, mem_endsOne, Bool.false_eq_true, if_false, beq_iff_eq]
  constructor
  · rintro ⟨⟨d, hd, rfl⟩, rfl⟩
    exact ⟨hd, rfl⟩
  · rintro ⟨hc, rfl⟩
    exact ⟨⟨c, hc, rfl⟩, rfl⟩

/-- A branch that is one character or set matches what the set of its items matches. -/
theorem mem_ends_choices {b : List Regex} {items : List SetItem} (h : choices? b = some items) :
  j ∈ ends false t (sequence b) i ↔ j ∈ ends false t (.set ⟨false, items⟩) i
  := by
  rw [choices?.eq_def] at h
  split at h
  next c =>
    obtain rfl := Option.some.inj h
    rw [mem_ends_set_iff]
    simp [sequence, mem_ends_char_iff, SetItem.admits]
  next items' =>
    obtain rfl := Option.some.inj h
    rfl
  · contradiction

/-- Branches that are one character or set each match what the set of all items matches. -/
theorem mem_ends_set_flatten {branches : List (List Regex)} {items : List (List SetItem)}
    (h : branches.mapM choices? = some items) :
  j ∈ ends false t (.set ⟨false, items.flatten⟩) i
    ↔ ∃ b ∈ branches, j ∈ ends false t (sequence b) i
  := by
  induction branches generalizing items with
  | nil =>
      obtain rfl : [] = items := by simpa using h
      simp [mem_ends_set_iff]
  | cons b branches ih =>
      rw [List.mapM_cons] at h
      obtain ⟨first, hfirst, h⟩ := Option.bind_eq_some_iff.mp h
      obtain ⟨others, hothers, h⟩ := Option.bind_eq_some_iff.mp h
      obtain rfl := Option.some.inj h
      simp only [List.mem_cons, or_and_right, exists_or, exists_eq_left, ← ih hothers,
        mem_ends_choices hfirst, List.flatten_cons, mem_ends_set_iff, List.mem_append]

theorem mem_ends_foldl_alt {r : Regex} {others : List (List Regex)} :
  j ∈ ends false t (others.foldl (fun acc b => .alt acc (sequence b)) r) i
    ↔ j ∈ ends false t r i ∨ ∃ b ∈ others, j ∈ ends false t (sequence b) i
  := by
  induction others generalizing r with
  | nil => simp
  | cons b others ih =>
      rw [List.foldl_cons, ih, ends, mem_unionPlaces]
      simp [or_assoc]

theorem mem_ends_choose {first : List Regex} {others : List (List Regex)} :
  j ∈ ends false t (choose first others) i
    ↔ ∃ b ∈ first :: others, j ∈ ends false t (sequence b) i
  := by
  rw [choose]
  split
  next items h => exact mem_ends_set_flatten h
  · rw [mem_ends_foldl_alt]
    simp

/-- Branches that start with the same item match what the item and then one of the rests
matches. -/
theorem mem_ends_alternatives {first : List Regex} {others : List (List Regex)} :
  j ∈ ends false t (alternatives first others) i
    ↔ ∃ b ∈ first :: others, j ∈ ends false t (sequence b) i
  := by
  induction first generalizing others i j with
  | nil =>
      rw [alternatives]
      exact mem_ends_choose
  | cons r first ih =>
      rw [alternatives]
      split
      next hshared =>
        rw [Bool.and_eq_true, List.all_eq_true] at hshared
        have hhead : ∀ b ∈ others, b = r :: b.drop 1 := by
          intro b hb
          have hr := hshared.2 b hb
          cases b with
          | nil => contradiction
          | cons s b =>
              obtain rfl : s = r := by simpa using hr
              rfl
        rw [mem_ends_seq]
        simp only [ih, List.mem_cons, List.mem_map, exists_eq_or_imp, mem_ends_sequence_cons]
        constructor
        · rintro ⟨k, hk, hj | ⟨_, ⟨b, hb, rfl⟩, hj⟩⟩
          · left
            exact ⟨k, hk, hj⟩
          · right
            refine ⟨b, hb, ?_⟩
            rw [hhead b hb, mem_ends_sequence_cons]
            exact ⟨k, hk, hj⟩
        · rintro (⟨k, hk, hj⟩ | ⟨b, hb, hj⟩)
          · exact ⟨k, hk, Or.inl hj⟩
          · rw [hhead b hb, mem_ends_sequence_cons] at hj
            obtain ⟨k, hk, hj⟩ := hj
            exact ⟨k, hk, Or.inr ⟨_, ⟨b, hb, rfl⟩, hj⟩⟩
      · exact mem_ends_choose

/-- A group matches what one of its finished branches or its last branch matches. -/
theorem mem_ends_finish {f : Frame} :
  j ∈ ends false t f.finish i
    ↔ (∃ b ∈ f.branches, j ∈ ends false t (sequence b) i)
      ∨ j ∈ ends false t (sequence f.items.reverse) i
  := by
  have hmem : ∀ b, b ∈ f.branches ↔ b ∈ f.branches.reverse := by
    simp
  simp only [Frame.finish, hmem]
  cases f.branches.reverse with
  | nil => simp
  | cons first others =>
      simp only [mem_ends_alternatives, ← List.cons_append, List.mem_append, List.mem_singleton,
        or_and_right, exists_or, exists_eq_left]

end TagNavigator.Regex
