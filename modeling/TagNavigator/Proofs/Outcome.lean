/-!
# Outcomes

What is known of the steps of a computation that can break off, once it is known that it has not,
and of a value that is looked up, once it is known that it was found.
-/

namespace TagNavigator

variable {ε α β : Type} {x : Except ε α} {y : β}

theorem map_eq_ok_iff {f : α → β} :
  f <$> x = .ok y ↔ ∃ z, x = .ok z ∧ f z = y
  := by
  cases x with
  | error e => simp [Functor.map, Except.map]
  | ok z => simp [Functor.map, Except.map]

theorem bind_eq_ok_iff {f : α → Except ε β} :
  x >>= f = .ok y ↔ ∃ z, x = .ok z ∧ f z = .ok y
  := by
  cases x with
  | error e => simp [bind, Except.bind]
  | ok z => simp [bind, Except.bind]

theorem mem_of_lookup [BEq α] [LawfulBEq α] {table : List (α × β)} {a : α} {b : β}
    (h : table.lookup a = some b) :
  (a, b) ∈ table
  := by
  obtain ⟨before, after, heq, -⟩ := List.lookup_eq_some_iff.mp h
  rw [heq]
  exact List.mem_append_right _ List.mem_cons_self

end TagNavigator
