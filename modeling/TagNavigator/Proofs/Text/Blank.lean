import TagNavigator.Proofs.Text.Parts
import TagNavigator.Text.Blank

/-!
# Texts without blanks around them

What is trimmed is empty or has no blanks at its ends, and trimming it again changes nothing.  This
holds of texts, and of strings of code points alike.
-/

namespace TagNavigator.Text

/-- A list that is not empty and has no elements that satisfy `p` at its ends. -/
structure TrimmedBy {α : Type} (p : α → Bool) (l : List α) : Prop where
  ne_nil : l ≠ []
  head : ∀ a ∈ l.head?, p a = false
  last : ∀ a ∈ l.getLast?, p a = false

variable {α : Type} {p : α → Bool} {l : List α} {a : α}

theorem not_head_dropWhile (h : a ∈ (l.dropWhile p).head?) :
  p a = false
  := by
  have hnot := List.head?_dropWhile_not p l
  rw [Option.mem_def.mp h] at hnot
  simpa using hnot

theorem head?_dropTrailing (h : a ∈ (dropTrailing p l).head?) :
  a ∈ l.head?
  := by
  obtain ⟨dropped, hdropped⟩ := dropTrailing_isPrefix p l
  rw [← hdropped, List.head?_append, Option.mem_def.mp h]
  rfl

theorem not_head_trimBy (h : a ∈ (trimBy p l).head?) :
  p a = false
  := not_head_dropWhile (head?_dropTrailing h)

theorem trimmedBy_iff :
  TrimmedBy p l ↔ l ≠ [] ∧ l.head?.all (!p ·) = true ∧ l.getLast?.all (!p ·) = true
  := by
  have hall {o : Option α} : o.all (!p ·) = true ↔ ∀ a ∈ o, p a = false := by
    simp [Option.all_eq_true]
  rw [hall, hall]
  exact ⟨fun h => ⟨h.ne_nil, h.head, h.last⟩, fun h => ⟨h.1, h.2.1, h.2.2⟩⟩

instance [DecidableEq α] (p : α → Bool) (l : List α) : Decidable (TrimmedBy p l) :=
  decidable_of_iff _ trimmedBy_iff.symm

/-- A list without what satisfies `p` around it is empty or trimmed. -/
theorem trimmedBy_trimBy (h : trimBy p l ≠ []) :
  TrimmedBy p (trimBy p l)
  := by
  refine ⟨h, ?_, ?_⟩
  · intro a ha
    exact not_head_trimBy ha
  · intro a ha
    rw [trimBy, dropTrailing, List.getLast?_reverse] at ha
    exact not_head_dropWhile ha

theorem dropWhile_eq_self (h : ∀ a ∈ l.head?, p a = false) :
  l.dropWhile p = l
  := by
  cases l with
  | nil => rfl
  | cons a l =>
      apply List.dropWhile_cons_of_neg
      rw [h a rfl]
      exact Bool.false_ne_true

theorem TrimmedBy.trimBy_eq (h : TrimmedBy p l) :
  trimBy p l = l
  := by
  rw [trimBy, dropWhile_eq_self h.head, dropTrailing, dropWhile_eq_self, List.reverse_reverse]
  intro a ha
  rw [List.head?_reverse] at ha
  exact h.last a ha

end TagNavigator.Text
