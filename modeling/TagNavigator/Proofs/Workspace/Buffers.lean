import Mathlib.Data.List.Basic
import TagNavigator.Workspace.Buffer

/-!
# Buffers and their numbers

What is found among the buffers after one of them has changed, or a new one was made.  A change that
leaves the numbers of all buffers as they are changes what is found by number, and nothing else.  A
new buffer hides no other one, because its number is a new one.
-/

namespace TagNavigator.Buffers

variable {bs : Buffers}

/-- The buffers with every buffer changed. -/
def map (bs : Buffers) (change : Buffer → Buffer) : Buffers :=
  { bs with all := bs.all.map change }

/-- All numbers are below that of the next buffer. -/
def Numbered (bs : Buffers) : Prop := ∀ b ∈ bs.all, b.number < bs.next

/-! ### Changing buffers -/

section

variable {change : Buffer → Buffer}

theorem update_eq_map (bs : Buffers) (number : Nat) (change : Buffer → Buffer) :
  bs.update number change = bs.map fun b => if b.number = number then change b else b
  := rfl

theorem get?_map (h : ∀ b, (change b).number = b.number) (number : Nat) :
  (bs.map change).get? number = (bs.get? number).map change
  := by
  have hnumber : ((·.number == number) : Buffer → Bool) ∘ change = (·.number == number) := by
    funext b
    rw [Function.comp_apply, h]
  rw [get?, map, List.find?_map, hnumber]
  rfl

theorem listed_map (h : ∀ b, (change b).listed = b.listed) :
  (bs.map change).listed = bs.listed.map change
  := by
  have hlisted : Buffer.listed ∘ change = Buffer.listed := by
    funext b
    rw [Function.comp_apply, h]
  rw [listed, map, List.filter_map, hlisted]
  rfl

theorem listed?_map (hlisted : ∀ b, (change b).listed = b.listed)
    (hnumber : ∀ b, (change b).number = b.number) (number : Int) :
  (bs.map change).listed? number = (bs.listed? number).map change
  := by
  have hsame : (fun b : Buffer => (b.number : Int) == number) ∘ change
      = fun b => (b.number : Int) == number := by
    funext b
    rw [Function.comp_apply, hnumber]
  rw [listed?, listed_map hlisted, List.find?_map, hsame]
  rfl

theorem find?_map (hlisted : ∀ b, (change b).listed = b.listed)
    (hpath : ∀ b, (change b).path = b.path) (path : Path) :
  (bs.map change).find? path = (bs.find? path).map change
  := by
  have hsame : ((·.path == path) : Buffer → Bool) ∘ change = (·.path == path) := by
    funext b
    rw [Function.comp_apply, hpath]
  rw [find?, listed_map hlisted, List.find?_map, hsame]
  rfl

theorem Numbered.map (h : bs.Numbered) (hnumber : ∀ b, (change b).number = b.number) :
  (bs.map change).Numbered
  := by
  intro b hb
  obtain ⟨b, hmem, rfl⟩ := List.mem_map.mp hb
  rw [hnumber]
  apply h b hmem

end

/-! ### New buffers -/

/-- The buffer that is made for a file. -/
def fresh (bs : Buffers) (path : Path) (lines : List Text) : Buffer :=
  ⟨bs.next, path, lines, Cursor.start, false, true⟩

theorem all_add (path : Path) (lines : List Text) :
  (bs.add path lines).2.all = bs.all ++ [bs.fresh path lines]
  := rfl

theorem Numbered.add (h : bs.Numbered) (path : Path) (lines : List Text) :
  (bs.add path lines).2.Numbered
  := by
  intro b hb
  rw [all_add] at hb
  rcases List.mem_append.mp hb with hb | hb
  · apply Nat.lt_succ_of_lt (h b hb)
  · obtain rfl := List.mem_singleton.mp hb
    apply Nat.lt_succ_self

/-- A buffer that there is stays under its number. -/
theorem get?_add {number : Nat} {b : Buffer} (h : bs.get? number = some b) (path : Path)
    (lines : List Text) :
  (bs.add path lines).2.get? number = some b
  := by
  rw [get?] at h
  rw [get?, all_add, List.find?_append, h]
  rfl

theorem listed_add (path : Path) (lines : List Text) :
  (bs.add path lines).2.listed = bs.listed ++ [bs.fresh path lines]
  := by
  rw [listed, all_add, List.filter_append]
  rfl

theorem listed?_add {number : Int} {b : Buffer} (h : bs.listed? number = some b) (path : Path)
    (lines : List Text) :
  (bs.add path lines).2.listed? number = some b
  := by
  rw [listed?] at h
  rw [listed?, listed_add, List.find?_append, h]
  rfl

/-- The new buffer is found by its number. -/
theorem get?_add_next (h : bs.Numbered) (path : Path) (lines : List Text) :
  (bs.add path lines).2.get? bs.next = some (bs.fresh path lines)
  := by
  have hnone : bs.all.find? (·.number == bs.next) = none := by
    apply List.find?_eq_none.mpr
    intro b hb
    have hlt := h b hb
    simp
    omega
  rw [get?, all_add, List.find?_append, hnone]
  simp [fresh]

/-- The new buffer is found by its file, if no other one was. -/
theorem find?_add {path : Path} (h : bs.find? path = none) (lines : List Text) :
  (bs.add path lines).2.find? path = some (bs.fresh path lines)
  := by
  rw [find?] at h
  rw [find?, listed_add, List.find?_append, h]
  simp [fresh]

/-! ### Numbers of what is found -/

theorem number_of_get? {number : Nat} {b : Buffer} (h : bs.get? number = some b) :
  b.number = number
  := by
  have hfound := List.find?_some h
  simpa using hfound

theorem number_of_listed? {number : Int} {b : Buffer} (h : bs.listed? number = some b) :
  (b.number : Int) = number
  := by
  have hfound := List.find?_some h
  simpa using hfound

end TagNavigator.Buffers
