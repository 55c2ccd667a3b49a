import Mathlib.Logic.Relation
import TagNavigator.Proofs.Regex.Ends

/-!
# Repetition

A match of a repeated expression is a chain of matches of the expression, each of which starts where
the one before ends (`mem_ends_star`).  The search for the ends of such chains takes the places that
it has come to in ascending order, each of them once, so it needs no more rounds than there are
places.
-/

namespace TagNavigator.Regex

/-! ### Ascending lists -/

theorem pairwise_insertPlace {i : Nat} {l : List Nat} (h : l.Pairwise (· < ·)) :
  (insertPlace i l).Pairwise (· < ·)
  := by
  induction l with
  | nil => exact List.pairwise_singleton _ _
  | cons j l ih =>
      obtain ⟨hj, hl⟩ := List.pairwise_cons.mp h
      rw [insertPlace]
      split
      next hlt =>
        apply List.pairwise_cons.mpr
        refine ⟨?_, h⟩
        intro k hk
        rcases List.mem_cons.mp hk with rfl | hk
        · exact hlt
        · apply Nat.lt_trans hlt (hj k hk)
      next hge =>
        split
        · exact h
        · apply List.pairwise_cons.mpr
          refine ⟨?_, ih hl⟩
          intro k hk
          rcases mem_insertPlace.mp hk with rfl | hk
          · omega
          · apply hj k hk

theorem pairwise_unionPlaces {l₁ l₂ : List Nat} (h : l₂.Pairwise (· < ·)) :
  (unionPlaces l₁ l₂).Pairwise (· < ·)
  := by
  induction l₁ with
  | nil => exact h
  | cons i l₁ ih => exact pairwise_insertPlace ih

/-! ### Chains of steps -/

section

variable {step : Nat → List Nat} {limit : Nat}

/-- A chain of steps that go no further back stays between its start and the limit. -/
theorem bounds_of_chain (hstep : ∀ i ≤ limit, ∀ j ∈ step i, i ≤ j ∧ j ≤ limit) {i j : Nat}
    (hi : i ≤ limit) (hchain : Relation.ReflTransGen (fun a b => b ∈ step a) i j) :
  i ≤ j ∧ j ≤ limit
  := by
  induction hchain with
  | refl => exact ⟨Nat.le_refl _, hi⟩
  | tail _ hlast ih =>
      have hbounds := hstep _ ih.2 _ hlast
      omega

/-- A chain from the least pending place stays there, or goes on from a later place. -/
theorem chain_head_iff (hstep : ∀ i ≤ limit, ∀ j ∈ step i, i ≤ j ∧ j ≤ limit) {i j : Nat}
    (hi : i ≤ limit) :
  Relation.ReflTransGen (fun a b => b ∈ step a) i j
    ↔ j = i ∨ ∃ k ∈ step i, i < k ∧ Relation.ReflTransGen (fun a b => b ∈ step a) k j
  := by
  constructor
  · intro hchain
    have hgeneral : ∀ a, Relation.ReflTransGen (fun a b => b ∈ step a) a j → a = i →
        j = i ∨ ∃ k ∈ step i, i < k ∧ Relation.ReflTransGen (fun a b => b ∈ step a) k j := by
      intro a hchain
      induction hchain using Relation.ReflTransGen.head_induction_on with
      | refl =>
          intro hj
          left
          exact hj
      | head hfirst hrest ih =>
          rename_i a k
          rintro rfl
          -- A step that stays at its place is skipped.
          rcases Nat.eq_or_lt_of_le (hstep _ hi _ hfirst).1 with heq | hlt
          · apply ih heq.symm
          · right
            exact ⟨k, hfirst, hlt, hrest⟩
    apply hgeneral i hchain rfl
  · rintro (rfl | ⟨k, hk, -, hrest⟩)
    · apply Relation.ReflTransGen.refl
    · apply Relation.ReflTransGen.head hk hrest

/-- With as many rounds as there are places left, the search comes to the ends of all chains. -/
theorem mem_reachable_iff (hstep : ∀ i ≤ limit, ∀ j ∈ step i, i ≤ j ∧ j ≤ limit) {rounds : Nat}
    {pending : List Nat} (hascending : pending.Pairwise (· < ·))
    (hpending : ∀ i ∈ pending, i ≤ limit ∧ limit < i + rounds) {j : Nat} :
  j ∈ reachable step rounds pending
    ↔ ∃ i ∈ pending, Relation.ReflTransGen (fun a b => b ∈ step a) i j
  := by
  -- A round removes the least pending place and adds only greater ones, so the rounds that are left
  -- suffice for the places that are left.
  induction rounds generalizing pending with
  | zero =>
      obtain rfl : pending = [] := by
        apply List.eq_nil_iff_forall_not_mem.mpr
        intro i hi
        have hbounds := hpending i hi
        omega
      simp [reachable]
  | succ rounds ih =>
      cases pending with
      | nil => simp [reachable]
      | cons i rest =>
          obtain ⟨hfirst, hrest⟩ := List.pairwise_cons.mp hascending
          obtain ⟨⟨hi, hrounds⟩, hbounds⟩ := List.forall_mem_cons.mp hpending
          have hnext : ∀ k ∈ unionPlaces ((step i).filter (i < ·)) rest,
              k ≤ limit ∧ limit < k + rounds := by
            intro k hk
            rcases mem_unionPlaces.mp hk with hk | hk
            · obtain ⟨hk, hlt⟩ := List.mem_filter.mp hk
              rw [decide_eq_true_eq] at hlt
              have hlimit := (hstep i hi k hk).2
              omega
            · have hlt := hfirst k hk
              have hlimit := (hbounds k hk).1
              omega
          rw [reachable, List.mem_cons, ih (pairwise_unionPlaces hrest) hnext]
          simp only [mem_unionPlaces, List.mem_filter, decide_eq_true_eq, List.mem_cons,
            or_and_right, exists_or, exists_eq_left, chain_head_iff hstep hi, or_assoc, and_assoc]

end

/-! ### Ends of matches -/

variable {ignoreCase : Bool} {t : Array Char}

theorem bounds_of_mem_endsOne {p : Char → Bool} {i j : Nat} (hj : j ∈ endsOne t p i) :
  i ≤ j ∧ j ≤ t.size
  := by
  obtain ⟨⟨c, hc, -⟩, rfl⟩ := mem_endsOne.mp hj
  obtain ⟨hlt, -⟩ := Array.getElem?_eq_some_iff.mp hc
  omega

theorem bounds_of_mem_endsHere {p : Bool} {i j : Nat} (hi : i ≤ t.size) (hj : j ∈ endsHere p i) :
  i ≤ j ∧ j ≤ t.size
  := by
  obtain ⟨-, rfl⟩ := mem_endsHere.mp hj
  exact ⟨Nat.le_refl _, hi⟩

theorem mem_ends_star_iff {r : Regex} {i j : Nat} (hi : i ≤ t.size)
    (hr : ∀ i ≤ t.size, ∀ j ∈ ends ignoreCase t r i, i ≤ j ∧ j ≤ t.size) :
  j ∈ ends ignoreCase t (.star r) i
    ↔ Relation.ReflTransGen (fun a b => b ∈ ends ignoreCase t r a) i j
  := by
  have hpending : ∀ k ∈ [i], k ≤ t.size ∧ t.size < k + (t.size + 1 - i) := by
    intro k hk
    obtain rfl := List.mem_singleton.mp hk
    omega
  rw [ends, mem_reachable_iff hr (List.pairwise_singleton _ _) hpending]
  simp

/-- A match ends between the place where it starts and the end of the text. -/
theorem bounds_of_mem_ends {r : Regex} {i j : Nat} (hi : i ≤ t.size)
    (hj : j ∈ ends ignoreCase t r i) :
  i ≤ j ∧ j ≤ t.size
  := by
  induction r generalizing i j with
  | empty =>
      obtain rfl := List.mem_singleton.mp hj
      exact ⟨Nat.le_refl _, hi⟩
  | char c => exact bounds_of_mem_endsOne hj
  | set s => exact bounds_of_mem_endsOne hj
  | any => exact bounds_of_mem_endsOne hj
  | textStart => exact bounds_of_mem_endsHere hi hj
  | textEnd => exact bounds_of_mem_endsHere hi hj
  | boundary => exact bounds_of_mem_endsHere hi hj
  | wordAhead => exact bounds_of_mem_endsHere hi hj
  | wordBehind => exact bounds_of_mem_endsHere hi hj
  | seq a b iha ihb =>
      obtain ⟨k, hk, hj⟩ := mem_ends_seq.mp hj
      have hfirst := iha hi hk
      have hsecond := ihb hfirst.2 hj
      omega
  | alt a b iha ihb =>
      rcases mem_unionPlaces.mp hj with hj | hj
      · apply iha hi hj
      · apply ihb hi hj
  | star r ih =>
      have hr : ∀ i ≤ t.size, ∀ j ∈ ends ignoreCase t r i, i ≤ j ∧ j ≤ t.size :=
        fun i hi j hj => ih hi hj
      apply bounds_of_chain hr hi ((mem_ends_star_iff hi hr).mp hj)
  | group r ih => exact ih hi hj

/-- A match of a repeated expression is a chain of matches of the expression. -/
theorem mem_ends_star {r : Regex} {i j : Nat} (hi : i ≤ t.size) :
  j ∈ ends ignoreCase t (.star r) i
    ↔ Relation.ReflTransGen (fun a b => b ∈ ends ignoreCase t r a) i j
  := by
  apply mem_ends_star_iff hi
  intro i hi j hj
  apply bounds_of_mem_ends hi hj

end TagNavigator.Regex
