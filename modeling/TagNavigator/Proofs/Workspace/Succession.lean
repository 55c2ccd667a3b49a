import TagNavigator.Proofs.Workspace.Soundness

/-!
# Buffers over time

What becomes of buffers (`Later`): each keeps its number, its file and its lines, and is not listed
again once it was wiped; and every buffer that is made has a number that none had before.  So a
number means the same buffer for good, and a window that gets back to a number gets back to its
buffer (`Option.Rel` says so of windows that may show nothing).
-/

namespace TagNavigator

/-- It is the same buffer, perhaps at another time: its number, its file and its lines do not
change. -/
structure Buffer.Same (b b' : Buffer) : Prop where
  number : b'.number = b.number
  path : b'.path = b.path
  lines : b'.lines = b.lines

theorem Buffer.Same.refl (b : Buffer) :
  b.Same b
  := ⟨rfl, rfl, rfl⟩

theorem Buffer.Same.trans {b b' b'' : Buffer} (h : b.Same b') (h' : b'.Same b'') :
  b.Same b''
  :=
  ⟨h'.number.trans h.number, h'.path.trans h.path, h'.lines.trans h.lines⟩

namespace Buffers

variable {bs bs' bs'' : Buffers}

/-- The buffers `bs` may have become the buffers `bs'`. -/
structure Later (bs bs' : Buffers) : Prop where
  next_le : bs.next ≤ bs'.next
  kept : ∀ b ∈ bs.all, ∃ b' ∈ bs'.all, b.Same b' ∧ (b'.listed = true → b.listed = true)
  new : ∀ b' ∈ bs'.all, (∃ b ∈ bs.all, b.Same b') ∨ bs.next ≤ b'.number

/-! ### What happens to buffers -/

theorem Later.refl (bs : Buffers) :
  bs.Later bs
  := by
  constructor
  · exact Nat.le_refl _
  · exact fun b hb => ⟨b, hb, .refl b, id⟩
  · exact fun b hb => .inl ⟨b, hb, .refl b⟩

theorem Later.trans (h : bs.Later bs') (h' : bs'.Later bs'') :
  bs.Later bs''
  := by
  constructor
  · exact Nat.le_trans h.next_le h'.next_le
  · intro b hb
    obtain ⟨b', hb', hsame, hlisted⟩ := h.kept b hb
    obtain ⟨b'', hb'', hsame', hlisted'⟩ := h'.kept b' hb'
    exact ⟨b'', hb'', hsame.trans hsame', fun hl => hlisted (hlisted' hl)⟩
  · intro b'' hb''
    rcases h'.new b'' hb'' with ⟨b', hb', hsame'⟩ | hle
    · rcases h.new b' hb' with ⟨b, hb, hsame⟩ | hle
      · exact .inl ⟨b, hb, hsame.trans hsame'⟩
      · right
        rw [hsame'.number]
        exact hle
    · exact .inr (Nat.le_trans h.next_le hle)

/-- A change that keeps every buffer the same and lists none anew. -/
theorem later_map {change : Buffer → Buffer} (hsame : ∀ b : Buffer, b.Same (change b))
    (hlisted : ∀ b, (change b).listed = true → b.listed = true) :
  bs.Later (bs.map change)
  := by
  constructor
  · exact Nat.le_refl _
  · exact fun b hb => ⟨change b, List.mem_map_of_mem hb, hsame b, hlisted b⟩
  · intro b' hb'
    obtain ⟨b, hb, rfl⟩ := List.mem_map.mp hb'
    exact .inl ⟨b, hb, hsame b⟩

theorem later_add (path : Path) (lines : List Text) :
  bs.Later (bs.add path lines).2
  := by
  constructor
  · exact Nat.le_succ _
  · exact fun b hb => ⟨b, List.mem_append_left _ hb, .refl b, id⟩
  · intro b' hb'
    rw [all_add] at hb'
    rcases List.mem_append.mp hb' with hb | hnew
    · exact .inl ⟨b', hb, .refl b'⟩
    · obtain rfl := List.mem_singleton.mp hnew
      exact .inr (Nat.le_refl _)

theorem later_wipe (number : Int) :
  bs.Later (bs.wipe number)
  := by
  apply later_map
  · intro b
    split <;> exact ⟨rfl, rfl, rfl⟩
  · intro b hlisted
    split at hlisted
    · cases hlisted
    · exact hlisted

theorem later_flag (chosen : Buffer → Prop) [DecidablePred chosen] (value : Bool) :
  bs.Later (bs.map fun b => if chosen b then { b with modified := value } else b)
  := by
  apply later_map
  · intro b
    split <;> exact ⟨rfl, rfl, rfl⟩
  · intro b hlisted
    split at hlisted <;> exact hlisted

/-! ### What a number means -/

theorem Sound.get?_of_mem (h : bs.Sound) {b : Buffer} (hb : b ∈ bs.all) :
  bs.get? b.number = some b
  := by
  obtain ⟨b', hb'⟩ : ∃ b', bs.get? b.number = some b' := by
    apply Option.isSome_iff_exists.mp
    apply List.find?_isSome.mpr
    refine ⟨b, hb, ?_⟩
    simp
  rw [hb', h.eq_of_get? hb' hb rfl]

/-- A number goes on meaning the same buffer. -/
theorem Later.get? (h : bs.Later bs') (hsound : bs'.Sound) {number : Nat} {b : Buffer}
    (hb : bs.get? number = some b) :
  ∃ b', bs'.get? number = some b' ∧ b.Same b' ∧ (b'.listed = true → b.listed = true)
  := by
  obtain ⟨b', hb', hsame, hlisted⟩ := h.kept b (mem_of_get? hb)
  refine ⟨b', ?_, hsame, hlisted⟩
  rw [← number_of_get? hb, ← hsame.number]
  exact hsound.get?_of_mem hb'

/-- A wiped buffer is not among the listed ones. -/
theorem Sound.listed?_of_wiped (h : bs.Sound) {number : Nat} {b : Buffer}
    (hb : bs.get? number = some b) (hwiped : b.listed = false) :
  bs.listed? number = none
  := by
  apply List.find?_eq_none.mpr
  intro b' hb' hnumber
  obtain ⟨hmem, hlisted⟩ := List.mem_filter.mp hb'
  have hsame : b'.number = number := Int.ofNat.inj (beq_iff_eq.mp hnumber)
  obtain rfl := h.eq_of_get? hb hmem hsame
  rw [hwiped] at hlisted
  cases hlisted

theorem wiped_of_wipe {number : Nat} {b : Buffer} (hb : (bs.wipe number).get? number = some b) :
  b.listed = false
  := by
  obtain ⟨b', -, rfl⟩ := List.mem_map.mp (mem_of_get? hb)
  have hnumber := number_of_get? hb
  split at hnumber
  next hwiped => rw [if_pos hwiped]
  next hkept => exact absurd (congrArg (Nat.cast : Nat → Int) hnumber) hkept

end Buffers

/-! ### Operations of a workspace -/

namespace Workspace

variable {ws ws' : Workspace}

theorem later_saveCursor (ws : Workspace) :
  ws.buffers.Later ws.saveCursor.buffers
  := by
  rw [saveCursor]
  split
  · exact .refl _
  · apply Buffers.later_map
    · intro b
      split <;> exact ⟨rfl, rfl, rfl⟩
    · intro b hlisted
      split at hlisted <;> exact hlisted

theorem later_showBuffer (ws : Workspace) (number : Nat) :
  ws.buffers.Later (ws.showBuffer number).buffers
  := by
  rw [showBuffer]
  split
  · exact .refl _
  · exact later_saveCursor ws

theorem later_load {w : World} {path resolved : Path} {number : Nat}
    (hload : ws.load w path resolved = .ok (number, ws')) :
  ws.buffers.Later ws'.buffers
  := by
  rcases load_eq_ok_iff.mp hload with ⟨b, -, -, rfl⟩ | ⟨-, t, -, -, rfl⟩
  · exact .refl _
  · apply Buffers.later_add

theorem later_editFile (w : World) (ws : Workspace) (path : Path) :
  ws.buffers.Later (ws.editFile w path).2.2.buffers
  := by
  rcases editFile_cases w ws path with
    ⟨e, -, he⟩ | ⟨why, log, he⟩ | ⟨resolved, number, ws', -, hload, he⟩
  · rw [he]
    dsimp only
    rw [buffers_opened]
    exact .refl _
  · rw [he]
    dsimp only
    rw [buffers_closed]
    exact .refl _
  · have hlater := later_load hload
    rw [buffers_opened] at hlater
    rw [he]
    exact hlater.trans (later_showBuffer ws' number)

theorem later_goTo {p : Position} (hgo : ws.goTo p = .ok ws') :
  ws.buffers.Later ws'.buffers
  := by
  obtain ⟨shown, rfl, ⟨-, rfl⟩ | ⟨-, -, rfl⟩ | ⟨number, b, -, -, -, rfl⟩⟩ := goTo_cases hgo
  · exact .refl _
  · exact later_saveCursor ws
  · exact later_showBuffer ws b.number

/-! ### Getting back to a number -/

/-- Going to a position succeeds only in showing the buffer of its number. -/
theorem buffer_of_goTo {p : Position} (hgo : ws.goTo p = .ok ws') :
  ws'.window.buffer.map (fun n : Nat => (n : Int)) = p.buffer
  := by
  obtain ⟨shown, rfl, ⟨hkept, rfl⟩ | ⟨hnone, -, rfl⟩ | ⟨number, b, hnumber, hlisted, -, rfl⟩⟩ :=
    goTo_cases hgo
  · exact hkept
  · exact hnone.symm
  · change (ws.showBuffer b.number).window.buffer.map _ = _
    rw [(window_showBuffer ws b.number).1, hnumber, ← Buffers.number_of_listed? hlisted]
    rfl

theorem buffer_positionOf (w : Window) :
  (positionOf w).buffer = w.buffer.map fun n : Nat => (n : Int)
  := by
  rw [positionOf]
  cases w.buffer <;> rfl

theorem map_cast_inj {n n' : Option Nat}
    (h : n.map (fun n : Nat => (n : Int)) = n'.map fun n : Nat => (n : Int)) :
  n = n'
  :=
  Option.map_injective (fun _ _ h => Int.ofNat.inj h) h

/-- Windows with the same buffer number, one of them at a later time, show the same buffer. -/
theorem rel_bufferOf (h : ws.buffers.Later ws'.buffers) (hstocked : ws.Stocked)
    (hstocked' : ws'.Stocked) {w w' : Window} (hw : w ∈ ws.windows.all)
    (hsame : w'.buffer = w.buffer) :
  Option.Rel Buffer.Same (ws.bufferOf w) (ws'.bufferOf w')
  := by
  rcases hstocked.fits w hw with ⟨hnone, -⟩ | ⟨number, b, hnumber, hb, -⟩
  · rw [bufferOf, bufferOf, hsame, hnone]
    exact .none
  · obtain ⟨b', hb', hbuffer, -⟩ := h.get? hstocked'.sound hb
    rw [bufferOf, bufferOf, hsame, hnumber, Option.bind_some, Option.bind_some, hb, hb']
    exact .some hbuffer

/-- A buffer that was wiped cannot be shown again by a window that does not show it. -/
theorem goTo_of_wiped (h : ws.Stocked) {number : Nat} {b : Buffer}
    (hb : ws.buffers.get? number = some b) (hwiped : b.listed = false)
    (hshown : ws.window.buffer ≠ some number) {p : Position} (hp : p.buffer = some (number : Int)) :
  ws.goTo p = .error (.noBuffer number)
  := by
  simp only [goTo, hp, switchBuffer]
  split
  next hsame =>
    exfalso
    apply hshown
    cases hbuffer : ws.window.buffer with
    | none =>
        rw [hbuffer] at hsame
        cases hsame
    | some n =>
        rw [hbuffer] at hsame
        rw [Int.ofNat.inj (Option.some.inj hsame)]
  · rw [h.sound.listed?_of_wiped hb hwiped]
    rfl

end Workspace

end TagNavigator
