import TagNavigator.Proofs.Workspace.Fitting

/-!
# Leaving a buffer and coming back

What the current window shows after it has switched to a file (`arrival_of_editFile`), after it has
gone back to where it was (`Arrival.goTo_back`), and after it has switched to the file again
(`Return.editFile`).  A window that leaves a buffer changes nothing about the buffers but the cursor
that the buffer remembers (`OnlyMoved`), and a file that is loaded stays among the buffers.
-/

namespace TagNavigator

/-- The buffers `bs'` are those of `bs`, apart from the cursors that they remember. -/
def Buffers.OnlyMoved (bs bs' : Buffers) : Prop :=
  ∃ cursorOf : Buffer → Cursor, bs' = bs.map fun b => { b with cursor := cursorOf b }

namespace Buffers.OnlyMoved

variable {bs bs' bs'' : Buffers} {b : Buffer}

theorem refl (bs : Buffers) :
  bs.OnlyMoved bs
  := by
  use Buffer.cursor
  exact congrArg (fun all => { bs with all := all }) (List.map_id bs.all).symm

theorem trans (h : bs.OnlyMoved bs') (h' : bs'.OnlyMoved bs'') :
  bs.OnlyMoved bs''
  := by
  obtain ⟨f, rfl⟩ := h
  obtain ⟨g, rfl⟩ := h'
  use fun b => g { b with cursor := f b }
  rw [map, map, List.map_map]
  rfl

theorem get? (h : bs.OnlyMoved bs') {number : Nat} (hb : bs.get? number = some b) :
  ∃ c, bs'.get? number = some { b with cursor := c }
  := by
  obtain ⟨f, rfl⟩ := h
  use f b
  rw [get?_map, hb]
  · rfl
  · intro b
    rfl

theorem listed? (h : bs.OnlyMoved bs') {number : Int} (hb : bs.listed? number = some b) :
  ∃ c, bs'.listed? number = some { b with cursor := c }
  := by
  obtain ⟨f, rfl⟩ := h
  use f b
  rw [listed?_map, hb]
  · rfl
  · intro b
    rfl
  · intro b
    rfl

theorem find? (h : bs.OnlyMoved bs') {path : Path} (hb : bs.find? path = some b) :
  ∃ c, bs'.find? path = some { b with cursor := c }
  := by
  obtain ⟨f, rfl⟩ := h
  use f b
  rw [find?_map, hb]
  · rfl
  · intro b
    rfl
  · intro b
    rfl

end Buffers.OnlyMoved

namespace Workspace

variable {ws : Workspace}

/-! ### Leaving a buffer -/

theorem onlyMoved_saveCursor (ws : Workspace) :
  ws.buffers.OnlyMoved ws.saveCursor.buffers
  := by
  rw [saveCursor]
  split
  · apply Buffers.OnlyMoved.refl
  next number _ =>
    use fun b => if b.number = number then ws.window.cursor else b.cursor
    apply congrArg ws.buffers.map
    funext b
    split <;> rfl

/-- The buffer that is left remembers the cursor. -/
theorem get?_saveCursor {number : Nat} {b : Buffer} (hbuffer : ws.window.buffer = some number)
    (hb : ws.buffers.get? number = some b) :
  ws.saveCursor.buffers.get? number = some { b with cursor := ws.window.cursor }
  := by
  have hnumber := Buffers.number_of_get? hb
  simp only [saveCursor, hbuffer]
  rw [Buffers.update_eq_map, Buffers.get?_map, hb, Option.map_some, if_pos hnumber]
  intro b
  split <;> rfl

/-- The other buffers are as they were. -/
theorem get?_saveCursor_of_ne {number : Nat} (hbuffer : ws.window.buffer ≠ some number) :
  ws.saveCursor.buffers.get? number = ws.buffers.get? number
  := by
  rw [saveCursor]
  split
  · rfl
  next left hleft =>
    have hne : left ≠ number := by
      rintro rfl
      contradiction
    rw [Buffers.update_eq_map, Buffers.get?_map]
    · cases hb : ws.buffers.get? number with
      | none => rfl
      | some b =>
          have hnumber := Buffers.number_of_get? hb
          rw [Option.map_some, if_neg]
          omega
    · intro b
      split <;> rfl

theorem window_saveCursor (ws : Workspace) :
  ws.saveCursor.window = ws.window
  := congrArg (·.current) (windows_saveCursor ws)

theorem showBuffer_other {number : Nat} {b : Buffer} (hbuffer : ws.window.buffer ≠ some number)
    (hb : ws.buffers.get? number = some b) :
  ws.showBuffer number = ws.saveCursor.withWindow
    { ws.window with buffer := some number, cursor := b.cursor.clamp b.lines }
  := by
  have hsaved := hb
  rw [← get?_saveCursor_of_ne hbuffer] at hsaved
  rw [showBuffer, if_neg hbuffer]
  simp only [hsaved, window_saveCursor]

theorem onlyMoved_showBuffer (ws : Workspace) (number : Nat) :
  ws.buffers.OnlyMoved (ws.showBuffer number).buffers
  := by
  rw [showBuffer]
  split
  · apply Buffers.OnlyMoved.refl
  · apply onlyMoved_saveCursor

/-- The workspace with the cursor of the current window at `target`, if there is one. -/
def moveTo (ws : Workspace) (target : Option Cursor) : Workspace :=
  target.elim ws ws.setCursor

theorem buffers_moveTo (ws : Workspace) (target : Option Cursor) :
  (ws.moveTo target).buffers = ws.buffers
  := by
  cases target <;> rfl

theorem id_moveTo (ws : Workspace) (target : Option Cursor) :
  (ws.moveTo target).window.id = ws.window.id
  := by
  cases target <;> rfl

theorem buffer_moveTo (ws : Workspace) (target : Option Cursor) :
  (ws.moveTo target).window.buffer = ws.window.buffer
  := by
  cases target <;> rfl

theorem lines_moveTo (ws : Workspace) (target : Option Cursor) :
  (ws.moveTo target).lines = ws.lines
  := by
  cases target <;> rfl

/-- What shows of the current window, and the buffers. -/
structure View where
  buffers : Buffers
  /-- The identity of the current window. -/
  id : Nat
  buffer : Option Nat
  cursor : Cursor
  splitPending : Bool

/-- What shows of a workspace. -/
def view (ws : Workspace) : View :=
  ⟨ws.buffers, ws.window.id, ws.window.buffer, ws.window.cursor, ws.splitPending⟩

/-! ### Going to a file -/

/-- The current window has switched to the buffer `number` of the file at the path `resolved`, and
its cursor has then gone to `target`, or was left where it was. -/
structure Arrival (v v' : View) (resolved : Path) (number : Nat) (target : Option Cursor) : Prop
    where
  get : ∀ n b, v.buffers.get? n = some b → ∃ c, v'.buffers.get? n = some { b with cursor := c }
  listed : ∀ n b, v.buffers.listed? n = some b →
    ∃ c, v'.buffers.listed? n = some { b with cursor := c }
  found : ∃ b, v'.buffers.find? resolved = some b ∧ b.number = number
  leave : ∀ n, v.buffer = some n → ∀ b, v.buffers.get? n = some b →
    b.modified = false ∨ n = number
  id : v'.id = v.id
  buffer : v'.buffer = some number
  pending : v'.splitPending = false
  moved : ∀ c b, target = some c → v'.buffers.get? number = some b → v'.cursor = c.clamp b.lines
  stays : target = none → v.buffer = some number → v'.cursor = v.cursor

theorem mayShow_iff (ws : Workspace) (target : Option Nat) :
  ws.mayShow target = true
    ↔ ∀ n, ws.window.buffer = some n → ∀ b, ws.buffers.get? n = some b →
      b.modified = false ∨ target = some n
  := by
  rw [mayShow, bufferOf]
  cases ws.window.buffer with
  | none => simp
  | some n =>
      cases hb : ws.buffers.get? n with
      | none => simp [hb]
      | some b =>
          have hnumber := Buffers.number_of_get? hb
          simp [hb, hnumber]

section

variable {w : World} {path resolved : Path}

theorem opened_eq_self (hpending : ws.splitPending = false) :
  ws.opened = ws
  := by
  rw [opened_of_not_pending hpending, ← hpending]

theorem editFile_of_not_pending (hpending : ws.splitPending = false)
    (hresolve : w.resolve path = .ok resolved) :
  ws.editFile w path = ws.switchTo w path resolved
  := by
  rw [editFile_eq, hresolve, opened_eq_self hpending]
  simp only [hpending, Bool.false_eq_true, if_false]
  split
  next he => exact he.symm
  · rfl

/-- A file is shown only if the window may leave its buffer for the one of the file. -/
theorem mayShow_of_switchTo_made {log : List LogLine} {ws' : Workspace}
    (he : ws.switchTo w path resolved = (.made, log, ws')) :
  ws.mayShow ((ws.buffers.find? resolved).map (·.number)) = true
  := by
  rw [switchTo] at he
  split at he
  · cases he
  next hmay => simpa using hmay

theorem editFile_of_find? {b : Buffer} (hpending : ws.splitPending = false)
    (hresolve : w.resolve path = .ok resolved) (hfind : ws.buffers.find? resolved = some b)
    (hmay : ws.mayShow (some b.number) = true) :
  ws.editFile w path = (.made, [], ws.showBuffer b.number)
  := by
  rw [editFile_of_not_pending hpending hresolve, switchTo]
  simp [hfind, hmay, load]

/-- A file that is loaded is found, and hides no buffer. -/
theorem found_of_load (h : ws.Fitting) {number : Nat} {loaded : Workspace}
    (hload : ws.load w path resolved = .ok (number, loaded)) :
  (∃ b, loaded.buffers.find? resolved = some b ∧ b.number = number)
    ∧ (∀ n b, ws.buffers.get? n = some b → loaded.buffers.get? n = some b)
    ∧ (∀ n b, ws.buffers.listed? n = some b → loaded.buffers.listed? n = some b)
    ∧ ∀ n, (ws.buffers.find? resolved).map (·.number) = some n → n = number
  := by
  rcases load_eq_ok_iff.mp hload with ⟨b, hfind, rfl, rfl⟩ | ⟨hfind, t, -, rfl, rfl⟩
  · rw [hfind]
    refine ⟨⟨b, rfl, rfl⟩, fun _ _ hb => hb, fun _ _ hb => hb, ?_⟩
    intro n hn
    exact (Option.some.inj hn).symm
  · refine ⟨⟨_, Buffers.find?_add hfind _, rfl⟩, ?_, ?_, ?_⟩
    · intro n b hb
      apply Buffers.get?_add hb
    · intro n b hb
      apply Buffers.listed?_add hb
    · intro n hn
      rw [hfind] at hn
      cases hn

/-- A switch to a file that is made, followed by a move of the cursor, is an arrival. -/
theorem arrival_of_editFile (h : ws.Fitting) (hpending : ws.splitPending = false)
    (hresolve : w.resolve path = .ok resolved) {log : List LogLine} {ws' : Workspace}
    (he : ws.editFile w path = (.made, log, ws')) (target : Option Cursor) :
  ∃ number, Arrival ws.view (ws'.moveTo target).view resolved number target
  := by
  rw [editFile_of_not_pending hpending hresolve] at he
  have hmay := mayShow_of_switchTo_made he
  rcases switchTo_cases w ws path resolved with
    ⟨why, log', hrefused⟩ | ⟨number, loaded, hload, hmade⟩
  · rw [hrefused] at he
    cases he
  rw [hmade] at he
  cases he
  obtain ⟨⟨b, hfind, hb⟩, hget, hlisted, htarget⟩ := found_of_load h hload
  obtain ⟨hwindows, -⟩ := windows_load hload
  have hmoved : loaded.buffers.OnlyMoved ((loaded.showBuffer number).moveTo target).buffers := by
    rw [buffers_moveTo]
    apply onlyMoved_showBuffer
  have hshown := (window_showBuffer loaded number).1
  refine ⟨number, ?_⟩
  constructor
  · intro n b hb
    apply hmoved.get? (hget n b hb)
  · intro n b hb
    apply hmoved.listed? (hlisted n b hb)
  · obtain ⟨c, hfound⟩ := hmoved.find? hfind
    exact ⟨_, hfound, hb⟩
  · intro n hn b hb
    rcases (mayShow_iff ws _).mp hmay n hn b hb with hmodified | hsame
    · left
      exact hmodified
    · right
      apply htarget n hsame
  · exact (id_moveTo _ target).trans (id_window_showBuffer_of_load hload)
  · cases target <;> exact hshown
  · have hsplit := splitPending_showBuffer loaded number
    rw [splitPending_load hload, hpending] at hsplit
    cases target <;> exact hsplit
  · rintro c b rfl hb
    have hlines : (loaded.showBuffer number).lines = b.lines := linesOf_of_get? hshown hb
    rw [← hlines]
    rfl
  · rintro rfl hbuffer
    have hwindow : loaded.window = ws.window := congrArg (·.current) hwindows
    change (loaded.showBuffer number).window.cursor = ws.window.cursor
    rw [showBuffer_of_shown, hwindow]
    rw [hwindow]
    exact hbuffer

end

theorem Arrival.exists_get? {v v' : View} {resolved : Path} {number : Nat}
    {target : Option Cursor} (h : Arrival v v' resolved number target) :
  ∃ b, v'.buffers.get? number = some b
  := by
  obtain ⟨b, hfind, rfl⟩ := h.found
  apply Buffers.exists_get?_of_mem_listed
  apply List.mem_of_find?_eq_some hfind

/-! ### Going back -/

/-- The position that shows. -/
def View.position (v : View) : Position :=
  ⟨v.buffer.map fun n : Nat => (n : Int), v.cursor.line, v.cursor.column⟩

/-- The current window shows again what it showed in `v`, and the buffer `number`, which it showed
in `v'`, remembers its cursor if it was left for that. -/
structure Return (v v' v'' : View) (number : Nat) : Prop where
  onlyMoved : v'.buffers.OnlyMoved v''.buffers
  id : v''.id = v'.id
  buffer : v''.buffer = v.buffer
  cursor : v''.cursor = v.cursor
  pending : v''.splitPending = v'.splitPending
  remembers : v.buffer ≠ some number → ∀ b, v''.buffers.get? number = some b →
    b.cursor = v'.cursor

theorem switchBuffer_none {number : Nat} (hbuffer : ws.window.buffer = some number)
    (hmay : ws.mayShow none = true) :
  ws.switchBuffer none = .ok ws.detach
  := by
  rw [switchBuffer, hbuffer, hmay]
  rfl

theorem switchBuffer_shown {number : Nat} (hbuffer : ws.window.buffer = some number) :
  ws.switchBuffer (some number) = .ok ws
  := by
  simp [switchBuffer, hbuffer]

theorem switchBuffer_listed {number : Nat} {b : Buffer} (hbuffer : ws.window.buffer ≠ some number)
    (hlisted : ws.buffers.listed? number = some b) (hmay : ws.mayShow (some number) = true) :
  ws.switchBuffer (some number) = .ok (ws.showBuffer number)
  := by
  have hnumber : b.number = number := by
    have hfound := Buffers.number_of_listed? hlisted
    omega
  rw [switchBuffer]
  simp only [hlisted, hnumber, hmay, if_true]
  rw [if_neg]
  intro hsame
  apply hbuffer
  cases hb : ws.window.buffer with
  | none =>
      rw [hb] at hsame
      cases hsame
  | some n =>
      rw [hb] at hsame
      have hcast : (n : Int) = number := Option.some.inj hsame
      rw [Int.ofNat.inj hcast]

theorem goTo_of_switchBuffer {v : View} {ws' : Workspace}
    (hswitch : ws.switchBuffer (v.buffer.map fun n : Nat => (n : Int)) = .ok ws') :
  ws.goTo v.position = .ok (ws'.setCursor v.cursor)
  := by
  rw [goTo, View.position, hswitch]
  rfl

/-- A buffer that was left remembers the cursor that was in it. -/
theorem remembers_saveCursor {number : Nat} {b b' : Buffer}
    (hbuffer : ws.window.buffer = some number) (hb : ws.buffers.get? number = some b)
    (hb' : ws.saveCursor.buffers.get? number = some b') :
  b'.cursor = ws.window.cursor
  := by
  rw [get?_saveCursor hbuffer hb] at hb'
  rw [← Option.some.inj hb']

section

variable {v : View} {resolved : Path} {number : Nat} {target : Option Cursor}

/-- The window may leave the buffer that it has come to, if that is not modified. -/
theorem Arrival.mayShow (h : Arrival v ws.view resolved number target)
    (hclean : ∀ b, ws.buffers.get? number = some b → b.modified = false) (other : Option Nat) :
  ws.mayShow other = true
  := by
  apply (mayShow_iff ws other).mpr
  intro n hn b hb
  obtain rfl : number = n := Option.some.inj (h.buffer.symm.trans hn)
  left
  apply hclean b hb

/-- The way back to a window that showed no buffer. -/
theorem Arrival.return_detach (h : Arrival v ws.view resolved number target)
    (hbuffer : v.buffer = none) (hcursor : v.cursor = Cursor.start) :
  Return v ws.view (ws.detach.setCursor v.cursor).view number
  := by
  obtain ⟨b, hb⟩ := h.exists_get?
  constructor
  · apply onlyMoved_saveCursor
  · change ws.saveCursor.window.id = ws.window.id
    rw [window_saveCursor]
  · exact hbuffer.symm
  · rw [hcursor]
    apply Cursor.clamp_start
  · apply splitPending_saveCursor
  · intro _ b' hb'
    apply remembers_saveCursor h.buffer hb hb'

/-- The way back within one buffer. -/
theorem Arrival.return_setCursor (h : Arrival v ws.view resolved number target) {b : Buffer}
    (hbuffer : v.buffer = some number) (hb : ws.buffers.get? number = some b)
    (hclamp : v.cursor.clamp b.lines = v.cursor) :
  Return v ws.view (ws.setCursor v.cursor).view number
  := by
  constructor
  · apply Buffers.OnlyMoved.refl
  · rfl
  · apply h.buffer.trans hbuffer.symm
  · change v.cursor.clamp (ws.linesOf ws.window) = v.cursor
    rw [linesOf_of_get? h.buffer hb, hclamp]
  · rfl
  · intro hne
    contradiction

/-- The way back to another buffer. -/
theorem Arrival.return_showBuffer (h : Arrival v ws.view resolved number target) {n : Nat}
    {b : Buffer} (hbuffer : v.buffer = some n) (hne : n ≠ number)
    (hb : ws.buffers.get? n = some b) (hclamp : v.cursor.clamp b.lines = v.cursor) :
  Return v ws.view ((ws.showBuffer n).setCursor v.cursor).view number
  := by
  obtain ⟨left, hleft⟩ := h.exists_get?
  obtain ⟨hshows, hid⟩ := window_showBuffer ws n
  have hother : ws.window.buffer ≠ some n := by
    intro hsame
    apply hne
    apply Option.some.inj (hsame.symm.trans h.buffer)
  have hbuffers : (ws.showBuffer n).buffers = ws.saveCursor.buffers := by
    rw [showBuffer_other hother hb]
    rfl
  obtain ⟨c, hget⟩ := (onlyMoved_showBuffer ws n).get? hb
  constructor
  · apply onlyMoved_showBuffer
  · exact hid
  · apply hshows.trans hbuffer.symm
  · change v.cursor.clamp ((ws.showBuffer n).linesOf (ws.showBuffer n).window) = v.cursor
    rw [linesOf_of_get? hshows hget, hclamp]
  · apply splitPending_showBuffer
  · intro _ b' hb'
    change (ws.showBuffer n).buffers.get? number = some b' at hb'
    rw [hbuffers] at hb'
    apply remembers_saveCursor h.buffer hleft hb'

/-- After an arrival, the window can go back to where it was, unless it would leave a modified
buffer, or come to one that is not listed. -/
theorem Arrival.goTo_back (h : Arrival v ws.view resolved number target)
    (hfits : v.buffers.Holds v.buffer v.cursor)
    (hlisted : ∀ n : Nat, v.buffer = some n → ∃ b, v.buffers.listed? n = some b)
    (hleave : v.buffer = some number
      ∨ ∀ b, ws.buffers.get? number = some b → b.modified = false) :
  ∃ ws', ws.goTo v.position = .ok ws' ∧ Return v ws.view ws'.view number
  := by
  have hmay : v.buffer ≠ some number → ∀ other, ws.mayShow other = true := by
    intro hne
    apply h.mayShow
    apply hleave.resolve_left hne
  -- The window showed no buffer, the one that it shows now, or another one.
  rcases hfits with ⟨hnone, hstart⟩ | ⟨n, b, hn, hb, hclamp⟩
  · have hne : v.buffer ≠ some number := by
      rw [hnone]
      nofun
    refine ⟨_, goTo_of_switchBuffer ?_, h.return_detach hnone hstart⟩
    rw [hnone]
    apply switchBuffer_none h.buffer (hmay hne none)
  obtain ⟨c, hget⟩ := h.get n b hb
  by_cases hsame : n = number
  · subst hsame
    refine ⟨_, goTo_of_switchBuffer ?_, h.return_setCursor hn hget hclamp⟩
    rw [hn]
    apply switchBuffer_shown h.buffer
  · have hne : v.buffer ≠ some number := by
      rw [hn]
      simpa using hsame
    have hother : ws.window.buffer ≠ some n := by
      intro hshown
      apply hsame
      apply Option.some.inj (hshown.symm.trans h.buffer)
    obtain ⟨b', hb'⟩ := hlisted n hn
    obtain ⟨c', hlisted'⟩ := h.listed n b' hb'
    refine ⟨_, goTo_of_switchBuffer ?_, h.return_showBuffer hn hsame hget hclamp⟩
    rw [hn]
    apply switchBuffer_listed hother hlisted' (hmay hne (some n))

end

/-! ### Going to the file again -/

section

variable {v v' : View} {resolved : Path} {number : Nat} {target : Option Cursor}

/-- The window may leave again what it has left before. -/
theorem Return.mayShow (hreturn : Return v v' ws.view number)
    (harrival : Arrival v v' resolved number target) (hfits : v.buffers.Holds v.buffer v.cursor) :
  ws.mayShow (some number) = true
  := by
  apply (mayShow_iff ws _).mpr
  intro n hn b hb
  have hbuffer : v.buffer = some n := hreturn.buffer.symm.trans hn
  rcases hfits with ⟨hnone, -⟩ | ⟨n', origin, hn', horigin, -⟩
  · rw [hnone] at hbuffer
    cases hbuffer
  · obtain rfl : n' = n := Option.some.inj (hn'.symm.trans hbuffer)
    obtain ⟨c, hget⟩ := harrival.get n' origin horigin
    obtain ⟨c', hget'⟩ := hreturn.onlyMoved.get? hget
    obtain rfl := Option.some.inj (hget'.symm.trans hb)
    rcases harrival.leave n' hn' origin horigin with hmodified | rfl
    · left
      exact hmodified
    · right
      rfl

/-- Where the cursor was left is where it is when the buffer shows again. -/
theorem Return.cursor_showBuffer (hreturn : Return v v' ws.view number) {b : Buffer}
    (hb : v'.buffers.get? number = some b) (hclamp : v'.cursor.clamp b.lines = v'.cursor)
    (hne : v.buffer ≠ some number) :
  (ws.showBuffer number).window.cursor = v'.cursor
  := by
  have hother : ws.window.buffer ≠ some number := by
    rw [← hreturn.buffer] at hne
    exact hne
  obtain ⟨c, hget⟩ := hreturn.onlyMoved.get? hb
  have hcursor := hreturn.remembers hne _ hget
  rw [showBuffer_other hother hget]
  change Cursor.clamp b.lines c = _
  change c = _ at hcursor
  rw [hcursor, hclamp]

/-- A switch to the file of an arrival, after the return from it, shows the file again, and the same
move of the cursor brings it back to where it was. -/
theorem Return.editFile (hreturn : Return v v' ws.view number)
    (harrival : Arrival v v' resolved number target) (hfits : v.buffers.Holds v.buffer v.cursor)
    {b : Buffer} (hb : v'.buffers.get? number = some b)
    (hclamp : v'.cursor.clamp b.lines = v'.cursor) {w : World} {path : Path}
    (hresolve : w.resolve path = .ok resolved) :
  ws.editFile w path = (.made, [], ws.showBuffer number)
    ∧ (ws.showBuffer number).lines = b.lines
    ∧ ((ws.showBuffer number).moveTo target).window.cursor = v'.cursor
  := by
  obtain ⟨found, hfound, rfl⟩ := harrival.found
  obtain ⟨c, hfind⟩ := hreturn.onlyMoved.find? hfound
  obtain ⟨c', hget⟩ := (hreturn.onlyMoved.trans (onlyMoved_showBuffer ws _)).get? hb
  have hpending : ws.splitPending = false := hreturn.pending.trans harrival.pending
  have hlines : (ws.showBuffer found.number).lines = b.lines := by
    have hshown := linesOf_of_get? (window_showBuffer ws found.number).1 hget
    exact hshown
  refine ⟨?_, hlines, ?_⟩
  · have hagain := editFile_of_find? hpending hresolve hfind (hreturn.mayShow harrival hfits)
    exact hagain
  · cases htarget : target with
    | some c =>
        change c.clamp (ws.showBuffer found.number).lines = _
        rw [hlines, harrival.moved c b htarget hb]
    -- The cursor stays where the switch puts it: where it was in the same buffer, and where another
    -- buffer remembers it.
    | none =>
        by_cases hsame : v.buffer = some found.number
        · have hshown : ws.window.buffer = some found.number := hreturn.buffer.trans hsame
          rw [showBuffer_of_shown hshown, harrival.stays htarget hsame, ← hreturn.cursor]
          rfl
        · apply hreturn.cursor_showBuffer hb hclamp hsame

/-- The file that shows after the return is the one that was left. -/
theorem Return.currentFile {origin : Workspace} (hreturn : Return origin.view v' ws.view number)
    (harrival : Arrival origin.view v' resolved number target)
    (hfits : origin.buffers.Holds origin.window.buffer origin.window.cursor) :
  ws.currentFile = origin.currentFile
  := by
  have hbuffer : ws.window.buffer = origin.window.buffer := hreturn.buffer
  rw [Workspace.currentFile, Workspace.currentFile, bufferOf, bufferOf, hbuffer]
  rcases hfits with ⟨hnone, -⟩ | ⟨n, b, hn, hb, -⟩
  · rw [hnone]
    rfl
  · obtain ⟨c, hget⟩ := harrival.get n b hb
    obtain ⟨c', hget'⟩ := hreturn.onlyMoved.get? hget
    change ws.buffers.get? n = _ at hget'
    rw [hn, Option.bind_some, Option.bind_some, hget', hb]
    rfl

theorem position_view (ws : Workspace) :
  ws.view.position = positionOf ws.window
  := by
  rw [View.position, positionOf, view]
  cases ws.window.buffer <;> rfl

end

end Workspace

end TagNavigator
