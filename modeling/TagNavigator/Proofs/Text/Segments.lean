import TagNavigator.Proofs.Text.Utf8
import TagNavigator.Text.Lines

/-!
# Segments of bytes

The records of an index end at a line feed. `Utf8.segments` cuts the bytes of an index after every
byte of a line feed (`cut_segments`), and `afterLineFeeds_decodeLossy` says that the lines of the
decoded text are the segments decoded one by one: an ill-formed sequence ends at a line feed at the
latest, and no other byte gives a line feed. So what stands in one segment never shows in another.
Nor does an ill-formed sequence swallow a space or a tab (`mem_decodeLossy_iff`).
-/

namespace TagNavigator

namespace Utf8

/-- The byte of a line feed. -/
def lineFeed : UInt8 := 10

/-- The bytes cut after every line feed. -/
def segments : Bytes → List Bytes
  | [] => []
  | b :: rest =>
    if b = lineFeed then [b] :: segments rest
    else match segments rest with
      | [] => [[b]]
      | s :: more => (b :: s) :: more

theorem segments_eq_nil_iff {content : Bytes} :
  segments content = [] ↔ content = []
  := by
  cases content with
  | nil => simp [segments]
  | cons b rest =>
      rw [segments]
      by_cases hb : b = lineFeed
      · simp [hb]
      · cases segments rest <;> simp [hb]

/-- The segments of bytes that end with a line feed stay what they are when more bytes follow. -/
theorem segments_append_lineFeed (before rest : Bytes) :
  segments (before ++ lineFeed :: rest) = segments (before ++ [lineFeed]) ++ segments rest
  := by
  induction before with
  | nil => simp [segments]
  | cons b before ih =>
      rw [List.cons_append, List.cons_append, segments, segments, ih]
      by_cases hb : b = lineFeed
      · rw [if_pos hb, if_pos hb]
        rfl
      · rw [if_neg hb, if_neg hb]
        cases hs : segments (before ++ [lineFeed]) with
        | nil => simp [segments_eq_nil_iff] at hs
        | cons s more => rfl

/-! ### The cut after every line feed -/

/-- The parts make up the bytes.  A line feed ends each part but the last, which it may end too, and
stands nowhere else. -/
structure Cut (content : Bytes) (parts : List Bytes) : Prop where
  flatten : parts.flatten = content
  ne_nil : ∀ part ∈ parts, part ≠ []
  lineFeed_last : ∀ part ∈ parts, lineFeed ∉ part.dropLast
  ended : ∀ part ∈ parts.dropLast, part.getLast? = some lineFeed

theorem segments_cons_lineFeed (rest : Bytes) :
  segments (lineFeed :: rest) = [lineFeed] :: segments rest
  := by
  rw [segments, if_pos rfl]

theorem segments_cons_of_ne {b : UInt8} (hb : b ≠ lineFeed) {rest s : Bytes} {more : List Bytes}
    (hs : segments rest = s :: more) :
  segments (b :: rest) = (b :: s) :: more
  := by
  rw [segments, if_neg hb, hs]

theorem cut_nil :
  Cut [] []
  := by
  constructor
  · rfl
  · exact List.forall_mem_nil _
  · exact List.forall_mem_nil _
  · exact List.forall_mem_nil _

theorem Cut.cons_lineFeed {content : Bytes} {parts : List Bytes} (h : Cut content parts) :
  Cut (lineFeed :: content) ([lineFeed] :: parts)
  := by
  constructor
  · rw [List.flatten_cons, h.flatten]
    rfl
  · intro part hpart
    rcases List.mem_cons.mp hpart with rfl | hpart
    · exact List.cons_ne_nil _ _
    · exact h.ne_nil part hpart
  · intro part hpart
    rcases List.mem_cons.mp hpart with rfl | hpart
    · exact List.not_mem_nil
    · exact h.lineFeed_last part hpart
  · intro part hpart
    cases parts with
    | nil => cases hpart
    | cons s more =>
        rcases List.mem_cons.mp hpart with rfl | hpart
        · rfl
        · exact h.ended part hpart

theorem cut_single (b : UInt8) :
  Cut [b] [[b]]
  := by
  constructor
  · rfl
  · exact List.forall_mem_singleton.mpr (List.cons_ne_nil _ _)
  · intro part hpart
    obtain rfl := List.mem_singleton.mp hpart
    exact List.not_mem_nil
  · exact List.forall_mem_nil _

theorem Cut.cons_of_ne {content s : Bytes} {more : List Bytes} (h : Cut content (s :: more))
    {b : UInt8} (hb : b ≠ lineFeed) :
  Cut (b :: content) ((b :: s) :: more)
  := by
  have hs := h.ne_nil s List.mem_cons_self
  constructor
  · rw [← h.flatten]
    rfl
  · intro part hpart
    rcases List.mem_cons.mp hpart with rfl | hpart
    · exact List.cons_ne_nil _ _
    · exact h.ne_nil part (List.mem_cons_of_mem _ hpart)
  · intro part hpart
    rcases List.mem_cons.mp hpart with rfl | hpart
    · rw [List.dropLast_cons_of_ne_nil hs]
      apply List.not_mem_cons_of_ne_of_not_mem (Ne.symm hb)
      exact h.lineFeed_last s List.mem_cons_self
    · exact h.lineFeed_last part (List.mem_cons_of_mem _ hpart)
  · intro part hpart
    cases more with
    | nil => cases hpart
    | cons s' more =>
        rcases List.mem_cons.mp hpart with rfl | hpart
        · rw [List.getLast?_cons_of_ne_nil hs]
          exact h.ended s List.mem_cons_self
        · exact h.ended part (List.mem_cons_of_mem _ hpart)

/-- The segments cut the bytes after every line feed. -/
theorem cut_segments (content : Bytes) :
  Cut content (segments content)
  := by
  induction content with
  | nil => exact cut_nil
  | cons b rest ih =>
      by_cases hb : b = lineFeed
      · subst hb
        rw [segments_cons_lineFeed]
        exact ih.cons_lineFeed
      · cases hs : segments rest with
        | nil =>
            rw [segments, if_neg hb, hs, segments_eq_nil_iff.mp hs]
            exact cut_single b
        | cons s more =>
            rw [segments_cons_of_ne hb hs]
            rw [hs] at ih
            exact ih.cons_of_ne hb

/-! ### What a byte completes -/

/-- The text of the bytes that follow the state. -/
def lossyFrom (state : State) (bytes : Bytes) : Text :=
  (decodeFrom state bytes).map (·.getD '\ufffd')

/-- The states in which no byte but a line feed completes a line feed: what is completed next has a
bit beyond the last six. -/
def State.NoLineFeed : State → Prop
  | .ready => True
  | .within bits count low _ => 0x80 ≤ low ∧ (1 ≤ bits ∨ (2 ≤ count ∧ 0x80 < low))

theorem start_state_noLineFeed (b : Nat) :
  (start b).2.NoLineFeed
  := by
  unfold start
  repeat' split
  all_goals simp only [State.NoLineFeed]
  all_goals omega

theorem step_state_noLineFeed {state : State} (h : state.NoLineFeed) (b : Nat) :
  (step state b).2.NoLineFeed
  := by
  cases state with
  | ready => exact start_state_noLineFeed b
  | within bits count low high =>
      obtain ⟨hlow, hbits⟩ := h
      simp only [step]
      split
      next hb =>
        simp only [Bool.and_eq_true, decide_eq_true_eq] at hb
        split
        · trivial
        · simp only [State.NoLineFeed]
          omega
      next => exact start_state_noLineFeed b

/-- A line feed completes itself, after the sequence that it cuts short. -/
theorem step_lineFeed {state : State} (h : state.NoLineFeed) :
  step state lineFeed.toNat = ([some '\n'], .ready)
    ∨ step state lineFeed.toNat = ([none, some '\n'], .ready)
  := by
  cases state with
  | ready =>
      left
      rfl
  | within bits count low high =>
      right
      have hlow : ¬ low ≤ 10 := by
        have := h.1
        omega
      simp [step, lineFeed, hlow, start]

theorem ofNat_ne_lineFeed {n : Nat} (h : n ≠ 10) :
  Char.ofNat n ≠ '\n'
  := by
  intro he
  by_cases hn : n.isValidChar
  · have hval := congrArg Char.toNat he
    rw [Char.ofNat, dif_pos hn] at hval
    exact h hval
  · rw [Char.ofNat, dif_neg hn] at he
    exact absurd he (by decide)

theorem start_completes_no_lineFeed {b : Nat} (h : b ≠ 10) :
  ∀ c ∈ (start b).1, c ≠ some '\n'
  := by
  unfold start
  repeat' split
  all_goals simp [ofNat_ne_lineFeed h]

/-- No other byte completes a line feed. -/
theorem step_completes_no_lineFeed {state : State} (hs : state.NoLineFeed) {b : Nat} (h : b ≠ 10) :
  ∀ c ∈ (step state b).1, c ≠ some '\n'
  := by
  cases state with
  | ready => exact start_completes_no_lineFeed h
  | within bits count low high =>
      obtain ⟨hlow, hbits⟩ := hs
      simp only [step]
      split
      next hb =>
        simp only [Bool.and_eq_true, decide_eq_true_eq] at hb
        split
        next hcount =>
          have : Char.ofNat (64 * bits + (b - 0x80)) ≠ '\n' := by
            apply ofNat_ne_lineFeed
            omega
          simpa using this
        next => simp
      next =>
        intro c hc
        rcases List.mem_cons.mp hc with rfl | hc
        · simp
        · exact start_completes_no_lineFeed h c hc

/-! ### Lines of the decoded text -/

end Utf8

namespace Text

theorem afterLineFeeds_line {before : Text} (h : ∀ c ∈ before, c ≠ '\n') (t : Text) :
  afterLineFeeds (before ++ '\n' :: t) = (before ++ ['\n']) :: afterLineFeeds t
  := by
  induction before with
  | nil => simp [afterLineFeeds]
  | cons c before ih =>
      obtain ⟨hc, hbefore⟩ := List.forall_mem_cons.mp h
      rw [List.cons_append, afterLineFeeds, if_neg hc, ih hbefore]
      rfl

/-- Characters other than a line feed lengthen the first line of what follows. -/
theorem afterLineFeeds_append {before t first : Text} {more : List Text}
    (h : ∀ c ∈ before, c ≠ '\n') (ht : afterLineFeeds t = first :: more) :
  afterLineFeeds (before ++ t) = (before ++ first) :: more
  := by
  induction before with
  | nil => exact ht
  | cons c before ih =>
      obtain ⟨hc, hbefore⟩ := List.forall_mem_cons.mp h
      rw [List.cons_append, afterLineFeeds, if_neg hc, ih hbefore]
      rfl

theorem afterLineFeeds_single {t : Text} (h : ∀ c ∈ t, c ≠ '\n') (ht : t ≠ []) :
  afterLineFeeds t = [t]
  := by
  obtain ⟨c, t, rfl⟩ := List.exists_cons_of_ne_nil ht
  induction t generalizing c with
  | nil => simp [afterLineFeeds, h c]
  | cons d t ih =>
      obtain ⟨hc, hrest⟩ := List.forall_mem_cons.mp h
      rw [afterLineFeeds, if_neg hc, ih d hrest (List.cons_ne_nil d t)]

end Text

namespace Utf8

theorem lossyFrom_cons (state : State) (b : UInt8) (rest : Bytes) :
  lossyFrom state (b :: rest)
    = (step state b.toNat).1.map (·.getD '\ufffd') ++ lossyFrom (step state b.toNat).2 rest
  := by
  rw [lossyFrom, decodeFrom_cons, List.map_append]
  rfl

theorem lossyFrom_ready_nil :
  lossyFrom .ready [] = []
  := rfl

/-- At a line feed at most one sequence is cut short, and the reading starts anew after it. -/
theorem lossyFrom_lineFeed {state : State} (h : state.NoLineFeed) :
  ∃ before : Text, (∀ c ∈ before, c ≠ '\n')
    ∧ ∀ rest, lossyFrom state (lineFeed :: rest) = before ++ '\n' :: lossyFrom .ready rest
  := by
  rcases step_lineFeed h with hstep | hstep
  · refine ⟨[], List.forall_mem_nil _, ?_⟩
    intro rest
    rw [lossyFrom_cons, hstep]
    rfl
  · refine ⟨['\ufffd'], List.forall_mem_singleton.mpr (by decide), ?_⟩
    intro rest
    rw [lossyFrom_cons, hstep]
    rfl

/-- What a byte other than a line feed completes holds no line feed. -/
theorem step_lossy_no_lineFeed {state : State} (hs : state.NoLineFeed) {b : UInt8}
    (h : b ≠ lineFeed) :
  ∀ c ∈ (step state b.toNat).1.map (·.getD '\ufffd'), c ≠ '\n'
  := by
  have hb : b.toNat ≠ 10 := by
    intro he
    exact h (UInt8.toNat_inj.mp he)
  intro c hc
  obtain ⟨completed, hmem, rfl⟩ := List.mem_map.mp hc
  have := step_completes_no_lineFeed hs hb completed hmem
  cases completed with
  | none => decide
  | some c => simpa using this

theorem lossyFrom_nil_no_lineFeed (state : State) :
  ∀ c ∈ lossyFrom state [], c ≠ '\n'
  := by
  cases state <;> simp [lossyFrom, decodeFrom]

theorem start_completes_of_ready {b : Nat} (h : (start b).2 = .ready) :
  (start b).1 ≠ []
  := by
  revert h
  unfold start
  repeat' split
  all_goals simp

/-- A byte completes something unless a sequence stays open after it. -/
theorem step_completes_of_ready {state : State} {b : Nat} (h : (step state b).2 = .ready) :
  (step state b).1 ≠ []
  := by
  cases state with
  | ready => exact start_completes_of_ready h
  | within bits count low high =>
      revert h
      simp only [step]
      repeat' split
      all_goals simp

/-- A single byte always leaves something: what it completes, or a sequence that is cut short. -/
theorem lossyFrom_single_ne_nil (state : State) (b : UInt8) :
  lossyFrom state [b] ≠ []
  := by
  rw [lossyFrom_cons]
  cases hs : (step state b.toNat).2 with
  | ready => simpa [lossyFrom, decodeFrom] using step_completes_of_ready hs
  | within bits count low high => simp [lossyFrom, decodeFrom]

/-- The lines of the text of some bytes are the texts of their segments. After the first segment the
reading starts anew. -/
theorem afterLineFeeds_lossyFrom {state : State} (h : state.NoLineFeed) (bytes : Bytes) :
  Text.afterLineFeeds (lossyFrom state bytes)
    = match segments bytes with
      | [] => Text.afterLineFeeds (lossyFrom state [])
      | s :: more => lossyFrom state s :: more.map decodeLossy
  := by
  induction bytes generalizing state with
  | nil => rfl
  | cons b rest ih =>
      by_cases hb : b = lineFeed
      · have hrest : Text.afterLineFeeds (lossyFrom .ready rest)
            = (segments rest).map decodeLossy := by
          have hready : State.ready.NoLineFeed := trivial
          rw [ih hready]
          cases segments rest <;> rfl
        subst hb
        obtain ⟨before, hbefore, hline⟩ := lossyFrom_lineFeed h
        rw [segments, if_pos rfl, hline rest, Text.afterLineFeeds_line hbefore, hrest]
        dsimp only
        rw [hline [], lossyFrom_ready_nil]
      · have hout := step_lossy_no_lineFeed h hb
        have hrest := ih (step_state_noLineFeed h b.toNat)
        rw [segments, if_neg hb]
        cases hs : segments rest with
        | nil =>
            rw [segments_eq_nil_iff.mp hs]
            apply Text.afterLineFeeds_single
            · rw [lossyFrom_cons]
              exact List.forall_mem_append.mpr ⟨hout, lossyFrom_nil_no_lineFeed _⟩
            · apply lossyFrom_single_ne_nil
        | cons s more =>
            rw [hs] at hrest
            rw [lossyFrom_cons, Text.afterLineFeeds_append hout hrest]
            dsimp only
            rw [lossyFrom_cons]

/-- The lines of the decoded text are the segments decoded one by one. -/
theorem afterLineFeeds_decodeLossy (content : Bytes) :
  Text.afterLineFeeds (decodeLossy content) = (segments content).map decodeLossy
  := by
  have h : State.ready.NoLineFeed := trivial
  have hlines := afterLineFeeds_lossyFrom h content
  cases hs : segments content with
  | nil =>
      rw [hs] at hlines
      exact hlines
  | cons s more =>
      rw [hs] at hlines
      exact hlines

/-! ### Bytes below 0x40 -/

theorem ofNat_eq_ofNat_iff {m n : Nat} (hpos : 0 < n) (hlt : n < 0x40) :
  Char.ofNat m = Char.ofNat n ↔ m = n
  := by
  have hn : n.isValidChar := by
    left
    omega
  constructor
  · intro h
    by_cases hm : m.isValidChar
    · rw [Char.ofNat, dif_pos hm, Char.ofNat, dif_pos hn] at h
      exact congrArg Char.toNat h
    · rw [Char.ofNat, dif_neg hm, Char.ofNat, dif_pos hn] at h
      have hzero : 0 = n := congrArg Char.toNat h
      omega
  · rintro rfl
    rfl

/-- Of all bytes, just the one with the code of such a character completes it. -/
theorem mem_start_iff {b n : Nat} (hpos : 0 < n) (hlt : n < 0x40) :
  some (Char.ofNat n) ∈ (start b).1 ↔ b = n
  := by
  unfold start
  split
  · rw [List.mem_singleton, Option.some.injEq, eq_comm, ofNat_eq_ofNat_iff hpos hlt]
  · repeat' split
    all_goals simp
    all_goals omega

theorem mem_step_iff {state : State} (hs : state.NoLineFeed) {b n : Nat} (hpos : 0 < n)
    (hlt : n < 0x40) :
  some (Char.ofNat n) ∈ (step state b).1 ↔ b = n
  := by
  cases state with
  | ready => exact mem_start_iff hpos hlt
  | within bits count low high =>
      obtain ⟨hlow, hbits⟩ := hs
      simp only [step]
      split
      next hb =>
        simp only [Bool.and_eq_true, decide_eq_true_eq] at hb
        have hne : b ≠ n := by
          omega
        split
        next hcount =>
          rw [List.mem_singleton, Option.some.injEq, eq_comm, ofNat_eq_ofNat_iff hpos hlt]
          omega
        next => simp [hne]
      next => simpa using mem_start_iff hpos hlt

theorem mem_lossyFrom_iff {state : State} (hs : state.NoLineFeed) {a : UInt8} (hpos : 0 < a.toNat)
    (hlt : a.toNat < 0x40) (bytes : Bytes) :
  Char.ofNat a.toNat ∈ lossyFrom state bytes ↔ a ∈ bytes
  := by
  have hreplacement : Char.ofNat 0xfffd ≠ Char.ofNat a.toNat := by
    intro h
    have := (ofNat_eq_ofNat_iff hpos hlt).mp h
    omega
  have hget (c : Option Char) :
      c.getD '\ufffd' = Char.ofNat a.toNat ↔ c = some (Char.ofNat a.toNat) := by
    cases c with
    | none => simpa using hreplacement
    | some c => simp
  induction bytes generalizing state with
  | nil =>
      cases state with
      | ready => simp [lossyFrom, decodeFrom]
      | within bits count low high => simpa [lossyFrom, decodeFrom] using hreplacement.symm
  | cons b rest ih =>
      have hrest := ih (step_state_noLineFeed hs b.toNat)
      rw [lossyFrom_cons, List.mem_append, List.mem_cons]
      apply or_congr _ hrest
      simp only [List.mem_map, hget, exists_eq_right]
      rw [mem_step_iff hs hpos hlt, UInt8.toNat_inj, eq_comm]

/-- A byte below 0x40 is decoded to its character, whatever stands around it, and no other bytes
are. -/
theorem mem_decodeLossy_iff {a : UInt8} (hpos : 0 < a.toNat) (hlt : a.toNat < 0x40)
    (bytes : Bytes) :
  Char.ofNat a.toNat ∈ decodeLossy bytes ↔ a ∈ bytes
  := by
  have hready : State.ready.NoLineFeed := trivial
  exact mem_lossyFrom_iff hready hpos hlt bytes

end Utf8

end TagNavigator
