import Mathlib.Data.List.Basic
import TagNavigator.Text.Lowercase

/-!
# Lower case and prefixes

A text in lower case stays as it is in lower case (`lowercaseAfter_of_lower`).  The lower case of a
prefix is a prefix of the lower case, with two exceptions: a capital I with a dot above becomes two
characters, so that a prefix of a given length takes in less of the text, and a capital sigma at the
end of the prefix may not be at the end of the word (`TornSigma`).  `lowercase_take_iff` says that
there are no others.
-/

namespace TagNavigator.Text

/-! ### Characters -/

namespace CaseRun

/-- The code point that the run moves `n` to. -/
def image (r : CaseRun) (n : Nat) : Nat := ((n : Int) + r.shift).toNat

/-- Whether the run moves nothing from `lo` to `hi`, or, if `alternate` is on, none of every other
code point from `lo` to `hi`. -/
def misses (r : CaseRun) (lo hi : Nat) (alternate : Bool) : Bool :=
  Nat.blt hi r.first || (Nat.blt r.last lo
    || (alternate && (Nat.blt 0 lo && (Nat.beq r.step 2 && Nat.beq ((lo + r.first) % 2) 1))))

/-- Whether no run moves what the run `r` moves something to. -/
def settles (r : CaseRun) : Bool :=
  let lo := r.image r.first
  let hi := r.image r.last
  let alternate := Nat.beq r.step 2 || Nat.beq r.first r.last
  caseRuns.all fun q => q.misses lo hi alternate

theorem settles_caseRuns :
  caseRuns.all settles = true
  := by
  decide +kernel

variable {r q : CaseRun} {n : Nat}

theorem moves_iff :
  r.moves n = true ↔ r.first ≤ n ∧ n ≤ r.last ∧ (n - r.first) % r.step = 0
  := by
  simp [moves, and_assoc]

theorem moves_eq_false_of_misses {lo hi : Nat} {alternate : Bool}
    (h : r.misses lo hi alternate = true) (hlo : lo ≤ n) (hhi : n ≤ hi)
    (halternate : alternate = true → 0 < lo → (n - lo) % 2 = 0) :
  r.moves n = false
  := by
  simp only [misses, Bool.or_eq_true, Bool.and_eq_true, Nat.blt_eq, Nat.beq_eq] at h
  rw [← Bool.not_eq_true, moves_iff]
  rintro ⟨hfirst, hlast, hstep⟩
  rcases h with h | h | ⟨h, hpos, htwo, hodd⟩
  · omega
  · omega
  · have heven := halternate h hpos
    rw [htwo] at hstep
    omega

/-- What a run moves a code point to, no run moves any further. -/
theorem moves_image (hr : r ∈ caseRuns) (hq : q ∈ caseRuns) (hn : r.moves n = true) :
  q.moves (r.image n) = false
  := by
  obtain ⟨hfirst, hlast, hstep⟩ := moves_iff.mp hn
  have hsettles := List.all_eq_true.mp (List.all_eq_true.mp settles_caseRuns r hr) q hq
  apply moves_eq_false_of_misses hsettles
  · unfold image
    omega
  · unfold image
    omega
  · simp only [Bool.or_eq_true, Nat.beq_eq, image]
    rintro (htwo | hsingle) hpos
    · rw [htwo] at hstep
      omega
    · omega

end CaseRun

theorem lower_of_not_moves {c : Char} (h : ∀ r ∈ caseRuns, r.moves c.toNat = false) :
  lower c = c
  := by
  have hfind : caseRuns.find? (·.moves c.toNat) = none := by
    simpa using h
  rw [lower, hfind]

/-- A number that is no code point is taken for zero. -/
theorem toNat_ofNat (n : Nat) :
  (Char.ofNat n).toNat = n ∨ (Char.ofNat n).toNat = 0
  := by
  by_cases hn : n.isValidChar
  · left
    rw [Char.ofNat, dif_pos hn]
    rfl
  · right
    rw [Char.ofNat, dif_neg hn]
    rfl

/-- A character in lower case stays as it is in lower case. -/
theorem lower_lower (c : Char) :
  lower (lower c) = lower c
  := by
  cases h : caseRuns.find? (·.moves c.toNat) with
  | none =>
      have hc : lower c = c := by rw [lower, h]
      rw [hc, hc]
  | some r =>
      have hc : lower c = Char.ofNat (r.image c.toNat) := by
        rw [lower, h]
        rfl
      have hmoves := List.find?_some h
      rw [hc]
      apply lower_of_not_moves
      intro q hq
      rcases toNat_ofNat (r.image c.toNat) with hvalid | hzero
      · rw [hvalid]
        exact CaseRun.moves_image (List.mem_of_find?_eq_some h) hq hmoves
      · have hnone : caseRuns.all (!·.moves 0) = true := by decide
        rw [hzero]
        simpa using List.all_eq_true.mp hnone q hq

/-! ### Texts -/

/-- The lower case of the character `c` of a text, where `before` is what precedes it, nearest
character first, and `t` what follows it. -/
def lowerWithin (before : Text) (c : Char) (t : Text) : Text :=
  if c = '\u0130' then ['i', '\u0307']
  else if c = '\u03a3' && meetsCased before && !meetsCased t then ['\u03c2']
  else [lower c]

theorem lowercaseAfter_cons (before : Text) (c : Char) (t : Text) :
  lowercaseAfter before (c :: t) = lowerWithin before c t ++ lowercaseAfter (c :: before) t
  := rfl

theorem lower_of_mem_lowerWithin {before t : Text} {c d : Char} (hd : d ∈ lowerWithin before c t) :
  lower d = d
  := by
  unfold lowerWithin at hd
  split at hd
  · rcases List.mem_pair.mp hd with rfl | rfl <;> decide
  · split at hd
    · rw [List.mem_singleton.mp hd]
      decide
    · rw [List.mem_singleton.mp hd, lower_lower]

theorem lower_of_mem_lowercaseAfter {before t : Text} {d : Char}
    (hd : d ∈ lowercaseAfter before t) :
  lower d = d
  := by
  induction t generalizing before with
  | nil => cases hd
  | cons c t ih =>
      rcases List.mem_append.mp hd with hd | hd
      · exact lower_of_mem_lowerWithin hd
      · exact ih hd

/-- A character that is in lower case is none of the two that a text treats in a way of its own. -/
theorem lowerWithin_of_lower {c : Char} (hc : lower c = c) (before t : Text) :
  lowerWithin before c t = [c]
  := by
  have hdotted : c ≠ '\u0130' := by
    rintro rfl
    revert hc
    decide
  have hsigma : c ≠ '\u03a3' := by
    rintro rfl
    revert hc
    decide
  simp [lowerWithin, hdotted, hsigma, hc]

/-- A text in lower case stays as it is in lower case. -/
theorem lowercaseAfter_of_lower {t : Text} (ht : ∀ c ∈ t, lower c = c) (before : Text) :
  lowercaseAfter before t = t
  := by
  induction t generalizing before with
  | nil => rfl
  | cons c t ih =>
      obtain ⟨hc, ht⟩ := List.forall_mem_cons.mp ht
      rw [lowercaseAfter_cons, lowerWithin_of_lower hc, ih ht]
      rfl

theorem length_lowerWithin (before : Text) (c : Char) (t rest : Text) :
  (lowerWithin before c t).length + rest.count '\u0130' = (c :: rest).count '\u0130' + 1
  := by
  rw [lowerWithin, List.count_cons]
  by_cases hdotted : c = '\u0130'
  · simp only [hdotted, if_pos, beq_self_eq_true, List.length_cons, List.length_nil]
    omega
  · simp only [if_neg hdotted, beq_iff_eq]
    split <;> simp only [List.length_singleton] <;> omega

/-- Every capital I with a dot above makes the lower case longer by one character. -/
theorem length_lowercaseAfter (before t : Text) :
  (lowercaseAfter before t).length = t.length + t.count '\u0130'
  := by
  induction t generalizing before with
  | nil => rfl
  | cons c t ih =>
      have hfirst := length_lowerWithin before c t t
      rw [lowercaseAfter_cons, List.length_append, ih, List.length_cons]
      omega

/-! ### Prefixes -/

/-- The last character of the text that is not case-ignorable is a capital sigma after a cased
letter, where `before` precedes the text, nearest character first. -/
def EndsInSigma (before t : Text) : Prop :=
  ∃ u ignorable, t = u ++ '\u03a3' :: ignorable ∧ meetsCased (u.reverse ++ before) = true
    ∧ ∀ c ∈ ignorable, isCaseIgnorable c = true

theorem EndsInSigma.cons {before t : Text} {c : Char} (h : EndsInSigma (c :: before) t) :
  EndsInSigma before (c :: t)
  := by
  obtain ⟨u, ignorable, rfl, hcased, hignorable⟩ := h
  refine ⟨c :: u, ignorable, rfl, ?_, hignorable⟩
  rw [List.reverse_cons, List.append_assoc]
  exact hcased

theorem meetsCased_append_of_ignorable {t : Text} (ht : ∀ c ∈ t, isCaseIgnorable c = true)
    (rest : Text) :
  meetsCased (t ++ rest) = meetsCased rest
  := by
  rw [meetsCased, meetsCased, List.dropWhile_append_of_pos ht]

theorem meetsCased_append_of_not_ignorable {t : Text}
    (ht : ¬ ∀ c ∈ t, isCaseIgnorable c = true) (rest : Text) :
  meetsCased (t ++ rest) = meetsCased t
  := by
  induction t with
  | nil => exact absurd (fun _ => nofun) ht
  | cons c t ih =>
      by_cases hc : isCaseIgnorable c = true
      · have hrest : ¬ ∀ d ∈ t, isCaseIgnorable d = true := by
          intro h
          exact ht (List.forall_mem_cons.mpr ⟨hc, h⟩)
        have hstep (u : Text) : meetsCased (c :: u) = meetsCased u := by
          rw [meetsCased, meetsCased, List.dropWhile_cons_of_pos hc]
        rw [List.cons_append, hstep, hstep, ih hrest]
      · rw [meetsCased, meetsCased, List.cons_append, List.dropWhile_cons_of_neg hc,
          List.dropWhile_cons_of_neg hc]

theorem meetsCased_sigma (t : Text) :
  meetsCased ('\u03a3' :: t) = true
  := by
  have hignorable : ¬ isCaseIgnorable '\u03a3' = true := by decide +kernel
  have hcased : isCased '\u03a3' = true := by decide +kernel
  rw [meetsCased, List.dropWhile_cons_of_neg hignorable]
  exact hcased

theorem lowerWithin_sigma {before : Text} (h : meetsCased before = true) (t : Text) :
  lowerWithin before '\u03a3' t = [if meetsCased t then '\u03c3' else '\u03c2']
  := by
  have hlower : lower '\u03a3' = '\u03c3' := by decide
  cases ht : meetsCased t <;> simp [lowerWithin, h, ht, hlower]

theorem lowerWithin_congr {before t t' : Text} {c : Char}
    (h : c = '\u03a3' → meetsCased before = true → meetsCased t = meetsCased t') :
  lowerWithin before c t = lowerWithin before c t'
  := by
  unfold lowerWithin
  by_cases hc : c = '\u03a3'
  · cases hbefore : meetsCased before with
    | false => simp
    | true => rw [h hc hbefore]
  · simp [hc]

/-- What follows a text makes no difference to the lower case of its characters, unless the text
ends in a sigma and what follows goes on with the word in one case only. -/
theorem lowercaseAfter_append {before t rest rest' : Text}
    (h : EndsInSigma before t → meetsCased rest = meetsCased rest') :
  ∃ image, image.length = t.length + t.count '\u0130'
    ∧ lowercaseAfter before (t ++ rest) = image ++ lowercaseAfter (t.reverse ++ before) rest
    ∧ lowercaseAfter before (t ++ rest') = image ++ lowercaseAfter (t.reverse ++ before) rest'
  := by
  induction t generalizing before with
  | nil => exact ⟨[], rfl, rfl, rfl⟩
  | cons c t ih =>
      have hends : EndsInSigma (c :: before) t → meetsCased rest = meetsCased rest' :=
        fun hs => h hs.cons
      obtain ⟨image, hlength, himage, himage'⟩ := ih hends
      have hsame : lowerWithin before c (t ++ rest) = lowerWithin before c (t ++ rest') := by
        apply lowerWithin_congr
        rintro rfl hbefore
        by_cases ht : ∀ d ∈ t, isCaseIgnorable d = true
        · rw [meetsCased_append_of_ignorable ht, meetsCased_append_of_ignorable ht]
          exact h ⟨[], t, rfl, hbefore, ht⟩
        · rw [meetsCased_append_of_not_ignorable ht, meetsCased_append_of_not_ignorable ht]
      have hfirst := length_lowerWithin before c (t ++ rest) t
      refine ⟨lowerWithin before c (t ++ rest) ++ image, ?_, ?_, ?_⟩
      · rw [List.length_append, hlength, List.length_cons]
        omega
      · rw [List.cons_append, lowercaseAfter_cons, himage]
        simp
      · rw [List.cons_append, lowercaseAfter_cons, himage', hsame]
        simp

/-- Among the first `n` characters of the lower case is a sigma that the text has as a capital after
a cased letter, with case-ignorable characters behind it up to its `n`-th character and a cased
letter beyond: it ends a word of the prefix, but none of the text. -/
def TornSigma (n : Nat) (t : Text) : Prop :=
  ∃ u ignorable, t.take n = u ++ '\u03a3' :: ignorable ∧ u.length + u.count '\u0130' < n
    ∧ meetsCased u.reverse = true ∧ (∀ c ∈ ignorable, isCaseIgnorable c = true)
    ∧ meetsCased (t.drop n) = true

section

variable {n : Nat} {t t' : Text}

theorem take_lowercase_of_meetsCased (h : t.take n = t'.take n)
    (hrest : EndsInSigma [] (t.take n) → meetsCased (t.drop n) = meetsCased (t'.drop n)) :
  (lowercase t).take n = (lowercase t').take n
  := by
  by_cases hlength : n ≤ t.length
  · obtain ⟨image, himage, ht, ht'⟩ := lowercaseAfter_append hrest
    rw [List.take_append_drop] at ht
    rw [h, List.take_append_drop] at ht'
    rw [List.length_take_of_le hlength] at himage
    rw [lowercase, lowercase, ht, ht', List.take_append_of_le_length (by omega),
      List.take_append_of_le_length (by omega)]
  · have htake : t.take n = t := List.take_of_length_le (by omega)
    have htake' : t'.take n = t' := by
      apply List.take_of_length_le
      have hcongr := congrArg List.length h
      rw [List.length_take, List.length_take] at hcongr
      omega
    rw [← htake, ← htake', h]

/-- The lower cases of two texts with the same first `n` characters agree up to any sigma among
these. -/
theorem lowercase_before_sigma {u rest : Text} (ht : t.take n = u ++ '\u03a3' :: rest)
    (ht' : t'.take n = u ++ '\u03a3' :: rest) :
  ∃ image, image.length = u.length + u.count '\u0130'
    ∧ lowercase t = image ++ lowercaseAfter u.reverse ('\u03a3' :: (rest ++ t.drop n))
    ∧ lowercase t' = image ++ lowercaseAfter u.reverse ('\u03a3' :: (rest ++ t'.drop n))
  := by
  have hcut {s : Text} (hs : s.take n = u ++ '\u03a3' :: rest) :
      u ++ '\u03a3' :: (rest ++ s.drop n) = s := by
    rw [← List.cons_append, ← List.append_assoc, ← hs, List.take_append_drop]
  obtain ⟨image, hlength, himage, himage'⟩ := lowercaseAfter_append
    (fun _ : EndsInSigma [] u => (meetsCased_sigma (rest ++ t.drop n)).trans
      (meetsCased_sigma (rest ++ t'.drop n)).symm)
  rw [hcut ht, List.append_nil] at himage
  rw [hcut ht', List.append_nil] at himage'
  exact ⟨image, hlength, himage, himage'⟩

theorem tornSigma_iff {u ignorable : Text} (hsplit : t.take n = u ++ '\u03a3' :: ignorable)
    (hpos : u.length + u.count '\u0130' < n) (hcased : meetsCased u.reverse = true)
    (hignorable : ∀ c ∈ ignorable, isCaseIgnorable c = true) :
  TornSigma n t ↔ meetsCased (t.drop n) = true
  := by
  constructor
  · rintro ⟨-, -, -, -, -, -, hrest⟩
    exact hrest
  · intro hrest
    exact ⟨u, ignorable, hsplit, hpos, hcased, hignorable, hrest⟩

theorem TornSigma.of_take_lowercase (h : t.take n = t'.take n)
    (hlower : (lowercase t).take n = (lowercase t').take n) (htorn : TornSigma n t) :
  TornSigma n t'
  := by
  obtain ⟨u, ignorable, hsplit, hpos, hcased, hignorable, hrest⟩ := htorn
  refine ⟨u, ignorable, h ▸ hsplit, hpos, hcased, hignorable, ?_⟩
  obtain ⟨image, hlength, ht, ht'⟩ := lowercase_before_sigma hsplit (h ▸ hsplit)
  simp only [lowercaseAfter_cons, lowerWithin_sigma hcased,
    meetsCased_append_of_ignorable hignorable, hrest] at ht ht'
  -- the sigma has the same place in both lower cases, and that place is one of the first `n`
  have hplace : image.length < n := by omega
  have hsigma := congrArg (·[image.length]?) hlower
  simp only [ht, ht', List.getElem?_take, if_pos hplace] at hsigma
  cases hrest' : meetsCased (t'.drop n) with
  | true => rfl
  | false => simp [hrest'] at hsigma

/-- The lower cases of two texts with the same first `n` characters have the same first `n`
characters, unless a sigma of only one of them is torn. -/
theorem take_lowercase_iff (h : t.take n = t'.take n) :
  (lowercase t).take n = (lowercase t').take n ↔ (TornSigma n t ↔ TornSigma n t')
  := by
  constructor
  · intro hlower
    exact ⟨TornSigma.of_take_lowercase h hlower, TornSigma.of_take_lowercase h.symm hlower.symm⟩
  · intro htorn
    by_cases hsigma : EndsInSigma [] (t.take n)
    · obtain ⟨u, ignorable, hsplit, hcased, hignorable⟩ := hsigma
      rw [List.append_nil] at hcased
      have hsplit' : t'.take n = u ++ '\u03a3' :: ignorable := h ▸ hsplit
      by_cases hpos : u.length + u.count '\u0130' < n
      · apply take_lowercase_of_meetsCased h
        intro _
        rw [Bool.eq_iff_iff, ← tornSigma_iff hsplit hpos hcased hignorable,
          ← tornSigma_iff hsplit' hpos hcased hignorable]
        exact htorn
      · -- the cut is before the sigma in lower case
        obtain ⟨image, hlength, ht, ht'⟩ := lowercase_before_sigma hsplit hsplit'
        rw [ht, ht', List.take_append_of_le_length (by omega),
          List.take_append_of_le_length (by omega)]
    · apply take_lowercase_of_meetsCased h
      intro hends
      exact absurd hends hsigma

theorem not_tornSigma_of_drop_eq_nil (h : t.drop n = []) :
  ¬ TornSigma n t
  := by
  rintro ⟨u, ignorable, -, -, -, -, hrest⟩
  rw [h] at hrest
  cases hrest

/-- The lower case of the first `n` characters is what the lower case of the text has there, just if
it has no more than `n` characters, and no sigma is torn. -/
theorem lowercase_take_iff :
  lowercase (t.take n) = (lowercase t).take n
    ↔ (t.take n).length + (t.take n).count '\u0130' ≤ n ∧ ¬ TornSigma n t
  := by
  have hlength : (lowercase (t.take n)).length = (t.take n).length + (t.take n).count '\u0130' :=
    length_lowercaseAfter [] _
  have htake : (t.take n).take n = t.take n := by rw [List.take_take, Nat.min_self]
  have hwhole : ¬ TornSigma n (t.take n) := by
    apply not_tornSigma_of_drop_eq_nil
    simp
  rw [← hlength]
  constructor
  · intro h
    have hle : (lowercase (t.take n)).length ≤ n := by
      rw [h]
      exact List.length_take_le _ _
    refine ⟨hle, ?_⟩
    rw [← List.take_of_length_le hle, take_lowercase_iff htake] at h
    exact fun htorn => hwhole (h.mpr htorn)
  · rintro ⟨hle, htorn⟩
    rw [← List.take_of_length_le hle, take_lowercase_iff htake]
    exact iff_of_false hwhole htorn

end

end TagNavigator.Text
