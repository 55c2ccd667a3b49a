import TagNavigator.Proofs.Text.Lowercase
import TagNavigator.Tag.Record

/-!
# Significant characters

Names can be compared by their leading characters.  If case counts, the rest of the names makes no
difference.  If it does not, the names are put in lower case as a whole and cut after that, and so
two letters of theirs may count with what follows them: a capital I with a dot above, which becomes
two characters, and a capital sigma, which is another letter at the end of a word.  Names without
such letters are compared by their leading characters only (`namesMatch_leading`).
-/

namespace TagNavigator

namespace Text

/-- Putting the first `n` characters of the text in lower case is the same as cutting the text in
lower case: each capital I with a dot above among them has room for its second character, and no
sigma is torn. -/
structure FoldsWithin (n : Nat) (t : Text) : Prop where
  room : (t.take n).length + (t.take n).count '\u0130' ≤ n
  sigma : ¬ TornSigma n t

variable {n : Nat} {t : Text}

theorem foldsWithin_iff :
  FoldsWithin n t ↔ lowercase (t.take n) = (lowercase t).take n
  := by
  rw [lowercase_take_iff]
  exact ⟨fun h => ⟨h.room, h.sigma⟩, fun h => ⟨h.1, h.2⟩⟩

/-- The first characters of a text in lower case are in lower case. -/
theorem lowercase_take_lowercase (n : Nat) (t : Text) :
  lowercase ((lowercase t).take n) = (lowercase t).take n
  := lowercaseAfter_of_lower
    (fun _ hc => lower_of_mem_lowercaseAfter (List.mem_of_mem_take hc)) []

theorem foldsWithin_take_lowercase (n : Nat) (t : Text) :
  FoldsWithin n ((lowercase t).take n)
  := by
  rw [foldsWithin_iff, List.take_take, Nat.min_self, lowercase_take_lowercase, List.take_take,
    Nat.min_self]

/-- A text without the two letters folds within any length. -/
theorem foldsWithin_of_notMem (hdotted : '\u0130' ∉ t) (hsigma : '\u03a3' ∉ t) (n : Nat) :
  FoldsWithin n t
  := by
  constructor
  · have hcount : (t.take n).count '\u0130' = 0 := by
      apply List.count_eq_zero_of_not_mem
      exact fun hmem => hdotted (List.mem_of_mem_take hmem)
    rw [hcount]
    exact List.length_take_le n t
  · rintro ⟨u, ignorable, hsplit, -⟩
    have hmem : '\u03a3' ∈ t.take n := by
      rw [hsplit]
      simp
    exact hsigma (List.mem_of_mem_take hmem)

end Text

namespace TagRecord

open Text (lowercase FoldsWithin TornSigma)

variable {length : Int} {c c' r : Text}

theorem namesMatch_true_iff (hlength : 0 < length) :
  namesMatch c r length true = true
    ↔ (lowercase c).take length.toNat = (lowercase r).take length.toNat
  := by
  simp [namesMatch, hlength]

theorem namesMatch_false_iff (hlength : 0 < length) :
  namesMatch c r length false = true ↔ c.take length.toNat = r.take length.toNat
  := by
  simp [namesMatch, hlength]

theorem namesMatch_whole_iff (ignoreCase : Bool) :
  namesMatch c r 0 ignoreCase = true
    ↔ (if ignoreCase then lowercase c else c) = (if ignoreCase then lowercase r else r)
  := by
  simp [namesMatch]

/-- Names match just if their leading characters match as whole names.  Where case is ignored, this
holds exactly of the names that fold within these characters: any other name matches one whose
leading characters are not its own.  What follows the leading characters makes a difference, and
keeps names apart that are equal up to there, exactly if it tears a sigma of one of them only. -/
theorem namesMatch_leading (hlength : 0 < length) (ignoreCase : Bool) :
  (∀ c : Text,
    (∀ r : Text, (ignoreCase = true → FoldsWithin length.toNat r) →
      (namesMatch c r length ignoreCase = true
        ↔ namesMatch (c.take length.toNat) (r.take length.toNat) 0 ignoreCase = true))
    ↔ (ignoreCase = true → FoldsWithin length.toNat c))
  ∧ (∀ c c' : Text, c.take length.toNat = c'.take length.toNat →
    ((∀ r, namesMatch c r length ignoreCase = namesMatch c' r length ignoreCase)
      ↔ (ignoreCase = true → (TornSigma length.toNat c ↔ TornSigma length.toNat c'))))
  ∧ ∀ c r : Text, namesMatch c r length false = true →
    (namesMatch c r length true = true ↔ (TornSigma length.toNat c ↔ TornSigma length.toNat r))
  := by
  refine ⟨?_, ?_, ?_⟩
  · intro c
    cases ignoreCase with
    | false => simp [namesMatch_false_iff hlength, namesMatch_whole_iff]
    | true =>
        simp only [namesMatch_true_iff hlength, namesMatch_whole_iff, if_true, true_implies]
        constructor
        · intro h
          -- a name made of what is compared is not told from the name that it is made of
          have hmade := (h _ (Text.foldsWithin_take_lowercase length.toNat c)).mp
            (by rw [Text.lowercase_take_lowercase, List.take_take, Nat.min_self])
          rw [List.take_take, Nat.min_self, Text.lowercase_take_lowercase] at hmade
          exact Text.foldsWithin_iff.mpr hmade
        · intro hc r hr
          rw [Text.foldsWithin_iff.mp hc, Text.foldsWithin_iff.mp hr]
  · intro c c' htake
    cases ignoreCase with
    | false =>
        simp only [Bool.false_eq_true, false_implies, iff_true]
        intro r
        rw [Bool.eq_iff_iff, namesMatch_false_iff hlength, namesMatch_false_iff hlength, htake]
    | true =>
        simp only [true_implies, ← Text.take_lowercase_iff htake]
        constructor
        · intro h
          rw [← namesMatch_true_iff hlength, h c', namesMatch_true_iff hlength]
        · intro h r
          rw [Bool.eq_iff_iff, namesMatch_true_iff hlength, namesMatch_true_iff hlength, h]
  · intro c r hsame
    rw [namesMatch_true_iff hlength,
      Text.take_lowercase_iff ((namesMatch_false_iff hlength).mp hsame)]

/-- A capital I with a dot above that has room for its second character, against an i with the dot
as a character of its own. -/
theorem namesMatch_leading_dotted :
  (0 : Int) < 3 ∧ FoldsWithin 3 "\u0130b".toList ∧ FoldsWithin 3 "i\u0307Bx".toList
    ∧ namesMatch "\u0130b".toList "i\u0307Bx".toList 3 true = true
  := by
  have hlength : (0 : Int) < 3 := by decide
  have hdotted : FoldsWithin 3 "\u0130b".toList :=
    ⟨by decide, Text.not_tornSigma_of_drop_eq_nil rfl⟩
  have hplain : FoldsWithin 3 "i\u0307Bx".toList :=
    Text.foldsWithin_of_notMem (by decide) (by decide) 3
  obtain ⟨hleading, -, -⟩ := namesMatch_leading hlength true
  have hiff := (hleading "\u0130b".toList).mpr (fun _ => hdotted) "i\u0307Bx".toList
    (fun _ => hplain)
  exact ⟨hlength, hdotted, hplain, hiff.mpr (by decide +kernel)⟩

/-- A capital I with a dot above is taken for an i if one character counts, and two names that start
with the same two letters are kept apart for the letter that follows in one of them. -/
theorem namesMatch_beyond_leading :
  ¬ (∀ (c r : Text) (length : Int) (ignoreCase : Bool), 0 < length →
      (namesMatch c r length ignoreCase = true
        ↔ namesMatch (c.take length.toNat) (r.take length.toNat) 0 ignoreCase = true))
    ∧ ¬ (∀ (c r : Text) (length : Int), 0 < length → namesMatch c r length false = true →
      namesMatch c r length true = true)
  := by
  constructor
  · intro h
    have hdotted := h ['\u0130'] ['i'] 1 true (by decide)
    revert hdotted
    decide +kernel
  · intro h
    have hsigma := h "ΑΣ".toList "ΑΣΑ".toList 2 (by decide) (by decide +kernel)
    revert hsigma
    decide +kernel

end TagRecord

end TagNavigator
