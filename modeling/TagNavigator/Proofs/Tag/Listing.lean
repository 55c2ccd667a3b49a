import TagNavigator.Proofs.Outcome
import TagNavigator.Tag.Completion

/-!
# What a completion lists

The room for names grows on the way, but it never shows in the result: a completion lists the
matching names of all indexes that can be opened, in order, up to the limit, and is cut short just
if there are more. `Held.Fits` is what adding a name keeps of the room.
-/

namespace TagNavigator.Completion

variable {w : World} {m : Matcher} {currentFile : Option Path} {limit : Int}

/-- The matching names of the indexes that can be opened. -/
def matching (w : World) (m : Matcher) (currentFile : Option Path) (candidates : List Path) :
    List Text :=
  candidates.flatMap fun index =>
    match Index.read w index currentFile with
    | .error _ => []
    | .ok reading => matchingNames m reading.records

/-- The greatest number of names that a completion lists. -/
def cap (limit : Int) : Nat := (max 1 limit).toNat

/-! ### The room for names -/

/-- The names held are counted, and there is room for them within the limit. -/
structure Held.Fits (limit : Int) (h : Held) : Prop where
  counted : h.count = h.latest.length
  within : (h.count : Int) ≤ h.room
  positive : 1 ≤ h.room
  bounded : h.room ≤ max 1 limit

namespace Held

variable {h h' : Held} {name : Text}

theorem fits_start (limit : Int) :
  (start limit).Fits limit
  := by
  constructor
  · rfl
  · change (0 : Int) ≤ min initialRoom (max 1 limit)
    unfold initialRoom
    omega
  · change 1 ≤ min initialRoom (max 1 limit)
    unfold initialRoom
    omega
  · exact Int.min_le_right _ _

/-- No name is added just if as many are held as a completion lists. -/
theorem add_eq_none_iff (hf : h.Fits limit) :
  h.add limit name = none ↔ h.count = cap limit
  := by
  obtain ⟨-, hwithin, hpositive, hbounded⟩ := hf
  have hcap : (cap limit : Int) = max 1 limit := by
    unfold cap
    omega
  unfold add
  split
  · split
    · simp only [true_iff]
      omega
    · simp only [reduceCtorEq, false_iff]
      omega
  · simp only [reduceCtorEq, false_iff]
    omega

theorem latest_of_add (h' : Held) (hadd : h.add limit name = some h') :
  h'.latest = name :: h.latest ∧ h'.count = h.count + 1
  := by
  unfold add at hadd
  split at hadd
  · split at hadd
    · cases hadd
    · cases hadd
      exact ⟨rfl, rfl⟩
  · cases hadd
    exact ⟨rfl, rfl⟩

/-- Doubling the room keeps it within the limit and makes room for one more name. -/
theorem Fits.add (hf : h.Fits limit) (hadd : h.add limit name = some h') :
  h'.Fits limit
  := by
  obtain ⟨hcounted, hwithin, hpositive, hbounded⟩ := hf
  unfold Held.add at hadd
  split at hadd
  · split at hadd
    · cases hadd
    · cases hadd
      constructor
      · simp only [hcounted, List.length_cons]
      all_goals
        dsimp only
        omega
  · cases hadd
    constructor
    · simp only [hcounted, List.length_cons]
    all_goals
      dsimp only
      omega

/-- Names are added up to the limit, and all of them find room just if they stay within it. -/
theorem addAll_spec (hf : h.Fits limit) (names : List Text) :
  (h.addAll limit names).1.Fits limit
    ∧ (h.addAll limit names).1.latest = (names.take (cap limit - h.count)).reverse ++ h.latest
    ∧ ((h.addAll limit names).2 = true ↔ h.count + names.length ≤ cap limit)
  := by
  have hcap : (h.count : Int) ≤ cap limit := by
    have := hf.within
    have := hf.bounded
    unfold cap
    omega
  induction names generalizing h with
  | nil =>
      refine ⟨hf, by simp [addAll], ?_⟩
      simp only [addAll, List.length_nil, true_iff]
      omega
  | cons name rest ih =>
      rw [addAll]
      cases hadd : h.add limit name with
      | none =>
          have hfull := (add_eq_none_iff hf).mp hadd
          refine ⟨hf, by simp [hfull], ?_⟩
          simp only [Bool.false_eq_true, List.length_cons, false_iff]
          omega
      | some h' =>
          have hroom : h.count ≠ cap limit := by
            intro hfull
            rw [(add_eq_none_iff hf).mpr hfull] at hadd
            cases hadd
          obtain ⟨hlatest, hcount⟩ := latest_of_add h' hadd
          obtain ⟨hfits, hlisted, hcomplete⟩ := ih (hf.add hadd) (by omega)
          refine ⟨hfits, ?_, ?_⟩
          · have htake : cap limit - h.count = cap limit - h'.count + 1 := by omega
            rw [hlisted, hlatest, htake, List.take_succ_cons]
            simp only [List.reverse_cons, List.append_assoc, List.cons_append, List.nil_append]
          · rw [hcomplete, hcount, List.length_cons]
            omega

end Held

/-! ### All indexes -/

theorem matching_cons_error {index : Path} {e : OpenError}
    (h : Index.read w index currentFile = .error e) (rest : List Path) :
  matching w m currentFile (index :: rest) = matching w m currentFile rest
  := by
  simp only [matching, List.flatMap_cons, h, List.nil_append]

theorem matching_cons_ok {index : Path} {reading : Index.Reading}
    (h : Index.read w index currentFile = .ok reading) (rest : List Path) :
  matching w m currentFile (index :: rest)
    = matchingNames m reading.records ++ matching w m currentFile rest
  := by
  simp only [matching, List.flatMap_cons, h]

/-- The names held come first, then the matching ones up to the limit. -/
theorem among_spec {h : Held} (hf : h.Fits limit) (candidates : List Path) :
  (among w m currentFile limit h candidates).names
      = h.latest.reverse ++ (matching w m currentFile candidates).take (cap limit - h.count)
    ∧ ((among w m currentFile limit h candidates).truncated = true
      ↔ cap limit < h.count + (matching w m currentFile candidates).length)
  := by
  induction candidates generalizing h with
  | nil =>
      have hwithin := hf.within
      have hbounded := hf.bounded
      refine ⟨by simp [among, matching], ?_⟩
      simp only [among, matching, List.flatMap_nil, List.length_nil, Bool.false_eq_true, false_iff]
      unfold cap
      omega
  | cons index rest ih =>
      rw [among]
      cases hread : Index.read w index currentFile with
      | error e =>
          rw [matching_cons_error hread]
          exact ih hf
      | ok reading =>
          rw [matching_cons_ok hread, List.length_append]
          obtain ⟨hfits, hlatest, hcomplete⟩ :=
            Held.addAll_spec hf (matchingNames m reading.records)
          dsimp only
          generalize matchingNames m reading.records = names at *
          split
          · rename_i hall
            have hlength := hcomplete.mp hall
            obtain ⟨hnames, htruncated⟩ := ih hfits
            have htake : names.take (cap limit - h.count) = names :=
              List.take_of_length_le (by omega)
            have hcount : (h.addAll limit names).1.count = h.count + names.length := by
              rw [hfits.counted, hlatest, htake, hf.counted, List.length_append,
                List.length_reverse, Nat.add_comm]
            constructor
            · change (among w m currentFile limit (h.addAll limit names).1 rest).names = _
              rw [hnames, hlatest, hcount, htake, List.take_append, htake, ← Nat.sub_sub]
              simp only [List.reverse_append, List.reverse_reverse, List.append_assoc]
            · change (among w m currentFile limit (h.addAll limit names).1 rest).truncated = true
                ↔ _
              rw [htruncated, hcount, Nat.add_assoc]
          · rename_i hall
            have hlength := mt hcomplete.mpr hall
            have hnone : cap limit - h.count - names.length = 0 := by omega
            constructor
            · rw [hlatest, List.take_append, hnone, List.take_zero, List.append_nil]
              simp only [List.reverse_append, List.reverse_reverse]
            · simp only [true_iff]
              omega

theorem expand_eq_ok_iff {indexes : Text} {c : Completion} :
  expand w m indexes currentFile limit = .ok c
    ↔ ∃ candidates, Index.candidates w indexes currentFile = .ok candidates
      ∧ among w m currentFile limit (Held.start limit) candidates = c
  :=
  map_eq_ok_iff

/-- A completion lists the matching names of the candidates up to the limit. -/
theorem names_of_among (w : World) (m : Matcher) (currentFile : Option Path) (limit : Int)
    (candidates : List Path) :
  (among w m currentFile limit (Held.start limit) candidates).names
    = (matching w m currentFile candidates).take (cap limit)
  := by
  rw [(among_spec (Held.fits_start limit) candidates).1]
  rfl

/-- A completion is cut short just if there are more matching names. -/
theorem truncated_of_among (w : World) (m : Matcher) (currentFile : Option Path) (limit : Int)
    (candidates : List Path) :
  (among w m currentFile limit (Held.start limit) candidates).truncated = true
    ↔ cap limit < (matching w m currentFile candidates).length
  := by
  rw [(among_spec (Held.fits_start limit) candidates).2]
  change _ < 0 + _ ↔ _
  rw [Nat.zero_add]

/-! ### The names that are listed -/

theorem mem_matchingNames_iff {records : List TagRecord} {name : Text} :
  name ∈ matchingNames m records
    ↔ (∃ r ∈ records, r.name = some name) ∧ (m.first name).isSome = true
  := by
  simp only [matchingNames, List.mem_filter, List.mem_filterMap]

/-- A name is among the matching ones if it matches and an index that can be opened has a record
with it. -/
theorem mem_matching_iff {candidates : List Path} {name : Text} :
  name ∈ matching w m currentFile candidates
    ↔ (∃ index ∈ candidates, ∃ content, w.readBytes index = .ok content
        ∧ ∃ r ∈ (Index.readContent index currentFile content).records, r.name = some name)
      ∧ (m.first name).isSome = true
  := by
  rw [matching, List.mem_flatMap]
  constructor
  · rintro ⟨index, hindex, hname⟩
    unfold Index.read at hname
    cases hcontent : w.readBytes index with
    | error e =>
        rw [hcontent] at hname
        cases hname
    | ok content =>
        rw [hcontent] at hname
        obtain ⟨hrecord, hmatches⟩ := mem_matchingNames_iff.mp hname
        exact ⟨⟨index, hindex, content, hcontent, hrecord⟩, hmatches⟩
  · rintro ⟨⟨index, hindex, content, hcontent, hrecord⟩, hmatches⟩
    refine ⟨index, hindex, ?_⟩
    unfold Index.read
    rw [hcontent]
    exact mem_matchingNames_iff.mpr ⟨hrecord, hmatches⟩

/-- A matching name of the candidates is listed unless the completion is cut short, which no great
enough limit does. -/
theorem mem_names_of_mem_matching {indexes : Text} {candidates : List Path}
    (hcandidates : Index.candidates w indexes currentFile = .ok candidates) {name : Text}
    (hname : name ∈ matching w m currentFile candidates) :
  (∀ limit c, expand w m indexes currentFile limit = .ok c → c.truncated = false → name ∈ c.names)
    ∧ ∃ enough : Int, ∀ limit, enough ≤ limit →
      ∃ c, expand w m indexes currentFile limit = .ok c ∧ c.truncated = false
  := by
  constructor
  · intro limit c hexpand hwhole
    obtain ⟨candidates', hcandidates', rfl⟩ := expand_eq_ok_iff.mp hexpand
    rw [hcandidates] at hcandidates'
    cases hcandidates'
    rw [Bool.eq_false_iff, ne_eq, truncated_of_among] at hwhole
    rw [names_of_among, List.take_of_length_le (Nat.le_of_not_lt hwhole)]
    exact hname
  · refine ⟨(matching w m currentFile candidates).length, ?_⟩
    intro limit hlimit
    refine ⟨_, expand_eq_ok_iff.mpr ⟨candidates, hcandidates, rfl⟩, ?_⟩
    rw [Bool.eq_false_iff, ne_eq, truncated_of_among, cap]
    omega

theorem mem_matching_of_mem_names {indexes : Text} {c : Completion}
    (h : expand w m indexes currentFile limit = .ok c) {name : Text} (hname : name ∈ c.names) :
  ∃ candidates, Index.candidates w indexes currentFile = .ok candidates
    ∧ name ∈ matching w m currentFile candidates
  := by
  obtain ⟨candidates, hcandidates, rfl⟩ := expand_eq_ok_iff.mp h
  rw [names_of_among] at hname
  exact ⟨candidates, hcandidates, List.mem_of_mem_take hname⟩

end TagNavigator.Completion
