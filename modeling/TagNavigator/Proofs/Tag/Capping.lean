import TagNavigator.Proofs.Tag.Listing
import TagNavigator.Proofs.Tag.Records

/-!
# Completions up to a limit

`Lists` says which names a completion has to list, by the bytes of the indexes: those of the lines
before the first one without a separator, in the order of the indexes and their lines, repetitions
included.  A completion lists the first of these names, as many as its limit allows, and is cut
short just if there are more (`expand_capped`).  The room that grows on the way does not show.
-/

namespace TagNavigator

namespace Index

/-- The name in a line of an index, if it counts while `currentFile` is edited. -/
def nameIn (currentFile : Option Path) (line : Bytes) : Option Text :=
  TagRecord.eligibleName ((Utf8.decodeLossy line).takeWhile (!TagRecord.isSeparator ·)) currentFile

/-- The names that count in an index, up to its first line without a separator. -/
def namesIn (currentFile : Option Path) (content : Bytes) : List Text :=
  ((Utf8.segments content).takeWhile (HasSeparator ·)).filterMap (nameIn currentFile)

theorem name_of_parseLine {index : Path} {currentFile : Option Path} {n : Nat} {line : Bytes}
    {r : TagRecord} (h : parseLine index currentFile n line = .ok r) :
  r.name = nameIn currentFile line
  := by
  rw [parseLine, TagRecord.parse, TagRecord.splitField] at h
  split at h
  · cases h
  · rename_i hsplit
    split at hsplit
    · cases hsplit
    · cases hsplit
      cases h
      rfl

theorem names_readLines (index : Path) (currentFile : Option Path) (n : Nat) (lines : List Bytes) :
  (readLines index currentFile n (lines.map Utf8.decodeLossy)).records.filterMap (·.name)
    = (lines.takeWhile (HasSeparator ·)).filterMap (nameIn currentFile)
  := by
  induction lines generalizing n with
  | nil => rfl
  | cons line rest ih =>
      rw [List.map_cons, readLines]
      by_cases hline : HasSeparator line
      · obtain ⟨r, hr⟩ : ∃ r, parseLine index currentFile n line = .ok r :=
          hasSeparator_iff.mp hline
        rw [show TagRecord.parse _ _ _ _ = _ from hr, List.takeWhile_cons_of_pos (by simpa),
          List.filterMap_cons, List.filterMap_cons, name_of_parseLine hr, ih]
      · rw [show TagRecord.parse _ _ _ _ = _ from parseLine_of_not_hasSeparator hline,
          List.takeWhile_cons_of_neg (by simpa)]
        rfl

/-- The names of the records in an index are those in its lines. -/
theorem names_readContent (index : Path) (currentFile : Option Path) (content : Bytes) :
  (readContent index currentFile content).records.filterMap (·.name)
    = namesIn currentFile content
  := by
  rw [readContent, Utf8.afterLineFeeds_decodeLossy]
  exact names_readLines index currentFile 1 (Utf8.segments content)

end Index

namespace Completion

variable {w : World} {m : Matcher} {currentFile : Option Path}

/-- The names that match, in the candidates that can be opened. -/
inductive Lists (w : World) (m : Matcher) (currentFile : Option Path) :
    List Path → List Text → Prop
  | nil : Lists w m currentFile [] []
  | unopened {index rest names e} (opening : w.readBytes index = .error e)
      (later : Lists w m currentFile rest names) : Lists w m currentFile (index :: rest) names
  | opened {index content rest names} (opening : w.readBytes index = .ok content)
      (later : Lists w m currentFile rest names) :
      Lists w m currentFile (index :: rest)
        ((Index.namesIn currentFile content).filter (fun n => (m.first n).isSome) ++ names)

theorem read_of_readBytes_error {index : Path} {e : FileError} (h : w.readBytes index = .error e) :
  Index.read w index currentFile = .error ⟨index, e.message index⟩
  := by
  rw [Index.read, h]

theorem read_of_readBytes_ok {index : Path} {content : Bytes}
    (h : w.readBytes index = .ok content) :
  Index.read w index currentFile = .ok (Index.readContent index currentFile content)
  := by
  rw [Index.read, h]

/-- The names that a completion goes through are those it has to list. -/
theorem lists_iff {candidates : List Path} {names : List Text} :
  Lists w m currentFile candidates names ↔ matching w m currentFile candidates = names
  := by
  constructor
  · intro h
    induction h with
    | nil => rfl
    | unopened opening _ ih => rw [matching_cons_error (read_of_readBytes_error opening), ih]
    | opened opening _ ih =>
        rw [matching_cons_ok (read_of_readBytes_ok opening), ih, matchingNames,
          Index.names_readContent]
  · rintro rfl
    induction candidates with
    | nil => exact .nil
    | cons index rest ih =>
        cases opening : w.readBytes index with
        | error e =>
            rw [matching_cons_error (read_of_readBytes_error opening)]
            exact .unopened opening ih
        | ok content =>
            rw [matching_cons_ok (read_of_readBytes_ok opening), matchingNames,
              Index.names_readContent]
            exact .opened opening ih

/-- A completion has candidates just if no path that they are made of has NUL, and then it lists the
first of the names that it has to list: all of them, or as many as the limit allows, which is at
least one.  It is cut short just if there are more. -/
theorem expand_capped (w : World) (m : Matcher) (indexes : Text) (currentFile : Option Path) :
  ((∃ candidates, Index.candidates w indexes currentFile = .ok candidates)
    ↔ (∀ index ∈ Index.optionPaths w indexes, index.hasNul = false)
      ∧ ∀ file, currentFile = some file → (file.parent.child Index.localName).hasNul = false)
  ∧ ∀ candidates, Index.candidates w indexes currentFile = .ok candidates →
    ∃ names, (∀ names', Lists w m currentFile candidates names' ↔ names' = names)
      ∧ ∀ limit, ∃ c, expand w m indexes currentFile limit = .ok c
        ∧ c.names = names.take (min names.length (max 1 limit).toNat)
        ∧ (c.truncated = true ↔ max 1 limit < (names.length : Int))
  := by
  refine ⟨Lookup.exists_candidates_iff w indexes currentFile, ?_⟩
  intro candidates hcandidates
  refine ⟨matching w m currentFile candidates, ?_, ?_⟩
  · intro names'
    rw [lists_iff, eq_comm]
  · intro limit
    refine ⟨_, expand_eq_ok_iff.mpr ⟨candidates, hcandidates, rfl⟩, ?_, ?_⟩
    · rw [names_of_among, List.take_eq_take_min, Nat.min_comm, cap]
    · rw [truncated_of_among, cap]
      omega

/-- Two names match before a line without a separator, and one in the next index that can be opened.
Two of the three are listed if the limit is two. -/
theorem expand_capped_two_indexes :
  let first : Bytes := Utf8.encode "f\tx\ng\tx\nf\tx\nf\nf\tx\n".toList
  let second : Bytes := Utf8.encode "f\tx".toList
  let w : World :=
    ⟨⟨[(["a".toList], .file first), (["b".toList], .file second)]⟩, [], [], ⟨.slash, []⟩, {}⟩
  let m : Matcher := ⟨.char 'f', false⟩
  ∃ candidates c, Index.candidates w "a none b".toList none = .ok candidates
    ∧ Lists w m none candidates ["f".toList, "f".toList, "f".toList]
    ∧ expand w m "a none b".toList none 2 = .ok c
    ∧ c.names = ["f".toList, "f".toList] ∧ c.truncated = true
  := by
  intro first second w m
  obtain ⟨hcandidates, hcapped⟩ := expand_capped w m "a none b".toList none
  obtain ⟨candidates, hlisted⟩ := hcandidates.mpr ⟨by decide, nofun⟩
  obtain ⟨names, hnames, hlimit⟩ := hcapped candidates hlisted
  have hlists : Lists w m none candidates ["f".toList, "f".toList, "f".toList] := by
    have ha : w.readBytes ⟨.here, ["a".toList]⟩ = .ok first := rfl
    have hnone : w.readBytes ⟨.here, ["none".toList]⟩ = .error .notFound := rfl
    have hb : w.readBytes ⟨.here, ["b".toList]⟩ = .ok second := rfl
    cases hlisted
    exact Lists.opened ha (Lists.unopened hnone (Lists.opened hb Lists.nil))
  obtain ⟨c, hc, hfirst, htruncated⟩ := hlimit 2
  rw [← (hnames _).mp hlists] at hfirst htruncated
  exact ⟨candidates, c, hlisted, hlists, hc, hfirst, htruncated.mpr (by decide)⟩

end Completion

end TagNavigator
