import TagNavigator.Proofs.Tag.FirstMatch
import TagNavigator.Proofs.Tag.Listing

/-!
# Lookup and completion agree

A lookup stops at the first record it can use, and a completion goes through all of them, but they
read the same records of the same candidates.  So a name that decides a lookup is listed by every
completion that is not cut short and whose pattern matches it.  A lookup of a listed name meets a
record with it, and fails to find it only where such records lack their search command.
-/

namespace TagNavigator.Lookup

open Completion (matching expand)

variable {w : World} {o : Options} {name : Text} {currentFile : Option Path}

/-! ### What a lookup has met -/

theorem ScansFor.unique {index : Path} {content : Bytes} {v v' : Index.Verdict}
    (h : ScansFor o name currentFile index content v)
    (h' : ScansFor o name currentFile index content v') :
  v = v'
  :=
  (Index.scans_segments_iff.mp h).symm.trans (Index.scans_segments_iff.mp h')

/-- A lookup that comes to an end has concluded from what it met. -/
theorem Searches.of_among {candidates : List Path} {errors : List FormatError}
    {found : Option Match} (h : Searches w o name currentFile candidates errors found)
    {opened : Bool} {lookup : Lookup}
    (hl : among w o name currentFile opened candidates = .ok lookup) :
  lookup.formatErrors = errors
    ∧ conclusion w o name (opened || anyOpened w candidates) found = .ok lookup.result
  := by
  obtain ⟨log, hamong⟩ := h.among_eq opened
  rw [hamong] at hl
  obtain ⟨result, hresult, rfl⟩ := map_eq_ok_iff.mp hl
  exact ⟨rfl, hresult⟩

/-- If no record decides a lookup, the first record with the name has no search command, in every
candidate that has one. -/
theorem Searches.separators_of_none {candidates : List Path} {errors : List FormatError}
    {found : Option Match} (h : Searches w o name currentFile candidates errors found)
    (hfound : found = none) {index : Path} (hindex : index ∈ candidates) {content : Bytes}
    (hcontent : w.readBytes index = .ok content) {n : Nat} {r : TagRecord}
    (hscan : ScansFor o name currentFile index content (.decided n r)) :
  ∀ c ∈ r.remainder, TagRecord.isSeparator c = false
  := by
  induction h with
  | nil => cases hindex
  | unopened opening _ ih =>
      rcases List.mem_cons.mp hindex with rfl | hindex
      · rw [opening] at hcontent
        cases hcontent
      · exact ih hfound hindex
  | exhausted opening scan _ ih | rejected opening scan _ ih =>
      rcases List.mem_cons.mp hindex with rfl | hindex
      · rw [opening] at hcontent
        cases hcontent
        cases scan.unique hscan
      · exact ih hfound hindex
  | commandless opening scan separators _ ih =>
      rcases List.mem_cons.mp hindex with rfl | hindex
      · rw [opening] at hcontent
        cases hcontent
        cases scan.unique hscan
        exact separators
      · exact ih hfound hindex
  | found => cases hfound

/-- A lookup takes a record just if it finds a location or misses the file of one. -/
theorem taken_iff_of_conclusion {opened : Bool} {found : Option Match}
    {result : Except TagError Location} (h : conclusion w o name opened found = .ok result) :
  ((∃ l, result = .ok l) ∨ ∃ asked path, result = .error (.missingTarget asked path))
    ↔ ∃ m, found = some m
  := by
  cases found with
  | none =>
      cases h
      split <;> simp
  | some m =>
      rw [conclusion, locate] at h
      obtain ⟨there, -, hresult⟩ := bind_eq_ok_iff.mp h
      cases there with
      | true =>
          cases hresult
          simp
      | false =>
          cases hresult
          simp

/-- A lookup in candidates of which one can be opened does not come to the end that none can. -/
theorem conclusion_ne_noIndex (name : Text) (found : Option Match) :
  conclusion w o name true found ≠ .ok (.error .noIndex)
  := by
  cases found with
  | none =>
      rintro ⟨⟩
  | some m =>
      intro h
      rcases (taken_iff_of_conclusion h).mpr ⟨m, rfl⟩ with ⟨l, ⟨⟩⟩ | ⟨asked, path, ⟨⟩⟩

theorem eq_none_of_conclusion_notFound {opened : Bool} {found : Option Match} {asked : Text}
    (h : conclusion w o name opened found = .ok (.error (.notFound asked))) :
  found = none
  := by
  cases found with
  | none => rfl
  | some m =>
      rcases (taken_iff_of_conclusion h).mpr ⟨m, rfl⟩ with ⟨l, ⟨⟩⟩ | ⟨asked, path, ⟨⟩⟩

/-! ### The records that both read -/

theorem namesMatch_self (tag : Text) (length : Int) (ignoreCase : Bool) :
  TagRecord.namesMatch tag tag length ignoreCase = true
  := by
  simp [TagRecord.namesMatch]

/-- An index with a record of the name has a first record that a lookup of the name takes. -/
theorem exists_scansFor_decided (o : Options) {index : Path} {content : Bytes} {tag : Text}
    (h : ∃ r ∈ (Index.readContent index currentFile content).records, r.name = some tag) :
  ∃ n r, ScansFor o tag currentFile index content (.decided n r)
  := by
  obtain ⟨r, hr, hname⟩ := h
  have hmatch : isMatch o tag r = true := by
    rw [isMatch, hname]
    exact namesMatch_self tag _ _
  cases hfind : (Index.readContent index currentFile content).records.find? (isMatch o tag) with
  | none => exact absurd hmatch (List.find?_eq_none.mp hfind r hr)
  | some first =>
      exact ⟨first.line, first, Index.scans_segments_iff.mpr
        (Index.Reading.verdict_eq_decided_iff.mpr ⟨hfind, rfl⟩)⟩

/-- The record that decides a lookup is among those that a completion goes through. -/
theorem mem_matching_of_searches {candidates : List Path} {errors : List FormatError} {m : Match}
    (h : Searches w o name currentFile candidates errors (some m)) {tag : Text}
    (htag : m.record.name = some tag) {matcher : Matcher}
    (hmatches : (matcher.first tag).isSome = true) :
  tag ∈ matching w matcher currentFile candidates
  := by
  obtain ⟨index, hindex, content, n, hcontent, hscan, -⟩ := h.found_spec rfl
  obtain ⟨hfind, -⟩ := Index.Reading.verdict_eq_decided_iff.mp (Index.scans_segments_iff.mp hscan)
  exact Completion.mem_matching_iff.mpr
    ⟨⟨index, hindex, content, hcontent, m.record, List.mem_of_find?_eq_some hfind, htag⟩, hmatches⟩

/-! ### Both ways -/

/-- A lookup that comes to an end has met something in the candidates, and concluded from it. -/
theorem exists_searches_of_find {lookup : Lookup} (h : find w o name currentFile = .ok lookup) :
  ∃ names candidates found, o.indexes = JsonString.ofText names
    ∧ Index.candidates w names currentFile = .ok candidates
    ∧ Searches w o name currentFile candidates lookup.formatErrors found
    ∧ conclusion w o name (anyOpened w candidates) found = .ok lookup.result
  := by
  obtain ⟨names, hnames, h⟩ := bind_eq_ok_iff.mp h
  obtain ⟨candidates, hcandidates, hamong⟩ := bind_eq_ok_iff.mp h
  obtain ⟨errors, found, hs⟩ := exists_searches w o name currentFile candidates
  obtain ⟨rfl, hc⟩ := hs.of_among hamong
  rw [Bool.false_or] at hc
  exact ⟨names, candidates, found, indexNames_eq_ok_iff.mp hnames, hcandidates, hs, hc⟩

/-- Where a record decides, its name and whether its file exists give the conclusion. -/
theorem Searches.concludes_of_some {candidates : List Path} {errors : List FormatError} {m : Match}
    (h : Searches w o name currentFile candidates errors (some m)) {opened : Bool}
    {result : Except TagError Location}
    (hc : conclusion w o name opened (some m) = .ok result) :
  ∃ tag, m.record.name = some tag ∧ Concludes w o name candidates (some m) result
  := by
  obtain ⟨index, -, content, n, -, hscan, -⟩ := h.found_spec rfl
  obtain ⟨tag, htag⟩ := isMatch_named hscan.match
  obtain ⟨there, hthere, -⟩ := bind_eq_ok_iff.mp hc
  exact ⟨tag, htag, (concludes_some_iff htag hthere opened).mpr hc⟩

theorem Concludes.tagName {candidates : List Path} {m : Match} {l : Location}
    (h : Concludes w o name candidates (some m) (.ok l)) :
  m.record.name = some l.tagName
  := by
  cases h with
  | location named _ => exact named

/-- Lookup and completion agree. A lookup that takes a record, whether or not the defining file
exists, takes it from a candidate, and every completion whose pattern matches the name of the record
lists the name unless it is cut short, which no great enough limit does. A lookup of a listed name
meets a record with it in a candidate, and does not find it only where the first such record of each
candidate has no search command. -/
theorem find_agrees_expand (w : World) (o : Options) (currentFile : Option Path) :
  (∀ name lookup, find w o name currentFile = .ok lookup →
    (∃ l, lookup.result = .ok l)
      ∨ (∃ asked path, lookup.result = .error (.missingTarget asked path)) →
    ∃ names candidates m tag, o.indexes = JsonString.ofText names
      ∧ Index.candidates w names currentFile = .ok candidates
      ∧ Searches w o name currentFile candidates lookup.formatErrors (some m)
      ∧ Concludes w o name candidates (some m) lookup.result
      ∧ m.record.name = some tag
      ∧ ∀ matcher : Matcher, (matcher.first tag).isSome = true →
        (∀ limit c, expand w matcher names currentFile limit = .ok c → c.truncated = false →
          tag ∈ c.names)
        ∧ ∃ enough : Int, ∀ limit, enough ≤ limit →
          ∃ c, expand w matcher names currentFile limit = .ok c ∧ c.truncated = false)
  ∧ (∀ names matcher limit c name, o.indexes = JsonString.ofText names →
    expand w matcher names currentFile limit = .ok c → name ∈ c.names →
    ∃ candidates, Index.candidates w names currentFile = .ok candidates
      ∧ (∃ index ∈ candidates, ∃ content n r, w.readBytes index = .ok content
        ∧ ScansFor o name currentFile index content (.decided n r))
      ∧ ∀ lookup, find w o name currentFile = .ok lookup →
        lookup.result ≠ .error .noIndex
        ∧ ∀ asked, lookup.result = .error (.notFound asked) →
          ∀ index ∈ candidates, ∀ content n r, w.readBytes index = .ok content →
          ScansFor o name currentFile index content (.decided n r) →
          ∀ c ∈ r.remainder, TagRecord.isSeparator c = false)
  := by
  constructor
  · intro name lookup hfind htaken
    obtain ⟨names, candidates, found, hnames, hcandidates, hs, hc⟩ := exists_searches_of_find hfind
    obtain ⟨m, rfl⟩ := (taken_iff_of_conclusion hc).mp htaken
    obtain ⟨tag, htag, hconcludes⟩ := hs.concludes_of_some hc
    refine ⟨names, candidates, m, tag, hnames, hcandidates, hs, hconcludes, htag, ?_⟩
    intro matcher hmatches
    exact Completion.mem_names_of_mem_matching hcandidates
      (mem_matching_of_searches hs htag hmatches)
  · intro names matcher limit c name hnames hexpand hname
    obtain ⟨candidates, hcandidates, hlisted⟩ := Completion.mem_matching_of_mem_names hexpand hname
    obtain ⟨⟨index, hindex, content, hcontent, hrecord⟩, -⟩ :=
      Completion.mem_matching_iff.mp hlisted
    obtain ⟨n, r, hscan⟩ := exists_scansFor_decided o hrecord
    refine ⟨candidates, hcandidates, ⟨index, hindex, content, n, r, hcontent, hscan⟩, ?_⟩
    intro lookup hfind
    obtain ⟨names', candidates', found, hnames', hcandidates', hs, hc⟩ :=
      exists_searches_of_find hfind
    obtain rfl := Json.ofText_injective (hnames.symm.trans hnames')
    cases hcandidates.symm.trans hcandidates'
    have hopened : anyOpened w candidates = true :=
      anyOpened_eq_true_iff.mpr ⟨index, hindex, content, hcontent⟩
    rw [hopened] at hc
    constructor
    · intro hnone
      rw [hnone] at hc
      exact conclusion_ne_noIndex name found hc
    · intro asked hnotFound index' hindex' content' n' r' hcontent' hscan'
      rw [hnotFound] at hc
      exact hs.separators_of_none (eq_none_of_conclusion_notFound hc) hindex' hcontent' hscan'

/-- An index with a record without a command and one with a command. Both names are listed, the
second one, which a lookup finds, by a completion that is not cut short. -/
theorem find_agrees_expand_two_records :
  let w : World :=
    ⟨⟨[(["tags".toList], .file (Utf8.encode "f\tx\nfoo\ttags\t1\n".toList))]⟩, [], [], ⟨.slash, []⟩,
      {}⟩
  let o : Options := {}
  ∃ matcher, Pattern.compile "f".toList o.magic o.ignoreCase = .ok matcher
    ∧ (∃ lookup l c, find w o "foo".toList none = .ok lookup ∧ lookup.result = .ok l
      ∧ expand w matcher "tags".toList none 2 = .ok c ∧ l.tagName ∈ c.names)
    ∧ ∃ c lookup, expand w matcher "tags".toList none 1 = .ok c ∧ c.truncated = true
      ∧ "f".toList ∈ c.names ∧ find w o "f".toList none = .ok lookup
      ∧ lookup.result = .error (.notFound "f".toList)
      ∧ ∃ index content n r, w.readBytes index = .ok content
        ∧ ScansFor o "f".toList none index content (.decided n r)
        ∧ ∀ c ∈ r.remainder, TagRecord.isSeparator c = false
  := by
  intro w o
  obtain ⟨hfound, hlisted⟩ := find_agrees_expand w o none
  refine ⟨⟨.char 'f', false⟩, by decide +kernel, ?_, ?_⟩
  · have hfind : ∃ lookup l, find w o "foo".toList none = .ok lookup ∧ lookup.result = .ok l
        ∧ l.tagName = "foo".toList := ⟨_, _, rfl, rfl, rfl⟩
    obtain ⟨lookup, l, hlookup, hl, hname⟩ := hfind
    obtain ⟨names, candidates, m, tag, hnames, -, -, hconcludes, htag, hlists⟩ :=
      hfound "foo".toList lookup hlookup (.inl ⟨l, hl⟩)
    obtain rfl : "tags".toList = names := Json.ofText_injective hnames
    rw [hl] at hconcludes
    rw [hconcludes.tagName] at htag
    cases htag
    obtain ⟨hwhole, -⟩ := hlists ⟨.char 'f', false⟩ (by rw [hname]; decide +kernel)
    exact ⟨lookup, l, _, hlookup, hl, rfl, hwhole 2 _ rfl (by decide +kernel)⟩
  · have hmem : ∃ c, expand w ⟨.char 'f', false⟩ "tags".toList none 1 = .ok c ∧ c.truncated = true
        ∧ "f".toList ∈ c.names := ⟨_, rfl, by decide +kernel, by decide +kernel⟩
    obtain ⟨c, hexpand, htruncated, hname⟩ := hmem
    obtain ⟨candidates, -, ⟨index, hindex, content, n, r, hcontent, hscan⟩, hlookup⟩ :=
      hlisted "tags".toList ⟨.char 'f', false⟩ 1 c "f".toList rfl hexpand hname
    have hfind : ∃ lookup, find w o "f".toList none = .ok lookup
        ∧ lookup.result = .error (.notFound "f".toList) := ⟨_, rfl, rfl⟩
    obtain ⟨lookup, hfind, hnotFound⟩ := hfind
    obtain ⟨-, hseparators⟩ := hlookup lookup hfind
    exact ⟨c, lookup, hexpand, htruncated, hname, hfind, hnotFound, index, content, n, r, hcontent,
      hscan, hseparators _ hnotFound index hindex content n r hcontent hscan⟩

end TagNavigator.Lookup
