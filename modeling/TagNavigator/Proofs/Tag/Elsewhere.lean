import TagNavigator.Proofs.Tag.Agreement

/-!
# Lookups from other directories

A lookup uses paths in three places: to compare the candidates, to open them, and to see whether the
defining file is there.  If defining files are looked for beside their index, and the indexes and
the current file are given by absolute paths, all of these paths are absolute, so the lookup is the
same from every working directory (`find_from_anywhere`).
-/

namespace TagNavigator

namespace Index

variable {w : World} {names : Text} {currentFile : Option Path}

theorem optionPaths_cwd (w : World) (cwd : List Text) (names : Text) :
  optionPaths { w with cwd := cwd } names = optionPaths w names
  := List.map_congr_left fun name _ => World.expandPath_cwd w cwd name

theorem mapM_resolve_cwd {paths : List Path} (h : ∀ p ∈ paths, p.isAbsolute = true)
    (cwd : List Text) :
  paths.mapM { w with cwd := cwd }.resolve = paths.mapM w.resolve
  := by
  induction paths with
  | nil => rfl
  | cons p rest ih =>
      obtain ⟨hp, hrest⟩ := List.forall_mem_cons.mp h
      rw [List.mapM_cons, List.mapM_cons, World.resolve_cwd w cwd hp, ih hrest]

theorem isAbsolute_beside {file : Path} (h : file.isAbsolute = true) :
  (file.parent.child localName).isAbsolute = true
  := h

section

variable (hindexes : ∀ index ∈ optionPaths w names, index.isAbsolute = true)
  (hcurrent : ∀ file, currentFile = some file → file.isAbsolute = true)

include hindexes hcurrent

/-- Candidates that are given by absolute paths are the same from every directory. -/
theorem candidates_cwd (cwd : List Text) :
  candidates { w with cwd := cwd } names currentFile = candidates w names currentFile
  := by
  rw [candidates, candidates, optionPaths_cwd, mapM_resolve_cwd hindexes]
  cases currentFile with
  | none => rfl
  | some file =>
      have hbeside := World.resolve_cwd w cwd (isAbsolute_beside (hcurrent file rfl))
      simp only [hbeside]

theorem isAbsolute_of_mem_candidates {indexes : List Path}
    (hcandidates : candidates w names currentFile = .ok indexes) :
  ∀ index ∈ indexes, index.isAbsolute = true
  := by
  obtain ⟨resolved, -, hcandidates⟩ := bind_eq_ok_iff.mp hcandidates
  cases currentFile with
  | none =>
      cases hcandidates
      exact hindexes
  | some file =>
      obtain ⟨target, -, hcandidates⟩ := bind_eq_ok_iff.mp hcandidates
      cases hcandidates
      split
      · exact hindexes
      · exact List.forall_mem_append.mpr
          ⟨hindexes, List.forall_mem_singleton.mpr (isAbsolute_beside (hcurrent file rfl))⟩

end

end Index

namespace Lookup

variable {w : World} {o : Options} {name : Text} {currentFile : Option Path}

/-- The record that decides a lookup names one of the candidates. -/
theorem Searches.isAbsolute_index {candidates : List Path} {errors : List FormatError}
    {found : Option Match} (h : Searches w o name currentFile candidates errors found)
    (hindexes : ∀ index ∈ candidates, index.isAbsolute = true) {m : Match} (hm : found = some m) :
  m.record.index.isAbsolute = true
  := by
  obtain ⟨index, hindex, content, n, -, hscan, -⟩ := h.found_spec hm
  rw [hscan.record.1]
  exact hindexes index hindex

section

variable (hbeside : o.besideIndex = true)

include hbeside

/-- Beside an index with an absolute path, every defining file has one. -/
theorem isAbsolute_targetPath {index : Path} (hindex : index.isAbsolute = true) (file : Text) :
  (targetPath w o index file).isAbsolute = true
  := by
  have hparent : index.parent.isAbsolute = true := hindex
  have hne : index.parent ≠ Path.here := by
    intro heq
    rw [heq] at hparent
    cases hparent
  rw [targetPath]
  split
  next h =>
    simp only [Bool.and_eq_true, Bool.not_eq_true'] at h
    rw [Path.join, if_neg (by simp [h.1.2])]
    exact hparent
  next h =>
    simp only [hbeside, Bool.true_and, Bool.and_eq_true, Bool.not_eq_true', bne_iff_ne] at h
    by_contra hfile
    exact h ⟨eq_false_of_ne_true hfile, hne⟩

theorem locate_cwd {r : TagRecord} (hr : r.index.isAbsolute = true) (cwd : List Text)
    (name file command : Text) :
  locate { w with cwd := cwd } o name r file command = locate w o name r file command
  := by
  have htarget : targetPath { w with cwd := cwd } o r.index file = targetPath w o r.index file := by
    simp only [targetPath, World.expandPath_cwd]
  have hthere := World.isThere_cwd w cwd (isAbsolute_targetPath (w := w) hbeside hr file)
  simp only [locate, isTargetThere, htarget, hthere]

theorem among_cwd {candidates : List Path}
    (hindexes : ∀ index ∈ candidates, index.isAbsolute = true) (cwd : List Text) (opened : Bool) :
  among { w with cwd := cwd } o name currentFile opened candidates
    = among w o name currentFile opened candidates
  := by
  obtain ⟨errors, found, hs⟩ := exists_searches w o name currentFile candidates
  rw [← List.append_nil candidates]
  apply among_append_congr hs
  · intro other hother
    exact World.readBytes_cwd w cwd (hindexes other hother)
  · intro m hm
    exact locate_cwd hbeside (hs.isAbsolute_index hindexes hm) cwd name m.file m.command
  · intro _ opened
    rfl

/-- The file of a location, found or missed, has an absolute path if the index has one. -/
theorem isAbsolute_of_locate {r : TagRecord} (hr : r.index.isAbsolute = true) {file command : Text}
    {result : Except TagError Location} (h : locate w o name r file command = .ok result) :
  (∀ l, result = .ok l → l.path.isAbsolute = true ∧ l.index.isAbsolute = true)
    ∧ ∀ asked path, result = .error (.missingTarget asked path) → path.isAbsolute = true
  := by
  have htarget := isAbsolute_targetPath (w := w) hbeside hr file
  obtain ⟨there, -, hresult⟩ := bind_eq_ok_iff.mp h
  cases there with
  | true =>
      cases hresult
      constructor
      · rintro l ⟨⟩
        exact ⟨htarget, hr⟩
      · rintro asked path ⟨⟩
  | false =>
      cases hresult
      constructor
      · rintro l ⟨⟩
      · rintro asked path ⟨⟩
        exact htarget

end

/-- If defining files are looked for beside the index that names them, and the indexes of the option
and the current file have absolute paths, a lookup from one working directory is the same as a
lookup from any other: it breaks off with the same fault, or comes to the same location or error,
with the same format errors, notices and log.  A location that it comes to has an absolute path and
names an index by one, and so has a file that it misses. -/
theorem find_from_anywhere (hbeside : o.besideIndex = true)
    (hindexes : ∀ names, o.indexes = JsonString.ofText names →
      ∀ index ∈ Index.optionPaths w names, index.isAbsolute = true)
    (hcurrent : ∀ file, currentFile = some file → file.isAbsolute = true) (name : Text)
    (cwd cwd' : List Text) :
  find { w with cwd := cwd } o name currentFile = find { w with cwd := cwd' } o name currentFile
    ∧ ∀ lookup, find { w with cwd := cwd } o name currentFile = .ok lookup →
      (∀ l, lookup.result = .ok l → l.path.isAbsolute = true ∧ l.index.isAbsolute = true)
      ∧ ∀ asked path, lookup.result = .error (.missingTarget asked path) →
        path.isAbsolute = true
  := by
  have hcwd (cwd : List Text) :
      find { w with cwd := cwd } o name currentFile = find w o name currentFile := by
    cases hnames : o.indexNames with
    | error e =>
        rw [find, find, hnames]
        rfl
    | ok names =>
        have hwritten := indexNames_eq_ok_iff.mp hnames
        have hindexes := hindexes names hwritten
        rw [find_eq_bind hwritten, find_eq_bind hwritten, Index.candidates_cwd hindexes hcurrent]
        cases hcandidates : Index.candidates w names currentFile with
        | error e => rfl
        | ok candidates =>
            have habsolute := Index.isAbsolute_of_mem_candidates hindexes hcurrent hcandidates
            exact among_cwd hbeside habsolute cwd false
  refine ⟨(hcwd cwd).trans (hcwd cwd').symm, ?_⟩
  intro lookup hlookup
  rw [hcwd] at hlookup
  obtain ⟨names, candidates, found, hnames, hcandidates, hs, hc⟩ := exists_searches_of_find hlookup
  have habsolute :=
    Index.isAbsolute_of_mem_candidates (hindexes names hnames) hcurrent hcandidates
  cases found with
  | none =>
      constructor
      · intro l hl
        obtain ⟨m, ⟨⟩⟩ := (taken_iff_of_conclusion hc).mp (.inl ⟨l, hl⟩)
      · intro asked path hpath
        obtain ⟨m, ⟨⟩⟩ := (taken_iff_of_conclusion hc).mp (.inr ⟨asked, path, hpath⟩)
  | some m => exact isAbsolute_of_locate hbeside (hs.isAbsolute_index habsolute rfl) hc

/-- A malformed index, and after it one in the home directory of another user that names a file
beside it, which is there also when the lookup is made from somewhere else. -/
theorem find_from_anywhere_root :
  let w : World :=
    ⟨⟨[(["t".toList], .directory), (["t".toList, "bad".toList], .file (Utf8.encode "x\n".toList)),
      (["t".toList, "tags".toList], .file (Utf8.encode "f\ta\t2\n".toList)),
      (["t".toList, "a".toList], .file [])]⟩, ["t".toList], [("T".toList, "/t".toList)],
      ⟨.slash, []⟩, { homes := [("x".toList, "/t".toList)] }⟩
  let o : Options := { indexes := JsonString.ofText "$T/bad ~x/tags".toList, besideIndex := true }
  let file : Path := ⟨.slash, ["u".toList, "x.c".toList]⟩
  o.besideIndex = true
    ∧ (∀ names, o.indexes = JsonString.ofText names →
      ∀ index ∈ Index.optionPaths w names, index.isAbsolute = true)
    ∧ file.isAbsolute = true
    ∧ ∃ lookup, find w o "f".toList (some file) = .ok lookup
      ∧ find { w with cwd := [] } o "f".toList (some file) = .ok lookup
      ∧ lookup.formatErrors = [⟨⟨.slash, ["t".toList, "bad".toList]⟩, 1⟩]
      ∧ lookup.result = .ok ⟨"f".toList, "f".toList, ⟨.slash, ["t".toList, "a".toList]⟩,
          ⟨['2'], false⟩, ⟨.slash, ["t".toList, "tags".toList]⟩, 1⟩
  := by
  intro w o file
  have hindexes : ∀ names, o.indexes = JsonString.ofText names →
      ∀ index ∈ Index.optionPaths w names, index.isAbsolute = true := by
    intro names hnames
    obtain rfl : "$T/bad ~x/tags".toList = names := Json.ofText_injective hnames
    decide +kernel
  have hfile : ∀ other, some file = some other → other.isAbsolute = true := by
    rintro other ⟨⟩
    rfl
  obtain ⟨hsame, -⟩ := find_from_anywhere rfl hindexes hfile "f".toList ["t".toList] []
  have hfind : (fun lookup : Lookup => (lookup.formatErrors, lookup.result))
      <$> find w o "f".toList (some file)
      = .ok ([⟨⟨.slash, ["t".toList, "bad".toList]⟩, 1⟩],
        .ok ⟨"f".toList, "f".toList, ⟨.slash, ["t".toList, "a".toList]⟩, ⟨['2'], false⟩,
          ⟨.slash, ["t".toList, "tags".toList]⟩, 1⟩) := by
    decide +kernel
  obtain ⟨lookup, hlookup, heq⟩ := map_eq_ok_iff.mp hfind
  obtain ⟨herrors, hresult⟩ := Prod.mk.inj heq
  exact ⟨rfl, hindexes, rfl, lookup, hlookup, hsame.symm.trans hlookup, herrors, hresult⟩

end Lookup

end TagNavigator
