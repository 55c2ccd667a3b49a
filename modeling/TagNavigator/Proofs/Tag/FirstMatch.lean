import Mathlib.Data.List.TakeWhile
import TagNavigator.Proofs.Files.World
import TagNavigator.Proofs.Json.Strings
import TagNavigator.Proofs.Tag.Scan
import TagNavigator.Tag.Lookup

/-!
# The first match decides

A lookup goes through the candidate indexes in order. `Searches` says what it meets on the way: the
format errors, one for each index that a line without its fields ends, and the record that decides,
if there is one. `Concludes` says what comes of it. `find_iff_searches` says that the lookup meets
just that and comes to just that, and that neither the bytes after the line that decides nor the
candidates after its index make a difference.
-/

namespace TagNavigator.Lookup

/-- A record that decides a lookup, with its defining file and its search command. -/
structure Match where
  record : TagRecord
  file : Text
  command : Text
  deriving DecidableEq, Repr

section

variable (w : World) (o : Options) (name : Text) (currentFile : Option Path)

/-- What the content of an index comes to when the name is looked up. -/
def ScansFor (index : Path) (content : Bytes) (v : Index.Verdict) : Prop :=
  Index.Scans (isMatch o name) index currentFile 1 (Utf8.segments content) v

/-- What a lookup meets in the candidates: the format errors, and the record that decides. -/
inductive Searches : List Path → List FormatError → Option Match → Prop
  | nil : Searches [] [] none
  | unopened {index rest errors found e} (opening : w.readBytes index = .error e)
      (later : Searches rest errors found) : Searches (index :: rest) errors found
  | exhausted {index content rest errors found} (opening : w.readBytes index = .ok content)
      (scan : ScansFor o name currentFile index content .exhausted)
      (later : Searches rest errors found) : Searches (index :: rest) errors found
  | rejected {index content n rest errors found} (opening : w.readBytes index = .ok content)
      (scan : ScansFor o name currentFile index content (.rejected ⟨index, n⟩))
      (later : Searches rest errors found) : Searches (index :: rest) (⟨index, n⟩ :: errors) found
  | commandless {index content n r rest errors found} (opening : w.readBytes index = .ok content)
      (scan : ScansFor o name currentFile index content (.decided n r))
      (separators : ∀ c ∈ r.remainder, TagRecord.isSeparator c = false)
      (later : Searches rest errors found) : Searches (index :: rest) (⟨index, n⟩ :: errors) found
  | found {index content n r rest file command} (opening : w.readBytes index = .ok content)
      (scan : ScansFor o name currentFile index content (.decided n r))
      (fields : r.fields = .ok (file, command)) :
      Searches (index :: rest) [] (some ⟨r, file, command⟩)

/-- What comes of a lookup in the candidates. -/
inductive Concludes (candidates : List Path) : Option Match → Except TagError Location → Prop
  | location {m tag} (named : m.record.name = some tag)
      (there : isTargetThere w o m.record.index m.file = .ok true) :
      Concludes candidates (some m) (.ok ⟨name, tag, targetPath w o m.record.index m.file,
        TagCommand.ofField o.magic m.command, m.record.index, m.record.line⟩)
  | missingTarget {m} (missing : isTargetThere w o m.record.index m.file = .ok false) :
      Concludes candidates (some m)
        (.error (.missingTarget name (targetPath w o m.record.index m.file)))
  | noIndex (unopened : ∀ index ∈ candidates, ∃ e, w.readBytes index = .error e) :
      Concludes candidates none (.error .noIndex)
  | notFound {index content} (candidate : index ∈ candidates)
      (opening : w.readBytes index = .ok content) :
      Concludes candidates none (.error (.notFound name))

/-- The names and paths that a lookup uses can be handed to the system. -/
structure Representable (names : Text) : Prop where
  written : o.indexes = JsonString.ofText names
  indexes : ∀ index ∈ Index.optionPaths w names, index.hasNul = false
  current : ∀ file, currentFile = some file → file.hasNul = false
  targets : ∀ candidates, Index.candidates w names currentFile = .ok candidates →
    ∀ index ∈ candidates, ∀ content, w.readBytes index = .ok content →
    ∀ n, ∀ line ∈ Utf8.segments content, ∀ r file command,
    Index.parseLine index currentFile n line = .ok r → r.fields = .ok (file, command) →
    '\x00' ∉ World.userOf file ∧ (targetPath w o index file).Fits

/-- The first bytes of an index, up to a line feed, hold the record that decides a lookup which none
of the candidates `before` ends. -/
structure Decides (before : List Path) (index : Path) (head : Bytes) (m : Match) : Prop where
  passed : ∃ errors, Searches w o name currentFile before errors none
  content : ∃ tail, w.readBytes index = .ok (head ++ Utf8.lineFeed :: tail)
  scan : ∃ n, ScansFor o name currentFile index (head ++ [Utf8.lineFeed]) (.decided n m.record)
  fields : m.record.fields = .ok (m.file, m.command)

/-- The files are the same in the candidates `before` and in the first bytes of the index, and so is
whether the defining file exists. -/
structure Agrees (files : FileTree) (before : List Path) (index : Path) (head : Bytes) (m : Match) :
    Prop where
  before : ∀ other ∈ before, { w with files := files }.readBytes other = w.readBytes other
  content : ∃ tail, { w with files := files }.readBytes index = .ok (head ++ Utf8.lineFeed :: tail)
  target : isTargetThere { w with files := files } o index m.file = isTargetThere w o index m.file

end

section

variable {w : World} {o : Options} {name : Text} {currentFile : Option Path}

theorem splitField_eq_none_iff {t : Text} :
  TagRecord.splitField t = none ↔ ∀ c ∈ t, TagRecord.isSeparator c = false
  := by
  simp [TagRecord.splitField, List.dropWhile_eq_nil_iff]

theorem fields_error_iff {r : TagRecord} {e : FormatError} :
  r.fields = .error e
    ↔ e = ⟨r.index, r.line⟩ ∧ ∀ c ∈ r.remainder, TagRecord.isSeparator c = false
  := by
  rw [← splitField_eq_none_iff, TagRecord.fields]
  cases TagRecord.splitField r.remainder <;> simp [eq_comm]

/-! ### One candidate -/

theorem among_unopened {index : Path} {e : FileError} (h : w.readBytes index = .error e)
    (opened : Bool) (rest : List Path) :
  among w o name currentFile opened (index :: rest)
    = logging (.skipping .lookup ⟨index, e.message index⟩)
      <$> among w o name currentFile opened rest
  := by
  rw [among, Index.read, h]

theorem among_exhausted {index : Path} {content : Bytes} (h : w.readBytes index = .ok content)
    (hv : ScansFor o name currentFile index content .exhausted) (opened : Bool) (rest : List Path) :
  among w o name currentFile opened (index :: rest)
    = logging (.scanning index) <$> among w o name currentFile true rest
  := by
  obtain ⟨hfind, hstop⟩ :=
    Index.Reading.verdict_eq_exhausted_iff.mp (Index.scans_segments_iff.mp hv)
  rw [among, Index.read, h]
  simp only [hfind, hstop]

theorem among_rejected {index : Path} {content : Bytes} {e : FormatError}
    (h : w.readBytes index = .ok content)
    (hv : ScansFor o name currentFile index content (.rejected e)) (opened : Bool)
    (rest : List Path) :
  among w o name currentFile opened (index :: rest)
    = logging (.scanning index) <$> afterError e <$> among w o name currentFile true rest
  := by
  obtain ⟨hfind, hstop⟩ := Index.Reading.verdict_eq_rejected_iff.mp (Index.scans_segments_iff.mp hv)
  rw [among, Index.read, h]
  simp only [hfind, hstop]

theorem among_decided {index : Path} {content : Bytes} {n : Nat} {r : TagRecord}
    (h : w.readBytes index = .ok content)
    (hv : ScansFor o name currentFile index content (.decided n r)) (opened : Bool)
    (rest : List Path) :
  among w o name currentFile opened (index :: rest)
    = logging (.scanning index) <$>
      match r.fields with
      | .error e => afterError e <$> among w o name currentFile true rest
      | .ok (file, command) => ending <$> locate w o name r file command
  := by
  obtain ⟨hfind, -⟩ := Index.Reading.verdict_eq_decided_iff.mp (Index.scans_segments_iff.mp hv)
  rw [among, Index.read, h]
  cases hfields : r.fields with
  | error e => simp only [hfind, hfields]
  | ok f => simp only [hfind, hfields]

/-- The record that decides in an index names the index and the line. -/
theorem ScansFor.record {index : Path} {content : Bytes} {n : Nat} {r : TagRecord}
    (h : ScansFor o name currentFile index content (.decided n r)) :
  r.index = index ∧ r.line = n
  := by
  obtain ⟨line, -, hr, -⟩ := h
  exact Index.parseLine_ok hr

theorem ScansFor.match {index : Path} {content : Bytes} {n : Nat} {r : TagRecord}
    (h : ScansFor o name currentFile index content (.decided n r)) :
  isMatch o name r = true
  := by
  obtain ⟨line, -, -, hm⟩ := h
  exact hm

/-! ### All candidates -/

/-- A lookup meets something in any candidates. -/
theorem exists_searches (w : World) (o : Options) (name : Text) (currentFile : Option Path)
    (candidates : List Path) :
  ∃ errors found, Searches w o name currentFile candidates errors found
  := by
  induction candidates with
  | nil => exact ⟨[], none, .nil⟩
  | cons index rest ih =>
      obtain ⟨errors, found, hrest⟩ := ih
      cases h : w.readBytes index with
      | error e => exact ⟨errors, found, .unopened h hrest⟩
      | ok content =>
          have hscan (v) : ScansFor o name currentFile index content v
              ↔ (Index.readContent index currentFile content).verdict (isMatch o name) = v :=
            Index.scans_segments_iff
          cases hv : (Index.readContent index currentFile content).verdict (isMatch o name) with
          | decided n r =>
              have hd := (hscan _).mpr hv
              cases hf : r.fields with
              | error e =>
                  exact ⟨_, _, .commandless h hd (fields_error_iff.mp hf).2 hrest⟩
              | ok f => exact ⟨_, _, .found h hd hf⟩
          | rejected e =>
              have hd := (hscan _).mpr hv
              obtain ⟨line, -, he⟩ := id hd
              rw [Index.parseLine_error he] at hd
              exact ⟨_, _, .rejected h hd hrest⟩
          | exhausted => exact ⟨_, _, .exhausted h ((hscan _).mpr hv) hrest⟩

/-- The record that decides stands in a line of a candidate, and it is looked for. -/
theorem Searches.found_spec {candidates : List Path} {errors : List FormatError}
    {found : Option Match} (h : Searches w o name currentFile candidates errors found) {m : Match}
    (hm : found = some m) :
  ∃ index ∈ candidates, ∃ content n, w.readBytes index = .ok content
    ∧ ScansFor o name currentFile index content (.decided n m.record)
    ∧ m.record.fields = .ok (m.file, m.command)
  := by
  induction h with
  | nil => cases hm
  | found opening scan fields =>
      cases hm
      exact ⟨_, List.mem_cons_self, _, _, opening, scan, fields⟩
  | unopened _ _ ih | exhausted _ _ _ ih | rejected _ _ _ ih | commandless _ _ _ _ ih =>
      obtain ⟨index, hmem, hspec⟩ := ih hm
      exact ⟨index, List.mem_cons_of_mem _ hmem, hspec⟩

/-! ### The conclusion -/

/-- Whether one of the candidates can be opened. -/
def anyOpened (w : World) (candidates : List Path) : Bool :=
  candidates.any fun index => (w.readBytes index).toBool

theorem anyOpened_cons_error {index : Path} {e : FileError} (h : w.readBytes index = .error e)
    (rest : List Path) :
  anyOpened w (index :: rest) = anyOpened w rest
  := by
  simp [anyOpened, h, Except.toBool]

theorem anyOpened_cons_ok {index : Path} {content : Bytes} (h : w.readBytes index = .ok content)
    (rest : List Path) :
  anyOpened w (index :: rest) = true
  := by
  simp [anyOpened, h, Except.toBool]

/-- What comes of a lookup by what it meets, and by whether a candidate is opened. -/
def conclusion (w : World) (o : Options) (name : Text) (opened : Bool) :
    Option Match → Except Fault (Except TagError Location)
  | some m => locate w o name m.record m.file m.command
  | none => .ok (.error (if opened then .notFound name else .noIndex))

/-- A lookup in the candidates collects the format errors it meets, and concludes. -/
theorem Searches.among_eq {candidates : List Path} {errors : List FormatError}
    {found : Option Match} (h : Searches w o name currentFile candidates errors found)
    (opened : Bool) :
  ∃ log, among w o name currentFile opened candidates
    = (fun result => ⟨result, errors, log⟩)
      <$> conclusion w o name (opened || anyOpened w candidates) found
  := by
  induction h generalizing opened with
  | nil =>
      rw [anyOpened, List.any_nil, Bool.or_false]
      exact ⟨[], rfl⟩
  | unopened opening _ ih =>
      obtain ⟨log, hlog⟩ := ih opened
      rw [anyOpened_cons_error opening, among_unopened opening, hlog, Functor.map_map]
      exact ⟨_ :: log, rfl⟩
  | exhausted opening scan _ ih =>
      obtain ⟨log, hlog⟩ := ih true
      rw [anyOpened_cons_ok opening, Bool.or_true, among_exhausted opening scan, hlog,
        Functor.map_map]
      exact ⟨_ :: log, rfl⟩
  | rejected opening scan _ ih =>
      obtain ⟨log, hlog⟩ := ih true
      rw [anyOpened_cons_ok opening, Bool.or_true, among_rejected opening scan, hlog,
        Functor.map_map, Functor.map_map]
      exact ⟨_ :: _ :: log, rfl⟩
  | commandless opening scan separators _ ih =>
      obtain ⟨log, hlog⟩ := ih true
      obtain ⟨hindex, hline⟩ := scan.record
      rw [anyOpened_cons_ok opening, Bool.or_true, among_decided opening scan,
        fields_error_iff.mpr ⟨rfl, separators⟩, hindex, hline]
      dsimp only
      rw [hlog, Functor.map_map, Functor.map_map]
      exact ⟨_ :: _ :: log, rfl⟩
  | found opening scan fields =>
      rw [among_decided opening scan, fields]
      dsimp only
      rw [Functor.map_map]
      exact ⟨[_], rfl⟩

/-- If the conclusion can be drawn, the lookup comes to an end with it. -/
theorem among_of_searches {candidates : List Path} {errors : List FormatError}
    {found : Option Match} (h : Searches w o name currentFile candidates errors found)
    {opened : Bool} {result : Except TagError Location}
    (hc : conclusion w o name (opened || anyOpened w candidates) found = .ok result) :
  ∃ l, among w o name currentFile opened candidates = .ok l ∧ l.formatErrors = errors
    ∧ l.result = result
  := by
  obtain ⟨log, hamong⟩ := h.among_eq opened
  rw [hamong, hc]
  exact ⟨_, rfl, rfl, rfl⟩

theorem anyOpened_eq_true_iff {candidates : List Path} :
  anyOpened w candidates = true
    ↔ ∃ index ∈ candidates, ∃ content, w.readBytes index = .ok content
  := by
  rw [anyOpened, List.any_eq_true]
  apply exists_congr
  intro index
  cases w.readBytes index <;> simp [Except.toBool]

theorem anyOpened_eq_false_iff {candidates : List Path} :
  anyOpened w candidates = false
    ↔ ∀ index ∈ candidates, ∃ e, w.readBytes index = .error e
  := by
  rw [anyOpened, List.any_eq_false]
  apply forall_congr'
  intro index
  cases w.readBytes index <;> simp [Except.toBool]

theorem isMatch_named {r : TagRecord} (h : isMatch o name r = true) :
  ∃ tag, r.name = some tag
  := by
  rw [isMatch] at h
  cases hr : r.name with
  | none =>
      rw [hr] at h
      cases h
  | some tag => exact ⟨tag, rfl⟩

theorem locate_of_isTargetThere {r : TagRecord} {file : Text} {there : Bool}
    (h : isTargetThere w o r.index file = .ok there) (command : Text) :
  locate w o name r file command
    = .ok (if there then
        .ok ⟨name, r.name.getD [], targetPath w o r.index file, TagCommand.ofField o.magic command,
          r.index, r.line⟩
      else .error (.missingTarget name (targetPath w o r.index file)))
  := by
  unfold locate
  simp only [h]
  cases there <;> rfl

theorem concludes_none_iff {candidates : List Path} {result : Except TagError Location} :
  Concludes w o name candidates none result
    ↔ conclusion w o name (anyOpened w candidates) none = .ok result
  := by
  rw [conclusion]
  cases hopened : anyOpened w candidates with
  | true =>
      obtain ⟨index, hmem, content, hcontent⟩ := anyOpened_eq_true_iff.mp hopened
      constructor
      · rintro (_ | _ | hnone | _)
        · obtain ⟨e, he⟩ := hnone index hmem
          rw [hcontent] at he
          cases he
        · rfl
      · rintro ⟨⟩
        exact .notFound hmem hcontent
  | false =>
      have hnone := anyOpened_eq_false_iff.mp hopened
      constructor
      · rintro (_ | _ | _ | ⟨hmem, hcontent⟩)
        · rfl
        · obtain ⟨e, he⟩ := hnone _ hmem
          rw [hcontent] at he
          cases he
      · rintro ⟨⟩
        exact .noIndex hnone

theorem concludes_some_iff {candidates : List Path} {m : Match} {tag : Text} {there : Bool}
    (htag : m.record.name = some tag)
    (ht : isTargetThere w o m.record.index m.file = .ok there) (opened : Bool)
    {result : Except TagError Location} :
  Concludes w o name candidates (some m) result
    ↔ conclusion w o name opened (some m) = .ok result
  := by
  rw [conclusion, locate_of_isTargetThere ht, htag]
  cases there with
  | true =>
      constructor
      · rintro (⟨hnamed, -⟩ | ⟨hmissing⟩)
        · rw [htag] at hnamed
          cases hnamed
          rfl
        · rw [ht] at hmissing
          cases hmissing
      · rintro ⟨⟩
        exact .location htag ht
  | false =>
      constructor
      · rintro (⟨-, hfound⟩ | ⟨hmissing⟩)
        · rw [ht] at hfound
          cases hfound
        · rfl
      · rintro ⟨⟩
        exact .missingTarget ht

/-- What comes of a lookup, put as a judgement. -/
theorem concludes_iff {candidates : List Path} {errors : List FormatError} {found : Option Match}
    (h : Searches w o name currentFile candidates errors found)
    (hthere : ∀ m, found = some m →
      ∃ there, isTargetThere w o m.record.index m.file = .ok there)
    {result : Except TagError Location} :
  Concludes w o name candidates found result
    ↔ conclusion w o name (anyOpened w candidates) found = .ok result
  := by
  cases found with
  | none => exact concludes_none_iff
  | some m =>
      obtain ⟨there, ht⟩ := hthere m rfl
      obtain ⟨index, -, content, n, -, hscan, -⟩ := h.found_spec rfl
      obtain ⟨tag, htag⟩ := isMatch_named hscan.match
      apply concludes_some_iff htag ht

/-- A lookup comes to something if it can be told whether the defining file exists. -/
theorem exists_conclusion {found : Option Match}
    (hthere : ∀ m, found = some m →
      ∃ there, isTargetThere w o m.record.index m.file = .ok there)
    (name : Text) (opened : Bool) :
  ∃ result, conclusion w o name opened found = .ok result
  := by
  cases found with
  | none => exact ⟨_, rfl⟩
  | some m =>
      obtain ⟨there, ht⟩ := hthere m rfl
      exact ⟨_, locate_of_isTargetThere ht m.command⟩

/-! ### What does not count -/

theorem targetPath_files (files : FileTree) (index : Path) (file : Text) :
  targetPath { w with files := files } o index file = targetPath w o index file
  := by
  simp only [targetPath, World.expandPath_files]

/-- A lookup comes to the same in another world, if the content of the candidates is the same there,
and so is where the record is located that decides.  If none does, it goes on with further
candidates. -/
theorem among_append_congr {w' : World} {before rest : List Path} {errors : List FormatError}
    {found : Option Match} (h : Searches w o name currentFile before errors found)
    (hsame : ∀ other ∈ before, w'.readBytes other = w.readBytes other)
    (hlocate : ∀ m, found = some m → locate w' o name m.record m.file m.command
      = locate w o name m.record m.file m.command)
    (hrest : found = none → ∀ opened, among w' o name currentFile opened rest
      = among w o name currentFile opened rest) (opened : Bool) :
  among w' o name currentFile opened (before ++ rest)
    = among w o name currentFile opened (before ++ rest)
  := by
  induction h generalizing opened with
  | nil => exact hrest rfl opened
  | unopened opening _ ih =>
      obtain ⟨hindex, hsame⟩ := List.forall_mem_cons.mp hsame
      rw [List.cons_append, among_unopened opening, among_unopened (hindex.trans opening),
        ih hsame hlocate hrest]
  | exhausted opening scan _ ih =>
      obtain ⟨hindex, hsame⟩ := List.forall_mem_cons.mp hsame
      rw [List.cons_append, among_exhausted opening scan,
        among_exhausted (hindex.trans opening) scan, ih hsame hlocate hrest]
  | rejected opening scan _ ih =>
      obtain ⟨hindex, hsame⟩ := List.forall_mem_cons.mp hsame
      rw [List.cons_append, among_rejected opening scan,
        among_rejected (hindex.trans opening) scan, ih hsame hlocate hrest]
  | commandless opening scan separators _ ih =>
      obtain ⟨hindex, hsame⟩ := List.forall_mem_cons.mp hsame
      rw [List.cons_append, among_decided opening scan,
        among_decided (hindex.trans opening) scan, fields_error_iff.mpr ⟨rfl, separators⟩]
      dsimp only
      rw [ih hsame hlocate hrest]
  | found opening scan fields =>
      obtain ⟨hindex, -⟩ := List.forall_mem_cons.mp hsame
      rw [List.cons_append, among_decided opening scan,
        among_decided (hindex.trans opening) scan, fields]
      dsimp only
      rw [hlocate _ rfl]

/-- The lines after the one that decides do not count. -/
theorem ScansFor.append {index : Path} {head : Bytes} {n : Nat} {r : TagRecord}
    (h : ScansFor o name currentFile index (head ++ [Utf8.lineFeed]) (.decided n r))
    (tail : Bytes) :
  ScansFor o name currentFile index (head ++ Utf8.lineFeed :: tail) (.decided n r)
  := by
  unfold ScansFor
  rw [Utf8.segments_append_lineFeed]
  exact Index.scans_append_of_decided h _

theorem among_congr_of_decides {before : List Path} {index : Path} {head : Bytes} {m : Match}
    (h : Decides w o name currentFile before index head m) {files : FileTree}
    (hsame : Agrees w o files before index head m) (opened : Bool) (later : List Path) :
  among { w with files := files } o name currentFile opened (before ++ index :: later)
    = among w o name currentFile opened (before ++ index :: later)
  := by
  obtain ⟨errors, hpassed⟩ := h.passed
  obtain ⟨n, hscan⟩ := h.scan
  obtain ⟨tail, hcontent⟩ := h.content
  obtain ⟨tail', hcontent'⟩ := hsame.content
  apply among_append_congr hpassed hsame.before nofun
  intro _ opened
  have hlocate : locate { w with files := files } o name m.record m.file m.command
      = locate w o name m.record m.file m.command := by
    have htarget := hsame.target
    rw [← hscan.record.1] at htarget
    simp only [locate, targetPath_files, htarget]
  rw [among_decided hcontent (hscan.append tail), among_decided hcontent' (hscan.append tail'),
    h.fields]
  dsimp only
  rw [hlocate]

/-! ### The candidates -/

/-- The names of the index files can be written just if the option is the string of a text. -/
theorem indexNames_eq_ok_iff {names : Text} :
  o.indexNames = .ok names ↔ o.indexes = JsonString.ofText names
  := by
  rw [← Json.toText?_eq_some_iff, Options.indexNames]
  cases o.indexes.toText? with
  | none => exact ⟨nofun, nofun⟩
  | some t => simp

theorem find_eq_bind {names : Text} (h : o.indexes = JsonString.ofText names) :
  find w o name currentFile
    = Index.candidates w names currentFile >>= among w o name currentFile false
  := by
  rw [find, indexNames_eq_ok_iff.mpr h]
  rfl

theorem hasNul_beside {file : Path} (h : file.hasNul = false) :
  (file.parent.child Index.localName).hasNul = false
  := Path.hasNul_child (Path.hasNul_parent h) (by decide)

/-- There are candidates just if no path that they are made of has NUL. -/
theorem exists_candidates_iff (w : World) (indexes : Text) (currentFile : Option Path) :
  (∃ candidates, Index.candidates w indexes currentFile = .ok candidates)
    ↔ (∀ index ∈ Index.optionPaths w indexes, index.hasNul = false)
      ∧ ∀ file, currentFile = some file → (file.parent.child Index.localName).hasNul = false
  := by
  rw [← World.mapM_resolve_ok_iff (w := w), Index.candidates]
  simp only [bind_eq_ok_iff]
  cases currentFile with
  | none => simp [pure, Except.pure]
  | some file =>
      simp only [bind_eq_ok_iff, Option.some.injEq, forall_eq', ← World.resolve_ok_iff (w := w)]
      constructor
      · rintro ⟨candidates, resolved, hresolved, beside, hbeside, -⟩
        exact ⟨⟨resolved, hresolved⟩, beside, hbeside⟩
      · rintro ⟨⟨resolved, hresolved⟩, beside, hbeside⟩
        exact ⟨_, resolved, hresolved, beside, hbeside, rfl⟩

theorem exists_candidates {names : Text} (h : Representable w o currentFile names) :
  ∃ candidates, Index.candidates w names currentFile = .ok candidates
  := by
  rw [exists_candidates_iff]
  exact ⟨h.indexes, fun file hfile => hasNul_beside (h.current file hfile)⟩

theorem candidates_files (w : World) (files : FileTree) (names : Text) (currentFile : Option Path) :
  Index.candidates { w with files := files } names currentFile
    = Index.candidates w names currentFile
  := by
  have hpaths : Index.optionPaths { w with files := files } names = Index.optionPaths w names :=
    List.map_congr_left fun name _ => World.expandPath_files w files name
  rw [Index.candidates, hpaths]
  rfl

theorem isTargetThere_of_fits {index : Path} {file : Text} (huser : '\x00' ∉ World.userOf file)
    (hfits : (targetPath w o index file).Fits) :
  ∃ there, isTargetThere w o index file = .ok there
  := by
  rw [isTargetThere, if_neg (by simpa using huser)]
  exact World.isThere_of_fits hfits

/-- Whether the defining file of the record that decides exists has an answer. -/
theorem exists_isTargetThere {names : Text} (h : Representable w o currentFile names)
    {candidates : List Path} (hcandidates : Index.candidates w names currentFile = .ok candidates)
    {errors : List FormatError} {m : Match}
    (hsearch : Searches w o name currentFile candidates errors (some m)) :
  ∃ there, isTargetThere w o m.record.index m.file = .ok there
  := by
  obtain ⟨index, hmem, content, n, hcontent, hscan, hfields⟩ := hsearch.found_spec rfl
  obtain ⟨line, ⟨before, after, hlines, -, -⟩, hparse, -⟩ := id hscan
  have hline : line ∈ Utf8.segments content := by
    rw [hlines]
    exact List.mem_append_right _ List.mem_cons_self
  obtain ⟨huser, hfits⟩ :=
    h.targets _ hcandidates _ hmem _ hcontent _ _ hline _ _ _ hparse hfields
  rw [hscan.record.1]
  exact isTargetThere_of_fits huser hfits

/-- A lookup goes through the candidates in order, and concludes from what it meets there: the first
record with the name that has a search command ends it, and a line without its fields ends its index
only. What follows the record that decides, in its index or in later candidates, makes no
difference. -/
theorem find_iff_searches {names : Text} (h : Representable w o currentFile names) (name : Text) :
  ∃ candidates l, Index.candidates w names currentFile = .ok candidates
    ∧ find w o name currentFile = .ok l
    ∧ (∀ errors result, l.formatErrors = errors ∧ l.result = result
        ↔ ∃ found, Searches w o name currentFile candidates errors found
          ∧ Concludes w o name candidates found result)
    ∧ ∀ before index later head m files, candidates = before ++ index :: later →
      Decides w o name currentFile before index head m → Agrees w o files before index head m →
      find { w with files := files } o name currentFile = .ok l
  := by
  obtain ⟨candidates, hcandidates⟩ := exists_candidates h
  have hfind : find w o name currentFile = among w o name currentFile false candidates := by
    rw [find_eq_bind h.written, hcandidates]
    rfl
  have hthere {errors found} (hs : Searches w o name currentFile candidates errors found) (m)
      (hm : found = some m) :
      ∃ there, isTargetThere w o m.record.index m.file = .ok there := by
    subst hm
    exact exists_isTargetThere h hcandidates hs
  have hend {errors found result} (hs : Searches w o name currentFile candidates errors found)
      (hc : Concludes w o name candidates found result) :
      ∃ l, among w o name currentFile false candidates = .ok l ∧ l.formatErrors = errors
        ∧ l.result = result := by
    apply among_of_searches hs
    rw [Bool.false_or]
    exact (concludes_iff hs (hthere hs)).mp hc
  obtain ⟨errors, found, hs⟩ := exists_searches w o name currentFile candidates
  obtain ⟨result, hresult⟩ := exists_conclusion (hthere hs) name (anyOpened w candidates)
  have hc := (concludes_iff hs (hthere hs)).mpr hresult
  obtain ⟨l, hl, he, hr⟩ := hend hs hc
  refine ⟨candidates, l, hcandidates, hfind.trans hl, ?_, ?_⟩
  · intro errors' result'
    constructor
    · rintro ⟨rfl, rfl⟩
      rw [he, hr]
      exact ⟨found, hs, hc⟩
    · rintro ⟨found', hs', hc'⟩
      obtain ⟨l', hl', he', hr'⟩ := hend hs' hc'
      rw [hl] at hl'
      cases hl'
      exact ⟨he', hr'⟩
  · rintro before index later head m files rfl hdecides hagrees
    rw [find_eq_bind h.written, candidates_files, hcandidates, ← hl]
    exact among_congr_of_decides hdecides hagrees false later

/-- A malformed index, and after it one that names a file in the home directory of another user: one
format error, and the location. -/
theorem find_iff_searches_second_index :
  let w : World :=
    ⟨⟨[(["a".toList], .file (Utf8.encode "x\ty\t1\nrest".toList)),
      (["b".toList], .file (Utf8.encode "f\t~root/a\t2\n".toList)),
      (["root".toList], .directory), (["root".toList, "a".toList], .file [])]⟩, [], [],
      ⟨.slash, []⟩, { homes := [("root".toList, "/root/".toList)] }⟩
  let o : Options := { indexes := JsonString.ofText "a b".toList }
  ∃ l, find w o "f".toList none = .ok l
    ∧ l.formatErrors = [⟨⟨.here, ["a".toList]⟩, 2⟩]
    ∧ l.result = .ok ⟨"f".toList, "f".toList, ⟨.slash, ["root".toList, "a".toList]⟩, ⟨['2'], false⟩,
        ⟨.here, ["b".toList]⟩, 1⟩
  := by
  intro w o
  have hrepresentable : Representable w o none "a b".toList := by
    constructor
    · rfl
    · decide
    · rintro file ⟨⟩
    · rintro candidates ⟨⟩ index hindex content hcontent n line hline r file command hr hf
      rcases hindex with _ | ⟨_, _ | ⟨_, ⟨⟩⟩⟩
      · cases hcontent
        rcases hline with _ | ⟨_, _ | ⟨_, ⟨⟩⟩⟩
        · cases hr
          cases hf
          change '\x00' ∉ [] ∧ (⟨.here, [['y']]⟩ : Path).Fits
          decide
        · cases hr
      · cases hcontent
        rcases hline with _ | ⟨_, ⟨⟩⟩
        cases hr
        cases hf
        change '\x00' ∉ "root".toList ∧ (⟨.slash, ["root".toList, ['a']]⟩ : Path).Fits
        decide
  obtain ⟨candidates, l, hcandidates, hl, hiff, -⟩ := find_iff_searches hrepresentable "f".toList
  cases hcandidates
  let r : TagRecord := ⟨['f'], some ['f'], "~root/a\t2\n".toList, ⟨.here, ["b".toList]⟩, 1⟩
  refine ⟨l, hl, (hiff _ _).mpr ⟨some ⟨r, "~root/a".toList, "2\n".toList⟩, ?_, ?_⟩⟩
  · have hfirst : w.readBytes ⟨.here, ["a".toList]⟩ = .ok (Utf8.encode "x\ty\t1\nrest".toList) :=
      rfl
    have hsecond : w.readBytes ⟨.here, ["b".toList]⟩
        = .ok (Utf8.encode "f\t~root/a\t2\n".toList) := rfl
    apply Searches.rejected hfirst
    · apply Index.scans_segments_iff.mpr
      rfl
    · apply Searches.found hsecond
      · apply Index.scans_segments_iff.mpr
        rfl
      · rfl
  · apply Concludes.location rfl rfl

end

end TagNavigator.Lookup
