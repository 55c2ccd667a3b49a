import TagNavigator.Proofs.Files.World
import TagNavigator.Proofs.Outcome
import TagNavigator.Tag.Index

/-!
# The candidates of a lookup

The names of the option are the parts between its spaces.  Each of them is a candidate, as often as
it is written, and the index beside the current file comes after them, unless one of them leads to
the same place in some other spelling.  So that index is consulted always, and more than once only
if several names of the option lead to it (`candidates_in_order`).
-/

namespace TagNavigator.Index

/-- The names in the option, in order. -/
def writtenNames (names : Text) : List Text :=
  (names.splitOn ' ').filter (· ≠ [])

/-- A name with the home directory and the variables that it refers to filled in. -/
def filledIn (w : World) (name : Text) : Text :=
  w.expandVariablesFrom 0 (w.expandHome name)

/-- The path that a name means. -/
def pathOf (w : World) (name : Text) : Path :=
  Path.ofText (filledIn w name)

/-- The index beside a file. -/
def beside (file : Text) : Path :=
  (Path.ofText file).parent.child "tags".toList

/-- A name leads to the place of the index beside a file. -/
def LeadsBeside (w : World) (file name : Text) : Prop :=
  Path.place w.cwd (filledIn w name) = Path.place w.cwd (beside file).toText

instance (w : World) (file name : Text) : Decidable (LeadsBeside w file name) :=
  inferInstanceAs (Decidable (_ = _))

/-- A path is written so that it leads to the place of the index beside a file. -/
def IsBeside (w : World) (file : Text) (p : Path) : Prop :=
  Path.place w.cwd p.toText = Path.place w.cwd (beside file).toText

instance (w : World) (file : Text) (p : Path) : Decidable (IsBeside w file p) :=
  inferInstanceAs (Decidable (_ = _))

variable {w : World} {names file : Text}

/-! ### The names in the option -/

theorem optionPaths_eq (w : World) (names : Text) :
  optionPaths w names = (writtenNames names).map (pathOf w)
  := by
  rw [optionPaths, Text.cutAt_eq_splitOn, writtenNames]
  congr 1
  apply List.filter_congr
  intro name _
  cases name <;> rfl

theorem nul_notMem_of_mem_writtenNames (h : '\x00' ∉ names) {name : Text}
    (hname : name ∈ writtenNames names) :
  '\x00' ∉ name
  := by
  have hcut := (List.mem_filter.mp hname).1
  rw [← Text.cutAt_eq_splitOn] at hcut
  exact fun hnul => h (Text.mem_of_mem_cutAt hcut hnul)

theorem hasNul_of_mem_optionPaths (hnames : '\x00' ∉ names)
    (henvironment : ∀ v ∈ w.environment, '\x00' ∉ v.2)
    (husers : ∀ home ∈ w.users.directories, '\x00' ∉ home) :
  ∀ p ∈ optionPaths w names, p.hasNul = false
  := by
  intro p hp
  rw [optionPaths_eq] at hp
  obtain ⟨name, hname, rfl⟩ := List.mem_map.mp hp
  exact World.hasNul_expandPath (nul_notMem_of_mem_writtenNames hnames hname) henvironment husers

/-! ### Places -/

theorem isBeside_pathOf_iff {name : Text} :
  IsBeside w file (pathOf w name) ↔ LeadsBeside w file name
  := by
  rw [IsBeside, LeadsBeside, pathOf, Path.place_toText (Path.written_ofText _),
    Path.absoluteNames_ofText]

theorem isBeside_iff {p : Path} (hp : p.Written) :
  IsBeside w file p ↔ p.resolve w.cwd = (beside file).resolve w.cwd
  := by
  have hbeside : (beside file).Written := (Path.written_ofText file).parent.child (by decide)
  rw [IsBeside, Path.place_toText hp, Path.place_toText hbeside, Path.resolve, Path.resolve]
  simp

/-- The index beside a file is among the resolved paths of the option just if a name leads there. -/
theorem contains_resolve_beside_iff :
  ((optionPaths w names).map (·.resolve w.cwd)).contains ((beside file).resolve w.cwd) = true
    ↔ ∃ name ∈ writtenNames names, LeadsBeside w file name
  := by
  simp only [List.contains_iff_mem, optionPaths_eq, List.map_map, List.mem_map, Function.comp_apply,
    ← isBeside_pathOf_iff, isBeside_iff (Path.written_ofText _), pathOf]

theorem countP_isBeside (w : World) (names file : Text) :
  ((writtenNames names).map (pathOf w)).countP (fun p => IsBeside w file p)
    = (writtenNames names).countP fun name => LeadsBeside w file name
  := by
  rw [List.countP_map]
  apply List.countP_congr
  intro name _
  simp only [Function.comp_apply, isBeside_pathOf_iff]

theorem candidates_none (hlisted : ∀ p ∈ optionPaths w names, p.hasNul = false) :
  candidates w names none = .ok ((writtenNames names).map (pathOf w))
  := by
  rw [candidates, World.mapM_resolve_of_not_hasNul hlisted, optionPaths_eq]
  rfl

/-- Which candidates there are while a file is edited. -/
theorem candidates_some (hlisted : ∀ p ∈ optionPaths w names, p.hasNul = false)
    (hfile : '\x00' ∉ file) :
  candidates w names (some (Path.ofText file)) = .ok ((writtenNames names).map (pathOf w)
    ++ if ∃ name ∈ writtenNames names, LeadsBeside w file name then [] else [beside file])
  := by
  have hbeside : (beside file).hasNul = false :=
    Path.hasNul_child (Path.hasNul_parent (Path.hasNul_ofText hfile)) (by decide)
  have htarget : w.resolve ((Path.ofText file).parent.child localName)
      = .ok ((beside file).resolve w.cwd) := World.resolve_of_not_hasNul hbeside
  rw [candidates, World.mapM_resolve_of_not_hasNul hlisted]
  change (w.resolve _ >>= _) = _
  rw [htarget]
  change Except.ok (if _ then _ else _) = _
  simp only [contains_resolve_beside_iff]
  rw [optionPaths_eq]
  split
  · rw [List.append_nil]
  · rfl

/-- The candidates are the paths of the names in the option, in order and as often as they are
written, and after them the index beside the current file, just if there is one and none of those
names leads to its place.  So the place of that index is among the places of the candidates once,
or, if names in the option lead to it, as often as they do. -/
theorem candidates_in_order {current : Option Text} (hnames : '\x00' ∉ names)
    (henvironment : ∀ v ∈ w.environment, '\x00' ∉ v.2)
    (husers : ∀ home ∈ w.users.directories, '\x00' ∉ home)
    (hcurrent : ∀ file, current = some file → '\x00' ∉ file) :
  ∃ indexes last, candidates w names (current.map Path.ofText) = .ok indexes
    ∧ indexes = (writtenNames names).map (pathOf w) ++ last.toList
    ∧ (∀ p, last = some p ↔ ∃ file, current = some file ∧ p = beside file
      ∧ ∀ name ∈ writtenNames names, ¬ LeadsBeside w file name)
    ∧ ∀ file, current = some file →
      indexes.countP (fun p => IsBeside w file p)
        = max 1 ((writtenNames names).countP fun name => LeadsBeside w file name)
  := by
  have hlisted := hasNul_of_mem_optionPaths hnames henvironment husers
  cases current with
  | none =>
      refine ⟨_, none, candidates_none hlisted, (List.append_nil _).symm, ?_, nofun⟩
      simp
  | some file =>
      have hcandidates := candidates_some hlisted (hcurrent file rfl)
      by_cases hled : ∃ name ∈ writtenNames names, LeadsBeside w file name
      · -- A name leads to the index beside the file, in whatever spelling, so it is not added.
        obtain ⟨name, hname, hleads⟩ := id hled
        rw [if_pos hled] at hcandidates
        refine ⟨_, none, hcandidates, rfl, ?_, ?_⟩
        · intro p
          refine iff_of_false nofun ?_
          rintro ⟨_, ⟨⟩, -, hnot⟩
          exact hnot name hname hleads
        · rintro _ ⟨⟩
          have hpos : 0 < (writtenNames names).countP fun name => LeadsBeside w file name :=
            List.countP_pos_iff.mpr ⟨name, hname, by simpa using hleads⟩
          rw [List.append_nil, countP_isBeside, Nat.max_eq_right hpos]
      · rw [if_neg hled] at hcandidates
        have hnot : ∀ name ∈ writtenNames names, ¬ LeadsBeside w file name :=
          fun name hname hleads => hled ⟨name, hname, hleads⟩
        refine ⟨_, some (beside file), hcandidates, rfl, ?_, ?_⟩
        · intro p
          constructor
          · rintro ⟨⟩
            exact ⟨file, rfl, rfl, hnot⟩
          · rintro ⟨_, ⟨⟩, rfl, -⟩
            rfl
        · rintro _ ⟨⟩
          have hzero : (writtenNames names).countP (fun name => LeadsBeside w file name) = 0 :=
            List.countP_eq_zero.mpr fun name hname => by simpa using hnot name hname
          have hself : IsBeside w file (beside file) := rfl
          rw [List.countP_append, countP_isBeside, hzero, List.countP_singleton,
            if_pos (decide_eq_true hself)]
          rfl

/-- Three names of an option lead, each in its own spelling, to the index beside the current file,
which then is not added.  It is added if they are left out. -/
theorem candidates_in_order_spelled :
  let w : World := ⟨⟨[]⟩, ["h".toList], [("D".toList, "//x".toList)], ⟨.slash, []⟩,
    { homes := [("u".toList, "/h/u".toList)], own := some "/h/".toList }⟩
  let names := "a  ~/a/..//tags ~u/../tags ~v $D/../h/./tags/ a".toList
  let file := "./a/../b.c".toList
  '\x00' ∉ names ∧ '\x00' ∉ "a  a".toList ∧ (∀ v ∈ w.environment, '\x00' ∉ v.2)
    ∧ (∀ home ∈ w.users.directories, '\x00' ∉ home) ∧ '\x00' ∉ file
    ∧ (∃ indexes, candidates w names (some (Path.ofText file)) = .ok indexes
      ∧ indexes.map Path.toText
        = ["a".toList, "/h/a/../tags".toList, "/h/u/../tags".toList, "~v".toList,
          "//x/../h/tags".toList, "a".toList]
      ∧ indexes.countP (fun p => IsBeside w file p) = 3)
    ∧ ∃ indexes, candidates w "a  a".toList (some (Path.ofText file)) = .ok indexes
      ∧ indexes.map Path.toText = ["a".toList, "a".toList, "a/../tags".toList]
      ∧ indexes.countP (fun p => IsBeside w file p) = 1
  := by
  intro w names file
  have hnames : '\x00' ∉ names := by decide
  have hnames' : '\x00' ∉ "a  a".toList := by decide
  have henvironment : ∀ v ∈ w.environment, '\x00' ∉ v.2 := by decide
  have husers : ∀ home ∈ w.users.directories, '\x00' ∉ home := by decide
  have hfile : '\x00' ∉ file := by decide
  have hcurrent : ∀ other, some file = some other → '\x00' ∉ other := by
    rintro _ ⟨⟩
    exact hfile
  refine ⟨hnames, hnames', henvironment, husers, hfile, ?_, ?_⟩
  · obtain ⟨indexes, last, hcandidates, rfl, hlast, hcount⟩ :=
      candidates_in_order hnames henvironment husers hcurrent
    have hnone : last = none := by
      apply Option.eq_none_iff_forall_ne_some.mpr
      intro p hp
      obtain ⟨_, ⟨⟩, -, hnot⟩ := (hlast p).mp hp
      exact hnot "~u/../tags".toList (by decide +kernel) (by decide +kernel)
    subst hnone
    exact ⟨_, hcandidates, by decide +kernel, (hcount file rfl).trans (by decide +kernel)⟩
  · obtain ⟨indexes, last, hcandidates, rfl, hlast, hcount⟩ :=
      candidates_in_order hnames' henvironment husers hcurrent
    have hsome : last = some (beside file) :=
      (hlast (beside file)).mpr ⟨file, rfl, rfl, by decide +kernel⟩
    subst hsome
    exact ⟨_, hcandidates, by decide +kernel, (hcount file rfl).trans (by decide +kernel)⟩

end TagNavigator.Index
