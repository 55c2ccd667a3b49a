import TagNavigator.Files.World
import TagNavigator.Proofs.Files.Path
import TagNavigator.Proofs.Outcome

/-!
# Paths in a world

A path fits if the file system can take it: neither the written path nor a name in it is too long.
Walking down such a path never stops at a long name, so asking whether something is there has an
answer. Which path a written name means depends on the environment and the users only.
-/

namespace TagNavigator

/-- The path and its names are short enough for the file system. -/
structure Path.Fits (p : Path) : Prop where
  path : (Utf8.encode p.toText).length ≤ World.pathLimit
  names : ∀ name ∈ p.names, (Utf8.encode name).length ≤ FileTree.nameLimit

instance (p : Path) : Decidable p.Fits :=
  decidable_of_iff
    ((Utf8.encode p.toText).length ≤ World.pathLimit
      ∧ ∀ name ∈ p.names, (Utf8.encode name).length ≤ FileTree.nameLimit)
    ⟨fun h => ⟨h.1, h.2⟩, fun h => ⟨h.path, h.names⟩⟩

/-- Walking stops at a long name only if there is one. -/
theorem FileTree.walk_ne_nameTooLong {t : FileTree} {names path : List Text}
    (h : ∀ name ∈ path, (Utf8.encode name).length ≤ nameLimit) :
  t.walk names path ≠ .error .nameTooLong
  := by
  induction path generalizing names with
  | nil =>
      rw [walk]
      split <;> simp
  | cons name rest ih =>
      obtain ⟨hname, hrest⟩ := List.forall_mem_cons.mp h
      rw [walk]
      split
      · simp
      · simp
      · rw [if_neg (Nat.not_lt.mpr hname)]
        exact ih hrest

namespace World

variable {w : World} {p : Path}

theorem entry_ne_nameTooLong (h : p.Fits) :
  w.entry p ≠ .error .nameTooLong
  := by
  rw [entry, if_neg (Nat.not_lt.mpr h.path)]
  exact FileTree.walk_ne_nameTooLong h.names

/-- Whether a path that fits names something has an answer. -/
theorem isThere_of_fits (h : p.Fits) :
  ∃ there, w.isThere p = .ok there
  := by
  rw [isThere]
  split
  · exact ⟨false, rfl⟩
  · split
    · exact ⟨true, rfl⟩
    next he => exact absurd he (entry_ne_nameTooLong h)
    · exact ⟨false, rfl⟩

/-! ### Written names -/

theorem resolve_of_not_hasNul (h : p.hasNul = false) :
  w.resolve p = .ok (p.resolve w.cwd)
  := by
  rw [resolve, checked, h]
  rfl

theorem resolve_ok_iff :
  (∃ q, w.resolve p = .ok q) ↔ p.hasNul = false
  := by
  constructor
  · rintro ⟨q, hq⟩
    obtain ⟨path, hpath, -⟩ := map_eq_ok_iff.mp hq
    unfold checked at hpath
    split at hpath
    · cases hpath
    · rename_i h
      exact eq_false_of_ne_true h
  · intro h
    exact ⟨_, resolve_of_not_hasNul h⟩

theorem mapM_resolve_ok_iff {paths : List Path} :
  (∃ resolved, paths.mapM w.resolve = .ok resolved) ↔ ∀ p ∈ paths, p.hasNul = false
  := by
  induction paths with
  | nil => exact ⟨fun _ => nofun, fun _ => ⟨[], rfl⟩⟩
  | cons p paths ih =>
      rw [List.forall_mem_cons, ← ih, ← resolve_ok_iff (w := w)]
      simp only [List.mapM_cons, bind_eq_ok_iff]
      constructor
      · rintro ⟨_, q, hq, resolved, hresolved, -⟩
        exact ⟨⟨q, hq⟩, resolved, hresolved⟩
      · rintro ⟨⟨q, hq⟩, resolved, hresolved⟩
        exact ⟨q :: resolved, q, hq, resolved, hresolved, rfl⟩

/-- Paths that can be handed to the file system are all resolved. -/
theorem mapM_resolve_of_not_hasNul {paths : List Path} (h : ∀ p ∈ paths, p.hasNul = false) :
  paths.mapM w.resolve = .ok (paths.map (·.resolve w.cwd))
  := by
  induction paths with
  | nil => rfl
  | cons p paths ih =>
      obtain ⟨hp, hpaths⟩ := List.forall_mem_cons.mp h
      rw [List.mapM_cons, resolve_of_not_hasNul hp, ih hpaths]
      rfl

/-! ### Expansion -/

theorem valueOf?_congr {w w' : World} (h : w'.environment = w.environment) (name : Text) :
  w'.valueOf? name = w.valueOf? name
  := by
  rw [valueOf?, h]
  rfl

/-- Only the environment counts when references are replaced. -/
theorem expandVariablesFrom_congr {w w' : World} (h : w'.environment = w.environment) (skip : Nat)
    (t : Text) :
  w'.expandVariablesFrom skip t = w.expandVariablesFrom skip t
  := by
  induction t generalizing skip with
  | nil => cases skip <;> rfl
  | cons c t ih =>
      cases skip with
      | succ skip =>
          rw [expandVariablesFrom, expandVariablesFrom]
          apply ih
      | zero =>
          rw [expandVariablesFrom, expandVariablesFrom]
          simp only [ih, valueOf?_congr h]

/-- Only the environment and the users count when a tilde is replaced. -/
theorem expandHome_congr {w w' : World} (h : w'.environment = w.environment)
    (husers : w'.users = w.users) (t : Text) :
  w'.expandHome t = w.expandHome t
  := by
  have hhome (user : Text) : w'.homeOf? user = w.homeOf? user := by
    rw [homeOf?, homeOf?, valueOf?_congr h, husers]
  rw [expandHome.eq_def, expandHome.eq_def]
  simp only [hhome]

theorem expandPath_congr {w w' : World} (h : w'.environment = w.environment)
    (husers : w'.users = w.users) (name : Text) :
  w'.expandPath name = w.expandPath name
  := by
  rw [expandPath, expandPath, expandHome_congr h husers, expandVariablesFrom_congr h]

theorem expandPath_files (w : World) (files : FileTree) (name : Text) :
  { w with files := files }.expandPath name = w.expandPath name
  := by
  apply expandPath_congr
  · rfl
  · rfl

section

variable {q : Char → Prop} {t : Text}

variable (henvironment : ∀ v ∈ w.environment, ∀ c ∈ v.2, q c)

include henvironment

/-- Replacing references brings in nothing but values. -/
theorem forall_mem_expandVariablesFrom (ht : ∀ c ∈ t, q c) (skip : Nat) :
  ∀ c ∈ w.expandVariablesFrom skip t, q c
  := by
  induction t generalizing skip with
  | nil => cases skip <;> exact List.forall_mem_nil _
  | cons d t ih =>
      obtain ⟨hd, ht⟩ := List.forall_mem_cons.mp ht
      cases skip with
      | succ skip => exact ih ht skip
      | zero =>
          rw [expandVariablesFrom]
          split
          · split
            next name n _ =>
              split
              next value hvalue =>
                have hbrought := henvironment _ (mem_of_lookup hvalue)
                exact List.forall_mem_append.mpr ⟨hbrought, ih ht n⟩
              next =>
                have hkept : ∀ c ∈ t.take n, q c := fun c hc => ht c (List.take_subset n t hc)
                exact List.forall_mem_append.mpr ⟨List.forall_mem_cons.mpr ⟨hd, hkept⟩, ih ht n⟩
            next => exact List.forall_mem_cons.mpr ⟨hd, ih ht 0⟩
          · exact List.forall_mem_cons.mpr ⟨hd, ih ht 0⟩

variable (husers : ∀ home ∈ w.users.directories, ∀ c ∈ home, q c)

include husers

/-- The home directory of a user is that of the environment or one of the users. -/
theorem forall_mem_home {user home : Text} (h : w.homeOf? user = some home) :
  ∀ c ∈ home, q c
  := by
  rw [homeOf?] at h
  split at h
  · rcases Option.or_eq_some_iff.mp h with hvalue | ⟨-, hown⟩
    · exact henvironment _ (mem_of_lookup hvalue)
    · apply husers
      exact List.mem_append_left _ (Option.mem_toList.mpr hown)
  · apply husers
    exact List.mem_append_right _ (List.mem_map_of_mem (mem_of_lookup h))

/-- A tilde is replaced by nothing but a home directory and a slash. -/
theorem forall_mem_expandHome (ht : ∀ c ∈ t, q c) (hslash : q '/') :
  ∀ c ∈ w.expandHome t, q c
  := by
  rw [expandHome.eq_def]
  split
  next t =>
    split
    · exact ht
    next home hhome =>
      have hpath : ∀ c ∈ Text.dropTrailing (· == '/') home ++ t.dropWhile (· != '/'), q c := by
        have hhome := forall_mem_home henvironment husers hhome
        have ht := (List.forall_mem_cons.mp ht).2
        exact List.forall_mem_append.mpr
          ⟨fun c hc => hhome c (Text.mem_of_mem_dropTrailing hc),
            fun c hc => ht c ((List.dropWhile_suffix _).subset hc)⟩
      split
      · exact List.forall_mem_singleton.mpr hslash
      · exact hpath
  next => exact ht

end

/-- Without NUL in a name, in the environment or in a home directory, there is none in the path that
the name means. -/
theorem hasNul_expandPath {name : Text} (hname : '\x00' ∉ name)
    (henvironment : ∀ v ∈ w.environment, '\x00' ∉ v.2)
    (husers : ∀ home ∈ w.users.directories, '\x00' ∉ home) :
  (w.expandPath name).hasNul = false
  := by
  have hne {t : Text} (h : '\x00' ∉ t) : ∀ c ∈ t, c ≠ '\x00' := fun c hc hnul => h (hnul ▸ hc)
  have henvironment : ∀ v ∈ w.environment, ∀ c ∈ v.2, c ≠ '\x00' :=
    fun v hv => hne (henvironment v hv)
  have husers : ∀ home ∈ w.users.directories, ∀ c ∈ home, c ≠ '\x00' :=
    fun home hhome => hne (husers home hhome)
  apply Path.hasNul_ofText
  intro h
  have hhome := forall_mem_expandHome henvironment husers (hne hname) (by decide)
  exact forall_mem_expandVariablesFrom henvironment hhome 0 _ h rfl

/-! ### Other working directories -/

section

variable (w) (cwd : List Text)

theorem expandPath_cwd (name : Text) :
  { w with cwd := cwd }.expandPath name = w.expandPath name
  := by
  apply expandPath_congr
  · rfl
  · rfl

theorem resolve_cwd (h : p.isAbsolute = true) :
  { w with cwd := cwd }.resolve p = w.resolve p
  := by
  rw [resolve, resolve, checked]
  split
  · rfl
  · exact congrArg Except.ok (Path.resolve_of_isAbsolute h cwd w.cwd)

theorem entry_cwd (h : p.isAbsolute = true) :
  { w with cwd := cwd }.entry p = w.entry p
  := by
  simp only [entry, h, if_true]

theorem readBytes_cwd (h : p.isAbsolute = true) :
  { w with cwd := cwd }.readBytes p = w.readBytes p
  := by
  rw [readBytes, readBytes, entry_cwd w cwd h]

theorem isThere_cwd (h : p.isAbsolute = true) :
  { w with cwd := cwd }.isThere p = w.isThere p
  := by
  rw [isThere, isThere, entry_cwd w cwd h]

end

end World

end TagNavigator
