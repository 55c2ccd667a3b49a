import TagNavigator.Files.World

/-!
# Writing files

What is written at a path is what is read there (`readBytes_write`).  Walking down the path passes
the directories on its way, which writing makes where nothing is.
-/

namespace TagNavigator

namespace FileTree

variable {t : FileTree} {names other : List Text} {e : Entry}

theorem lookup_filter_ne {entries : List (List Text × Entry)} (h : other ≠ names) :
  (entries.filter fun old => old.1 != names).lookup other = entries.lookup other
  := by
  induction entries with
  | nil => rfl
  | cons old entries ih =>
      obtain ⟨key, value⟩ := old
      by_cases hkey : key = names
      · have hne : (other == key) = false := by
          rw [hkey]
          exact beq_false_of_ne h
        rw [List.filter_cons_of_neg (by simp [hkey]), List.lookup_cons, hne, ih]
      · rw [List.filter_cons_of_pos (by simp [hkey]), List.lookup_cons, List.lookup_cons, ih]

theorem entry?_set_self (h : names ≠ []) :
  FileTree.entry? (t.set names e) names = some e
  := by
  rw [ entry?, if_neg (by simpa using h), set]
  simp

theorem entry?_set_of_ne (h : other ≠ names) :
  FileTree.entry? (t.set names e) other = t.entry? other
  := by
  rw [ entry?, entry?, set]
  by_cases hroot : other = []
  · rw [hroot]
    rfl
  · have hempty : other.isEmpty = false := by simpa using hroot
    rw [hempty, if_neg Bool.false_ne_true, if_neg Bool.false_ne_true, List.lookup_cons,
      beq_false_of_ne h, lookup_filter_ne h]

/-- A walk that passes directories only reaches what its path names. -/
theorem walk_eq {start path : List Text}
    (hway : ∀ n < path.length, t.entry? ((path.take n).foldl Path.follow start) = some .directory)
    (hnames : ∀ name ∈ path, (Utf8.encode name).length ≤ nameLimit)
    (hentry : t.entry? (path.foldl Path.follow start) = some e) :
  t.walk start path = .ok e
  := by
  induction path generalizing start with
  | nil =>
      rw [List.foldl_nil] at hentry
      rw [walk, hentry]
  | cons name rest ih =>
      have hstart : t.entry? start = some .directory := hway 0 (Nat.succ_pos _)
      obtain ⟨hname, hrest⟩ := List.forall_mem_cons.mp hnames
      rw [walk, hstart]
      dsimp only
      rw [if_neg (Nat.not_lt.mpr hname)]
      apply ih _ hrest hentry
      intro n hn
      exact hway (n + 1) (Nat.succ_lt_succ hn)

end FileTree

namespace World

variable {w : World} {p : Path} {content : Bytes}

theorem canWrite_iff :
  w.canWrite p = true
    ↔ p.hasNul = false ∧ (Utf8.encode p.toText).length ≤ pathLimit
      ∧ (∀ name ∈ p.names, (Utf8.encode name).length ≤ FileTree.nameLimit)
      ∧ (∀ names ∈ w.way p, FileTree.entry? (w.withWay p) names = some .directory)
      ∧ FileTree.entry? (w.withWay p) (p.absoluteNames w.cwd) ≠ some .directory
  := by
  simp [canWrite, and_assoc]

/-- What is written at a path is what is read there. -/
theorem readBytes_write (h : w.canWrite p = true) :
  (w.write p content).readBytes p = .ok content
  := by
  obtain ⟨-, hpath, hnames, hway, hplace⟩ := canWrite_iff.mp h
  have hroot : p.absoluteNames w.cwd ≠ [] := by
    intro hroot
    rw [hroot] at hplace
    exact hplace rfl
  have hwalk : (w.write p content).files.walk (if p.isAbsolute then [] else w.cwd) p.names
      = .ok (.file content) := by
    apply FileTree.walk_eq _ hnames (FileTree.entry?_set_self hroot)
    intro n hn
    have hdirectory := hway _ (List.mem_map.mpr ⟨n, List.mem_range.mpr hn, rfl⟩)
    refine (FileTree.entry?_set_of_ne ?_).trans hdirectory
    intro heq
    apply hplace
    rw [Path.absoluteNames, ← heq]
    exact hdirectory
  have hentry : (w.write p content).entry p = .ok (.file content) := by
    rw [entry, if_neg (Nat.not_lt.mpr hpath)]
    exact hwalk
  rw [readBytes, hentry]

end World

end TagNavigator
