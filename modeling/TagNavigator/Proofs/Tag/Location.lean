import TagNavigator.Proofs.Files.World
import TagNavigator.Proofs.Outcome
import TagNavigator.Tag.Lookup

/-!
# Locations that a lookup gives

A lookup gives a location only after it has seen that the defining file exists.  So the path of the
location can be handed to the file system.
-/

namespace TagNavigator.Lookup

variable {w : World} {o : Options} {name : Text} {currentFile : Option Path} {lookup : Lookup}
  {l : Location}

theorem isThere_of_isTargetThere {index : Path} {file : Text} {there : Bool}
    (h : isTargetThere w o index file = .ok there) :
  w.isThere (targetPath w o index file) = .ok there
  := by
  rw [isTargetThere] at h
  split at h
  · cases h
  · exact h

theorem isThere_of_locate {r : TagRecord} {file command : Text}
    (h : locate w o name r file command = .ok (.ok l)) :
  w.isThere l.path = .ok true
  := by
  rw [locate] at h
  obtain ⟨there, hthere, hresult⟩ := bind_eq_ok_iff.mp h
  cases there with
  | true =>
      cases hresult
      exact isThere_of_isTargetThere hthere
  | false => cases hresult

/-- A lookup that gives a location has found its file. -/
theorem isThere_of_among {opened : Bool} {candidates : List Path}
    (h : among w o name currentFile opened candidates = .ok lookup) (hl : lookup.result = .ok l) :
  w.isThere l.path = .ok true
  := by
  induction candidates generalizing opened lookup with
  | nil =>
      cases h
      cases hl
  | cons index rest ih =>
      rw [among] at h
      split at h
      · obtain ⟨later, hlater, rfl⟩ := map_eq_ok_iff.mp h
        exact ih hlater hl
      · obtain ⟨scanned, hscanned, rfl⟩ := map_eq_ok_iff.mp h
        split at hscanned
        · split at hscanned
          · obtain ⟨later, hlater, rfl⟩ := map_eq_ok_iff.mp hscanned
            exact ih hlater hl
          · obtain ⟨result, hresult, rfl⟩ := map_eq_ok_iff.mp hscanned
            change result = .ok l at hl
            rw [hl] at hresult
            exact isThere_of_locate hresult
        · split at hscanned
          · obtain ⟨later, hlater, rfl⟩ := map_eq_ok_iff.mp hscanned
            exact ih hlater hl
          · exact ih hscanned hl

theorem isThere_of_find (h : find w o name currentFile = .ok lookup)
    (hl : lookup.result = .ok l) :
  w.isThere l.path = .ok true
  := by
  rw [find] at h
  obtain ⟨names, -, h⟩ := bind_eq_ok_iff.mp h
  obtain ⟨candidates, -, hamong⟩ := bind_eq_ok_iff.mp h
  exact isThere_of_among hamong hl

/-- The file of a location can be handed to the file system. -/
theorem resolve_of_find (h : find w o name currentFile = .ok lookup)
    (hl : lookup.result = .ok l) :
  w.resolve l.path = .ok (l.path.resolve w.cwd)
  := by
  apply World.resolve_of_not_hasNul
  have hthere := isThere_of_find h hl
  by_cases hnul : l.path.hasNul = true
  · rw [World.isThere, if_pos hnul] at hthere
    cases hthere
  · exact eq_false_of_ne_true hnul

end TagNavigator.Lookup
