/-
  ControlSurface.Proofs.Machine.Fresh
  ───────────────────────────────────
  Directories of a new name.  Among one more names than there are entries on a disk one is free
  (`at?_freeName`), so a directory that is made under such a name was not there before
  (`makeFreshDirectory_ok`).
-/
import ControlSurface.Proofs.Machine.Running
import ControlSurface.Proofs.Name.Slugs
import Mathlib.Data.List.Perm.Subperm

namespace ControlSurface.Disk

/-! ## §1. A free name. -/

/-- The search ends at one of the names. -/
theorem freeFrom_mem (d : Disk) (p : Place) (name : Nat → String) (left count : Nat) :
    ∃ i, d.freeFrom p name left count = name i := by
  induction left generalizing count with
  | zero => exact ⟨count, rfl⟩
  | succ left ih =>
    rw [freeFrom]
    split
    · exact ⟨count, rfl⟩
    · exact ih (count + 1)

/-- If the search ends at a name that is taken, all names that it tried are. -/
theorem taken_of_freeFrom {d : Disk} {p : Place} {name : Nat → String} {left count : Nat}
    (h : (d.at? (p ++ [d.freeFrom p name left count])).isSome) :
    ∀ i ≤ left, (d.at? (p ++ [name (count + i)])).isSome := by
  induction left generalizing count with
  | zero =>
    intro i hi
    obtain rfl : i = 0 := by omega
    exact h
  | succ left ih =>
    rw [freeFrom] at h
    by_cases hfree : (d.at? (p ++ [name count])).isNone = true
    · rw [if_pos hfree] at h
      rw [Option.isNone_iff_eq_none.mp hfree] at h
      cases h
    · rw [if_neg hfree] at h
      intro i hi
      cases i with
      | zero => exact Option.isSome_iff_ne_none.mpr (by simpa using hfree)
      | succ i =>
        have := ih h i (by omega)
        rwa [Nat.add_assoc, Nat.add_comm 1 i] at this

/-- **Among one more names than there are entries, one is free.** -/
theorem at?_freeFrom (d : Disk) (p : Place) (name : Nat → String)
    (hname : ∀ i j, name i = name j → i = j) :
    d.at? (p ++ [d.freeFrom p name d.entries.length 0]) = none := by
  -- were all of them taken, there would be more places than entries
  by_contra hsome
  have hall := taken_of_freeFrom (Option.isSome_iff_ne_none.mpr hsome)
  have hnodup : ((List.range (d.entries.length + 1)).map fun i => p ++ [name i]).Nodup := by
    refine List.Nodup.map ?_ List.nodup_range
    intro i j hij
    exact hname i j (by simpa using hij)
  have hsub : (List.range (d.entries.length + 1)).map (fun i => p ++ [name i])
      ⊆ d.entries.map Prod.fst := by
    intro q hq
    obtain ⟨i, hi, rfl⟩ := List.mem_map.mp hq
    have hi := List.mem_range.mp hi
    have htaken := hall i (by omega)
    rw [Nat.zero_add, at?_of_ne_nil _ (by simp)] at htaken
    obtain ⟨item, hitem⟩ := Option.isSome_iff_exists.mp htaken
    exact List.mem_map.mpr ⟨_, Keyed.exists_of_find? hitem, rfl⟩
  have hle := (List.subperm_of_subset hnodup hsub).length_le
  rw [List.length_map, List.length_map, List.length_range] at hle
  omega

/-- A name with a count between its stem and its suffix. -/
theorem toList_counted (stem suffix : String) (count : Nat) :
    (s!"{stem}{count}{suffix}").toList
      = stem.toList ++ (Nat.toDigits 10 count ++ suffix.toList) := by
  have h : s!"{stem}{count}{suffix}" = stem ++ count.repr ++ suffix := rfl
  rw [h, String.toList_append, String.toList_append, Nat.toList_repr, List.append_assoc]

theorem at?_freeName (d : Disk) (p : Place) (stem suffix : String) :
    d.at? (p ++ [d.freeName p stem suffix]) = none := by
  refine at?_freeFrom d p _ fun i j hij => ?_
  have hl := congrArg String.toList hij
  rw [toList_counted, toList_counted] at hl
  exact Name.toDigits_inj (List.append_cancel_right (List.append_cancel_left hl))

/-- A free name begins with its stem. -/
theorem freeName_eq (d : Disk) (p : Place) (stem suffix : String) :
    ∃ rest, (d.freeName p stem suffix).toList = stem.toList ++ rest := by
  obtain ⟨i, hi⟩ := freeFrom_mem d p (fun count => s!"{stem}{count}{suffix}") d.entries.length 0
  exact ⟨_, by rw [freeName, hi, toList_counted]⟩

/-! ## §2. A fresh directory. -/

theorem freshPath_eq_ok {d : Disk} {parent p : Path} {stem suffix : String}
    (h : d.freshPath parent stem suffix = .ok p) :
    ∃ q, Leads d parent q ∧ p = below parent [d.freeName q stem suffix] := by
  unfold freshPath at h
  cases hq : d.place parent with
  | error e =>
    rw [hq] at h
    cases h
  | ok q =>
    rw [hq] at h
    simp only [bind, Except.bind] at h
    split at h
    next hdir =>
      cases h
      exact ⟨q, ⟨hq, hdir⟩, rfl⟩
    next => cases h
    next => cases h

/-- A directory that was made under a fresh name, where nothing was before. -/
structure FreshDirectory (d d' : Disk) (parent stage : Path) (stem : String) (q : Place)
    (s : String) : Prop where
  path : stage = below parent [s]
  leads : Leads d parent q
  plain : IsPlain s
  named : ∃ rest, s.toList = stem.toList ++ rest
  nothing : d.at? (q ++ [s]) = none
  built : Built d d' [q ++ [s]]
  directory : d'.at? (q ++ [s]) = some .directory

/-- A fresh directory is made as any other one, under its free name. -/
theorem run_makeFreshDirectory {d : Disk} {parent p : Path} {stem : String}
    (h : d.freshPath parent stem "" = .ok p) :
    d.run (.makeFreshDirectory parent stem)
      = ((d.makeDirectories p).1.map fun _ => p, (d.makeDirectories p).2) := by
  rw [run, h]
  simp only
  generalize d.makeDirectories p = made
  obtain ⟨outcome, changed⟩ := made
  cases outcome with
  | ok _ => rfl
  | error e => rfl

/-- One name is made below a directory that is there. -/
theorem Leads.makeDirectory_built {d : Disk} {parent : Path} {q : Place} (h : Leads d parent q)
    (htree : d.IsTree) {s : String} (hdown : s ≠ "..") :
    Built d (d.makeDirectories (below parent [s])).2 [q ++ [s]] := by
  have hmade := makeDirectories_built htree (below parent [s])
  refine (h.built_below hmade).restrict fun w hw => ?_
  rcases List.mem_cons.mp hw with rfl | hw
  · exact Or.inr (by rw [h.directory]; rfl)
  · rw [step_down hdown] at hw
    exact Or.inl hw

/-- **A fresh directory** stands where nothing was; `stem` is no beginning of two dots. -/
theorem makeFreshDirectory_ok {d : Disk} (htree : d.IsTree) {parent stage : Path} {stem : String}
    (hstem : 2 < stem.toList.length)
    (h : (d.run (.makeFreshDirectory parent stem)).1 = .ok stage) :
    ∃ q s, FreshDirectory d (d.run (.makeFreshDirectory parent stem)).2 parent stage stem q s := by
  cases hfresh : d.freshPath parent stem "" with
  | error e =>
    have hrun : d.run (.makeFreshDirectory parent stem) = (.error e, d) := by
      rw [run, hfresh]
    rw [hrun] at h
    cases h
  | ok p =>
    obtain ⟨q, hleads, rfl⟩ := freshPath_eq_ok hfresh
    obtain ⟨rest, hnamed⟩ := d.freeName_eq q stem ""
    have hnothing := d.at?_freeName q stem ""
    rw [run_makeFreshDirectory hfresh] at h ⊢
    generalize d.freeName q stem "" = s at hfresh hnamed hnothing h ⊢
    have hdots : s ≠ ".." := by
      rintro rfl
      have hlength := congrArg List.length hnamed
      have htwo : "..".toList.length = 2 := rfl
      rw [List.length_append] at hlength
      omega
    have hdown : ".." ∉ [s] := fun hmem => hdots (List.mem_singleton.mp hmem).symm
    cases hok : (d.makeDirectories (below parent [s])).1 with
    | error e =>
      rw [hok] at h
      cases h
    | ok _ =>
      rw [hok] at h
      cases h
      obtain ⟨hplain, hway⟩ := hleads.makeDirectories_ok htree hdown hok
      exact ⟨q, s, rfl, hleads, hplain s (List.mem_singleton.mpr rfl), ⟨rest, hnamed⟩, hnothing,
        hleads.makeDirectory_built htree hdots, hway _ (end_mem_way_down hdown)⟩

end ControlSurface.Disk
