/-
  ControlSurface.Proofs.Machine.Carrying
  ──────────────────────────────────────
  What moves on a disk change.  A move carries an item with all below it; everything that is neither
  below its source nor below its target stays.

  Main results:
    * `move_carried` — what is moved stands at the target with all below it, and nowhere else.
    * `exists_move` — a move onto a free place goes well.
-/
import ControlSurface.Proofs.Machine.Changing

namespace ControlSurface.Disk

/-! ## §1. What a move leaves. -/

/-- A disk after what stood at one place was carried to another, with all below it. -/
structure Carried (d d' : Disk) (s t : Place) : Prop where
  here : d'.here = d.here
  tree : d'.IsTree
  target : ∀ rest, d'.at? (t ++ rest) = d.at? (s ++ rest)
  source : ∀ q, s <+: q → ¬ t <+: q → d'.at? q = none
  elsewhere : ∀ q, ¬ s <+: q → ¬ t <+: q → d'.at? q = d.at? q

theorem Carried.content?_target {d d' : Disk} {s t : Place} (h : Carried d d' s t)
    (rest : Place) : d'.content? (t ++ rest) = d.content? (s ++ rest) :=
  content?_congr (h.target rest)

theorem Carried.content?_elsewhere {d d' : Disk} {s t : Place} (h : Carried d d' s t) {q : Place}
    (hs : ¬ s <+: q) (ht : ¬ t <+: q) : d'.content? q = d.content? q :=
  content?_congr (h.elsewhere q hs ht)

/-- What every path passes stays where it is, as long as it is not among what is carried. -/
theorem Carried.leads {d d' : Disk} {s t : Place} (h : Carried d d' s t) {p : Path} {q : Place}
    (hp : Leads d p q) (hs : ∀ w ∈ d.wayOf p, ¬ s <+: w) (ht : ∀ w ∈ d.wayOf p, ¬ t <+: w) :
    Leads d' p q :=
  hp.keep h.here fun w hw => by rw [h.elsewhere w (hs w hw) (ht w hw), hp.directories w hw]

/-- The disk that a move leads to. -/
def carry (d : Disk) (s t : Place) : Disk :=
  { d.without (· == t) with
    entries := (d.without (· == t)).entries.map fun (p, i) => (moved s t p, i) }

theorem moved_append (s t rest : Place) : moved s t (s ++ rest) = t ++ rest := by
  have hin : liesIn s (s ++ rest) = true :=
    List.isPrefixOf_iff_prefix.mpr (List.prefix_append s rest)
  rw [moved, if_pos hin, List.drop_left]

theorem moved_outside {s t p : Place} (h : ¬ s <+: p) : moved s t p = p := by
  rw [moved, if_neg]
  rwa [liesIn, List.isPrefixOf_iff_prefix]

/-- A target that is free for what stands at a source: nothing lies below it, and it does not lie
below the source. -/
structure FreeFor (d : Disk) (s t : Place) : Prop where
  source_ne : s ≠ []
  target_ne : t ≠ []
  outside : ¬ s <+: t
  nothing : ∀ q, t <+: q → t ≠ q → d.at? q = none

namespace FreeFor

variable {d : Disk} {s t : Place}

/-- What stands at a place after a move, in terms of the entries before. -/
theorem at?_carry {q old : Place} (hq : q ≠ []) (hold : old ≠ []) (hnew : old ≠ t)
    (h : ∀ e ∈ d.entries, e.1 ≠ t → (moved s t e.1 = q ↔ e.1 = old)) :
    (d.carry s t).at? q = d.at? old := by
  have hfilter := Keyed.find?_filter old (fun p => !(p == t)) d.entries
  rw [if_pos (by simpa using hnew)] at hfilter
  rw [at?_of_ne_nil _ hq, at?_of_ne_nil _ hold]
  refine (Keyed.find?_map (moved s t) q old _ fun e he => ?_).trans hfilter
  obtain ⟨hmem, hkeep⟩ := List.mem_filter.mp he
  exact h e hmem (by simpa using hkeep)

theorem at?_target (h : FreeFor d s t) (rest : Place) :
    (d.carry s t).at? (t ++ rest) = d.at? (s ++ rest) := by
  refine at?_carry (by simp [h.target_ne]) (by simp [h.source_ne]) ?_ fun e he hne => ?_
  · rintro rfl
    exact h.outside (List.prefix_append s rest)
  · by_cases hin : s <+: e.1
    · obtain ⟨more, hmore⟩ := hin
      rw [← hmore, moved_append]
      simp
    · rw [moved_outside hin]
      constructor
      · intro heq
        have hnone := h.nothing e.1 (heq ▸ List.prefix_append t rest) (Ne.symm hne)
        have hroot : e.1 ≠ [] := by simp [heq, h.target_ne]
        rw [at?_of_ne_nil _ hroot, Keyed.find?_eq_none_iff] at hnone
        exact absurd rfl (hnone e he)
      · intro heq
        exact absurd (heq ▸ List.prefix_append s rest) hin

theorem at?_source (h : FreeFor d s t) {q : Place} (hs : s <+: q) (ht : ¬ t <+: q) :
    (d.carry s t).at? q = none := by
  have hroot : q ≠ [] := by
    rintro rfl
    exact h.source_ne (List.prefix_nil.mp hs)
  rw [at?_of_ne_nil _ hroot, Keyed.find?_eq_none_iff]
  intro e he
  obtain ⟨⟨p, i⟩, _, rfl⟩ := List.mem_map.mp he
  show moved s t p ≠ q
  by_cases hin : s <+: p
  · obtain ⟨more, rfl⟩ := hin
    rw [moved_append]
    rintro rfl
    exact ht (List.prefix_append t more)
  · rw [moved_outside hin]
    rintro rfl
    exact hin hs

theorem at?_elsewhere {q : Place} (hs : ¬ s <+: q) (ht : ¬ t <+: q) :
    (d.carry s t).at? q = d.at? q := by
  by_cases hroot : q = []
  · rw [hroot]
    rfl
  · refine at?_carry hroot hroot ?_ fun e he hne => ?_
    · rintro rfl
      exact ht (List.prefix_refl q)
    · by_cases hin : s <+: e.1
      · obtain ⟨more, hmore⟩ := hin
        rw [← hmore, moved_append]
        constructor
        · intro heq
          exact absurd (heq ▸ List.prefix_append t more) ht
        · intro heq
          exact absurd (heq ▸ List.prefix_append s more) hs
      · rw [moved_outside hin]

/-- What is carried keeps its directories, and the target stands in one. -/
theorem isTree_carry (h : FreeFor d s t) (htree : d.IsTree)
    (hup : d.at? t.dropLast = some .directory) : (d.carry s t).IsTree := by
  intro q hq
  by_cases htq : t <+: q
  · obtain ⟨rest, rfl⟩ := htq
    by_cases hrest : rest = []
    · subst hrest
      rw [List.append_nil, at?_elsewhere ?_ ?_]
      · exact hup
      · exact fun hst => h.outside (hst.trans (List.dropLast_prefix t))
      · intro htt
        have hle := htt.length_le
        have hpos := List.length_pos_iff.mpr h.target_ne
        rw [List.length_dropLast] at hle
        omega
    · rw [h.at?_target] at hq
      have hdir := htree _ hq
      rw [List.dropLast_append_of_ne_nil hrest] at hdir ⊢
      rwa [h.at?_target]
  · have hsq : ¬ s <+: q := by
      intro hsq
      rw [h.at?_source hsq htq] at hq
      cases hq
    rw [at?_elsewhere hsq htq] at hq
    rw [at?_elsewhere ?_ ?_]
    · exact htree q hq
    · exact fun hst => hsq (hst.trans (List.dropLast_prefix q))
    · exact fun htt => htq (htt.trans (List.dropLast_prefix q))

theorem carried (h : FreeFor d s t) (htree : d.IsTree)
    (hup : d.at? t.dropLast = some .directory) : Carried d (d.carry s t) s t :=
  ⟨rfl, h.isTree_carry htree hup, h.at?_target, fun _ => h.at?_source, fun _ => at?_elsewhere⟩

end FreeFor

/-! ## §2. Moves that go well. -/

/-- When a move goes well, and where to. -/
theorem carry_of_move {d d' : Disk} {source target : Path} {s t : Place}
    (hs : d.place source = .ok s) (ht : d.place target = .ok t)
    (h : d.move source target = .ok d') (hne : s ≠ t) :
    d' = d.carry s t ∧ (d.at? s).isSome
      ∧ (d.at? s = some .directory → ¬ s <+: t)
      ∧ (d.at? t = some .directory → d.isUsed t = false) := by
  unfold move at h
  rw [hs, ht] at h
  simp only [bind, Except.bind] at h
  split at h
  next => cases h
  next => cases h
  next c other hfile hother =>
    -- a file takes the place of a file or of nothing
    rw [if_neg hne] at h
    cases h
    refine ⟨rfl, by rw [hfile]; rfl, ?_, fun hdir => absurd hdir hother⟩
    intro hdir
    rw [hfile] at hdir
    cases hdir
  next => cases h
  next hdir hother =>
    -- a directory takes the place of an empty one or of nothing, outside itself
    rw [if_neg hne] at h
    split at h
    next => cases h
    next hout =>
      split at h
      next => cases h
      next hfree =>
        cases h
        refine ⟨rfl, by rw [hdir]; rfl, fun _ => ?_, fun ht => ?_⟩
        · rwa [liesIn, List.isPrefixOf_iff_prefix] at hout
        · simpa [ht] using hfree

/-- Below a directory that is not used there is nothing. -/
theorem at?_eq_none_of_not_isUsed {d : Disk} {t q : Place} (h : d.isUsed t = false)
    (hq : t <+: q) (hne : t ≠ q) : d.at? q = none := by
  have hroot : q ≠ [] := by
    rintro rfl
    exact hne (List.prefix_nil.mp hq)
  rw [at?_of_ne_nil _ hroot, Keyed.find?_eq_none_iff]
  rintro e he rfl
  have hout := List.any_eq_false.mp h e he
  exact hout (by simpa [liesIn, Ne.symm hne] using hq)

/-- **A move carries** what stands at its source to its target, with all below it. -/
theorem move_carried {d d' : Disk} (htree : d.IsTree) {source target : Path} {s t : Place}
    (hs : d.place source = .ok s) (ht : d.place target = .ok t)
    (h : d.move source target = .ok d') (hne : s ≠ t)
    (hup : d.at? t.dropLast = some .directory) : Carried d d' s t := by
  obtain ⟨rfl, hsome, hinside, hunused⟩ := carry_of_move hs ht h hne
  have hnothing : ∀ q, t <+: q → t ≠ q → d.at? q = none := by
    intro q hq hne
    by_cases hdir : d.at? t = some .directory
    · exact at?_eq_none_of_not_isUsed (hunused hdir) hq hne
    · exact htree.below hdir hq hne
  have htarget : t ≠ [] := by
    rintro rfl
    rw [hnothing s List.nil_prefix (Ne.symm hne)] at hsome
    cases hsome
  -- were the target below a source that is a file, it would stand in no directory
  have hout : ¬ s <+: t := by
    intro hst
    refine hinside ?_ hst
    rw [← List.dropLast_append_getLast htarget] at hst
    rcases List.prefix_concat_iff.mp hst with heq | hst
    · exact absurd (heq.trans (List.dropLast_append_getLast htarget)) hne
    · by_cases heq : s = t.dropLast
      · rwa [heq]
      · exact htree.above (by rw [hup]; rfl) hst heq
  have hsource : s ≠ [] := by
    rintro rfl
    exact hout List.nil_prefix
  exact FreeFor.carried ⟨hsource, htarget, hout, hnothing⟩ htree hup

/-- A move onto a free place outside its source goes well. -/
theorem exists_move {d : Disk} {source target : Path} {s t : Place}
    (hs : d.place source = .ok s) (ht : d.place target = .ok t) (hsome : (d.at? s).isSome)
    (hfree : d.at? t = none) (hout : ¬ s <+: t) : ∃ d', d.move source target = .ok d' := by
  have hne : s ≠ t := by
    rintro rfl
    exact hout (List.prefix_refl s)
  have hliesIn : ¬ liesIn s t = true := by
    rwa [liesIn, List.isPrefixOf_iff_prefix]
  obtain ⟨i, hi⟩ := Option.isSome_iff_exists.mp hsome
  refine ⟨d.carry s t, ?_⟩
  unfold move
  rw [hs, ht]
  simp only [bind, Except.bind]
  rw [hi, hfree]
  cases i with
  | file c => exact if_neg hne
  | directory => exact (if_neg hne).trans ((if_neg hliesIn).trans rfl)

end ControlSurface.Disk
