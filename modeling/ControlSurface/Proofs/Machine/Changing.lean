/-
  ControlSurface.Proofs.Machine.Changing
  ──────────────────────────────────────
  What the operations of a disk change, and that all else stays.  Each operation has one lemma that
  says what stands at every place after it, and that a tree stays a tree.

  Main results:
    * `makeDirectories_built` — making directories only puts directories where nothing was, on the
      way to the one that is asked for, also where it fails half-way.
    * `Leads.makeDirectories_succeeds` — it goes well if no file stands in the way.
    * `write_eq_ok_iff`, `at?_set` — a written file takes the place of a file or of nothing.
    * `remove_eq_ok_iff`, `removeTree_eq_ok_iff`, `takenOut_without` — what is removed is gone.
-/
import ControlSurface.Proofs.Machine.Place

namespace ControlSurface.Disk

/-! ## §1. Putting and taking away. -/

theorem at?_set (d : Disk) {p : Place} (hp : p ≠ []) (i : Item) (q : Place) :
    (d.set p i).at? q = if q = p then some i else d.at? q := by
  by_cases hq : q = []
  · subst hq
    rw [if_neg (Ne.symm hp), at?_nil, at?_nil]
  · rw [at?_of_ne_nil _ hq, at?_of_ne_nil _ hq]
    exact Keyed.find?_put p q i d.entries

/-- Something new, or a file in the place of another, leaves a tree a tree. -/
theorem isTree_set {d : Disk} (htree : d.IsTree) {p : Place} (hp : p ≠ [])
    (hup : d.at? p.dropLast = some .directory) (hold : d.at? p ≠ some .directory) (i : Item) :
    (d.set p i).IsTree := by
  intro q hq
  have hparent : d.at? q.dropLast = some .directory := by
    by_cases hqp : q = p
    · rwa [hqp]
    · rw [at?_set d hp, if_neg hqp] at hq
      exact htree q hq
  rw [at?_set d hp, if_neg ?_]
  · exact hparent
  · intro hdrop
    exact hold (hdrop ▸ hparent)

/-- Only what is not gone stays. -/
theorem at?_without (d : Disk) {gone : Place → Bool} (hroot : gone [] = false) (q : Place) :
    (d.without gone).at? q = if gone q then none else d.at? q := by
  by_cases hq : q = []
  · subst hq
    rw [hroot]
    rfl
  · have hfilter := Keyed.find?_filter q (fun p => !gone p) d.entries
    rw [at?_of_ne_nil _ hq, at?_of_ne_nil _ hq]
    refine hfilter.trans ?_
    cases gone q with
    | true => rfl
    | false => rfl

/-- What lies below something that is gone must be gone too. -/
theorem isTree_without {d : Disk} (htree : d.IsTree) {gone : Place → Bool} (hroot : gone [] = false)
    (hbelow : ∀ q, (d.at? q).isSome → gone q.dropLast = true → gone q = true) :
    (d.without gone).IsTree := by
  intro q hq
  rw [at?_without d hroot] at hq ⊢
  cases hgone : gone q with
  | true =>
    rw [hgone, if_pos rfl] at hq
    cases hq
  | false =>
    rw [hgone, if_neg Bool.false_ne_true] at hq
    have hup : gone q.dropLast ≠ true := by
      intro hup
      rw [hbelow q hq hup] at hgone
      cases hgone
    rw [if_neg hup]
    exact htree q hq

/-! ## §2. Making directories. -/

/-- A disk after directories were made where nothing was, at some of the given places. -/
structure Built (d d' : Disk) (places : List Place) : Prop where
  here : d'.here = d.here
  tree : d'.IsTree
  change : ∀ q, d'.at? q = d.at? q
    ∨ (d.at? q = none ∧ d'.at? q = some .directory ∧ q ∈ places)

namespace Built

variable {d d' d'' : Disk} {ps : List Place}

theorem refl (htree : d.IsTree) : Built d d ps := ⟨rfl, htree, fun _ => Or.inl rfl⟩

theorem trans (h : Built d d' ps) (h' : Built d' d'' ps) : Built d d'' ps := by
  refine ⟨h'.here.trans h.here, h'.tree, fun q => ?_⟩
  rcases h.change q with hq | ⟨hnone, hdir, hmem⟩
  · rw [← hq]
    exact h'.change q
  · rcases h'.change q with hq' | ⟨hnone', _⟩
    · exact Or.inr ⟨hnone, hq'.trans hdir, hmem⟩
    · rw [hdir] at hnone'
      cases hnone'

/-- What was there is there. -/
theorem kept (h : Built d d' ps) {q : Place} {i : Item} (hq : d.at? q = some i) :
    d'.at? q = some i := by
  rcases h.change q with hsame | ⟨hnone, _⟩
  · rw [hsame, hq]
  · rw [hq] at hnone
    cases hnone

/-- Nothing is new but at the given places. -/
theorem unchanged (h : Built d d' ps) {q : Place} (hq : q ∈ ps → (d.at? q).isSome) :
    d'.at? q = d.at? q := by
  rcases h.change q with hsame | ⟨hnone, _, hmem⟩
  · exact hsame
  · have := hq hmem
    rw [hnone] at this
    cases this

/-- All files are as they were. -/
theorem content? (h : Built d d' ps) (q : Place) : d'.content? q = d.content? q := by
  rcases h.change q with hsame | ⟨hnone, hdir, _⟩
  · exact content?_congr hsame
  · rw [content?_of_directory hdir, content?_of_none hnone]

theorem leads (h : Built d d' ps) {p : Path} {q : Place} (hp : Leads d p q) : Leads d' p q :=
  hp.keep h.here fun w hw => h.kept (hp.directories w hw)

/-- Places where something stands already need not be named. -/
theorem restrict (h : Built d d' ps) {qs : List Place}
    (hqs : ∀ q ∈ ps, q ∈ qs ∨ (d.at? q).isSome) : Built d d' qs := by
  refine ⟨h.here, h.tree, fun q => ?_⟩
  rcases h.change q with hsame | ⟨hnone, hdir, hmem⟩
  · exact Or.inl hsame
  · rcases hqs q hmem with hq | hsome
    · exact Or.inr ⟨hnone, hdir, hq⟩
    · rw [hnone] at hsome
      cases hsome

end Built

/-- One more directory in a directory. -/
theorem built_set {d : Disk} (htree : d.IsTree) {p : Place} {name : String}
    (hdir : d.at? p = some .directory) (hnone : d.at? (step p name) = none) {ps : List Place}
    (hmem : step p name ∈ ps) : Built d (d.set (step p name) .directory) ps := by
  have hname : name ≠ ".." := by
    -- what two dots lead to is there, as the directory above another
    rintro rfl
    have hup := htree p (by rw [hdir]; rfl)
    have hstep : step p ".." = p.dropLast := if_pos rfl
    rw [hstep, hup] at hnone
    cases hnone
  rw [step_down hname] at hnone hmem ⊢
  refine ⟨rfl, isTree_set htree (by simp) ?_ (by rw [hnone]; exact fun h => nomatch h) _,
    fun q => ?_⟩
  · rwa [List.dropLast_concat]
  · rw [at?_set d (by simp)]
    by_cases hq : q = p ++ [name]
    · subst hq
      exact Or.inr ⟨hnone, if_pos rfl, hmem⟩
    · exact Or.inl (if_neg hq)

/-- What making a directory for the first of some names comes to: it fails, or the directory is
there, or it is made. -/
theorem makeBelow_cons (d : Disk) (p : Place) (name : String) (names : List String) :
    (∃ e, d.makeBelow p (name :: names) = (.error e, d))
      ∨ (d.at? p = some .directory ∧ (name = ".." ∨ name.utf8ByteSize ≤ longestName)
        ∧ ((d.at? (step p name) = some .directory
              ∧ d.makeBelow p (name :: names) = d.makeBelow (step p name) names)
          ∨ (d.at? (step p name) = none
              ∧ d.makeBelow p (name :: names)
                = (d.set (step p name) .directory).makeBelow (step p name) names))) := by
  rw [makeBelow]
  cases hname : d.enter p name with
  | error e => exact Or.inl ⟨e, rfl⟩
  | ok q =>
    obtain ⟨hdir, hfits, rfl⟩ := (enter_eq_ok_iff _).mp hname
    cases hq : d.at? (step p name) with
    | none => exact Or.inr ⟨hdir, hfits, Or.inr ⟨rfl, by simp only [hq]⟩⟩
    | some i =>
      cases i with
      | directory => exact Or.inr ⟨hdir, hfits, Or.inl ⟨rfl, by simp only [hq]⟩⟩
      | file c => exact Or.inl ⟨_, by simp only [hq]; rfl⟩

/-- Directories are made only where they are missing, on the way that names go. -/
theorem makeBelow_built {d : Disk} (htree : d.IsTree) (p : Place) (names : List String) :
    Built d (d.makeBelow p names).2 (way p names) := by
  induction names generalizing d p with
  | nil => exact Built.refl htree
  | cons name names ih =>
    -- the way of the rest is a part of the whole way
    have hsub : ∀ {d : Disk}, ∀ q ∈ way (step p name) names,
        q ∈ way p (name :: names) ∨ (d.at? q).isSome :=
      fun q hq => Or.inl (List.mem_cons_of_mem _ hq)
    rcases makeBelow_cons d p name names with
      ⟨e, heq⟩ | ⟨hdir, _, ⟨_, heq⟩ | ⟨hnone, heq⟩⟩
    · rw [heq]
      exact Built.refl htree
    · rw [heq]
      exact (ih htree (step p name)).restrict hsub
    · rw [heq]
      have hone : Built d (d.set (step p name) .directory) (way p (name :: names)) :=
        built_set htree hdir hnone (List.mem_cons_of_mem _ (start_mem_way _ _))
      exact hone.trans ((ih hone.tree (step p name)).restrict hsub)

/-- If all directories could be made, they are there, and no name was too long. -/
theorem makeBelow_ok {d : Disk} (htree : d.IsTree) {p : Place} {names : List String}
    (hdir : d.at? p = some .directory) (h : (d.makeBelow p names).1 = .ok ()) :
    (∀ w ∈ way p names, (d.makeBelow p names).2.at? w = some .directory)
      ∧ ∀ name ∈ names, name = ".." ∨ name.utf8ByteSize ≤ longestName := by
  induction names generalizing d p with
  | nil =>
    refine ⟨fun w hw => ?_, by simp⟩
    rw [List.mem_singleton.mp hw]
    exact hdir
  | cons name names ih =>
    have hkept := (makeBelow_built htree p (name :: names)).kept hdir
    rcases makeBelow_cons d p name names with
      ⟨e, heq⟩ | ⟨_, hfits, ⟨hthere, heq⟩ | ⟨hnone, heq⟩⟩
    · rw [heq] at h
      cases h
    · rw [heq] at h hkept ⊢
      obtain ⟨hway, hall⟩ := ih htree hthere h
      exact ⟨List.forall_mem_cons.mpr ⟨hkept, hway⟩, List.forall_mem_cons.mpr ⟨hfits, hall⟩⟩
    · have hone : Built d (d.set (step p name) .directory) [step p name] :=
        built_set htree hdir hnone (List.mem_singleton.mpr rfl)
      -- the root is there from the start, so what was missing is not the root
      have hroot : step p name ≠ [] := by
        intro hroot
        rw [hroot, at?_nil] at hnone
        cases hnone
      have hthere : (d.set (step p name) .directory).at? (step p name) = some .directory := by
        rw [at?_set d hroot, if_pos rfl]
      rw [heq] at h hkept ⊢
      obtain ⟨hway, hall⟩ := ih hone.tree hthere h
      exact ⟨List.forall_mem_cons.mpr ⟨hkept, hway⟩, List.forall_mem_cons.mpr ⟨hfits, hall⟩⟩

/-- Directories of plain names can be made if no file stands in the way. -/
theorem makeBelow_succeeds {d : Disk} (htree : d.IsTree) {p : Place} {names : List String}
    (hplain : ∀ name ∈ names, IsPlain name) (hdir : d.at? p = some .directory)
    (hfree : ∀ w ∈ way p names, ¬ d.HasFile w) : (d.makeBelow p names).1 = .ok () := by
  induction names generalizing d p with
  | nil => rfl
  | cons name names ih =>
    have hname := hplain name (List.mem_cons_self ..)
    have hrest : ∀ n ∈ names, IsPlain n := fun n hn => hplain n (List.mem_cons_of_mem _ hn)
    have hnext : step p name ∈ way p (name :: names) :=
      List.mem_cons_of_mem _ (start_mem_way _ _)
    rw [makeBelow, (enter_eq_ok_iff _).mpr ⟨hdir, Or.inr hname.fits, rfl⟩]
    dsimp only
    cases hat : d.at? (step p name) with
    | none =>
      -- the directory that is made brings no file into the way
      have hone : Built d (d.set (step p name) .directory) [step p name] :=
        built_set htree hdir hat (List.mem_singleton.mpr rfl)
      have hroot : step p name ≠ [] := by
        intro hroot
        rw [hroot, at?_nil] at hat
        cases hat
      apply ih hone.tree hrest
      · rw [at?_set d hroot, if_pos rfl]
      · rintro w hw ⟨c, hc⟩
        rcases hone.change w with hsame | ⟨_, hmade, _⟩
        · exact hfree w (List.mem_cons_of_mem _ hw) ⟨c, hsame ▸ hc⟩
        · rw [hmade] at hc
          cases hc
    | some i =>
      cases i with
      | directory => exact ih htree hrest hat fun w hw => hfree w (List.mem_cons_of_mem _ hw)
      | file c => exact absurd ⟨c, hat⟩ (hfree _ hnext)

/-- **Making directories** only puts directories where nothing was, on the way of the path. -/
theorem makeDirectories_built {d : Disk} (htree : d.IsTree) (p : Path) :
    Built d (d.makeDirectories p).2 (d.wayOf p) := by
  unfold makeDirectories
  cases hasNul p with
  | true => exact Built.refl htree
  | false => exact makeBelow_built htree (d.start p) p.names

/-- Where names already lead to a directory, no directory is missing. -/
theorem makeBelow_append {d : Disk} {p q : Place} {names more : List String}
    (h : names.foldlM d.enter p = .ok q) (hq : d.at? q = some .directory) :
    d.makeBelow p (names ++ more) = d.makeBelow q more := by
  induction names generalizing p with
  | nil =>
    cases h
    rfl
  | cons name names ih =>
    obtain ⟨hdir, hfits, h⟩ := (foldlM_enter_cons _).mp h
    have hnext : d.at? (step p name) = some .directory :=
      directory_of_mem_way h hq _ (start_mem_way _ _)
    rw [List.cons_append, makeBelow, (enter_eq_ok_iff _).mpr ⟨hdir, hfits, rfl⟩]
    simp only
    rw [hnext]
    exact ih h

/-- What names pass after others. -/
theorem mem_way_append {p q w : Place} {names more : List String} {d : Disk}
    (h : names.foldlM d.enter p = .ok q) (hw : w ∈ way p (names ++ more)) :
    w ∈ way p names ∨ w ∈ way q more := by
  induction names generalizing p with
  | nil =>
    cases h
    exact Or.inr hw
  | cons name names ih =>
    rcases List.mem_cons.mp hw with rfl | hw
    · exact Or.inl (List.mem_cons_self ..)
    · rcases ih ((foldlM_enter_cons _).mp h).2.2 hw with hw | hw
      · exact Or.inl (List.mem_cons_of_mem _ hw)
      · exact Or.inr hw

/-- What the first names pass, all of them pass. -/
theorem way_take_subset (p : Place) (names : List String) (n : Nat) :
    way p (names.take n) ⊆ way p names := by
  induction names generalizing p n with
  | nil => rw [List.take_nil]; exact fun w hw => hw
  | cons name names ih =>
    cases n with
    | zero =>
      intro w hw
      rw [List.mem_singleton.mp hw]
      exact start_mem_way _ _
    | succ n => exact List.cons_subset_cons _ (ih (step p name) n)

namespace Leads

variable {d d' : Disk} {p : Path} {q : Place}

/-- Directories below one that is there are made only below it. -/
theorem built_below (h : Leads d p q) {names : List String}
    (hb : Built d d' (d.wayOf (below p names))) : Built d d' (way q names) := by
  refine hb.restrict fun w hw => ?_
  have hmem : w ∈ d.wayOf p ∨ w ∈ way q names :=
    mem_way_append ((place_eq_ok_iff _).mp h.place).2 hw
  rcases hmem with hw | hw
  · exact Or.inr (by rw [h.directories w hw]; rfl)
  · exact Or.inl hw

/-- If all directories below one that is there could be made, their names are plain and they are
there. -/
theorem makeDirectories_ok (h : Leads d p q) (htree : d.IsTree) {names : List String}
    (hdown : ".." ∉ names) (hok : (d.makeDirectories (below p names)).1 = .ok ()) :
    (∀ name ∈ names, IsPlain name)
      ∧ ∀ w ∈ way q names, (d.makeDirectories (below p names)).2.at? w = some .directory := by
  have hplace := ((place_eq_ok_iff _).mp h.place).2
  unfold makeDirectories at hok ⊢
  cases hnul : hasNul (below p names) with
  | true =>
    rw [hnul, if_pos rfl] at hok
    cases hok
  | false =>
    rw [hnul, if_neg Bool.false_ne_true] at hok
    rw [if_neg Bool.false_ne_true]
    have hmake : d.makeBelow (d.start (below p names)) (below p names).names
        = d.makeBelow q names := makeBelow_append hplace h.directory
    rw [hmake] at hok ⊢
    obtain ⟨hway, hall⟩ := makeBelow_ok htree h.directory hok
    refine ⟨fun name hname => ⟨?_, ?_, ?_⟩, hway⟩
    · rintro rfl
      exact hdown hname
    · refine (hall name hname).resolve_left ?_
      rintro rfl
      exact hdown hname
    · -- no name of the whole path has the character that ends names
      have hnone := List.any_eq_false.mp hnul name (List.mem_append_right _ hname)
      exact Bool.eq_false_iff.mpr hnone

/-- Where a path leads to a directory, none is missing. -/
theorem makeDirectories_there (h : Leads d p q) : d.makeDirectories p = (.ok (), d) := by
  obtain ⟨hnul, hplace⟩ := (place_eq_ok_iff _).mp h.place
  have hnone : d.makeBelow (d.start p) (p.names ++ []) = d.makeBelow q [] :=
    makeBelow_append hplace h.directory
  rw [List.append_nil] at hnone
  unfold makeDirectories
  rw [hnul, if_neg Bool.false_ne_true, hnone]
  rfl

/-- **Directories of plain names can be made** below one that is there, if no file stands in the
way. -/
theorem makeDirectories_succeeds (h : Leads d p q) (htree : d.IsTree) {names : List String}
    (hplain : ∀ name ∈ names, IsPlain name) (hfree : ∀ w ∈ way q names, ¬ d.HasFile w) :
    (d.makeDirectories (below p names)).1 = .ok () := by
  obtain ⟨hnul, hplace⟩ := (place_eq_ok_iff _).mp h.place
  have hmake : d.makeBelow (d.start (below p names)) (below p names).names
      = d.makeBelow q names := makeBelow_append hplace h.directory
  unfold makeDirectories
  rw [hasNul_below hnul hplain, if_neg Bool.false_ne_true, hmake]
  exact makeBelow_succeeds htree hplain h.directory hfree

end Leads

/-! ## §3. Writing and removing. -/

theorem write_eq_ok_iff {d d' : Disk} {p : Path} {c : Content} :
    d.write p c = .ok d'
      ↔ ∃ q, d.place p = .ok q ∧ d.at? q ≠ some .directory ∧ d' = d.set q (.file c) := by
  unfold write
  cases d.place p with
  | error e => simp [bind, Except.bind]
  | ok q =>
    dsimp only [bind, Except.bind]
    cases hq : d.at? q with
    | none => simp [hq, eq_comm]
    | some i =>
      cases i with
      | directory => simp [hq]
      | file c' => simp [hq, eq_comm]

theorem remove_eq_ok_iff {d d' : Disk} {p : Path} :
    d.remove p = .ok d'
      ↔ ∃ q c, d.place p = .ok q ∧ d.at? q = some (.file c) ∧ d' = d.without (· == q) := by
  unfold remove
  cases d.place p with
  | error e => simp [bind, Except.bind]
  | ok q =>
    dsimp only [bind, Except.bind]
    cases hq : d.at? q with
    | none => simp [hq]
    | some i =>
      cases i with
      | directory => simp [hq]
      | file c' => simp [hq, eq_comm]

theorem removeTree_eq_ok_iff {d d' : Disk} {p : Path} :
    d.removeTree p = .ok d' ↔ ∃ q, Leads d p q ∧ d' = d.without (liesIn q) := by
  unfold removeTree
  cases hplace : d.place p with
  | error e =>
    constructor
    · intro h
      cases h
    · rintro ⟨q, hq, _⟩
      have := hq.place
      rw [hplace] at this
      cases this
  | ok q =>
    dsimp only [bind, Except.bind]
    have hleads : ∀ r, Leads d p r ↔ r = q ∧ d.at? q = some .directory := by
      intro r
      constructor
      · rintro ⟨hr, hdir⟩
        rw [hplace] at hr
        cases hr
        exact ⟨rfl, hdir⟩
      · rintro ⟨rfl, hdir⟩
        exact ⟨hplace, hdir⟩
    cases hq : d.at? q with
    | none => simp [hleads, hq]
    | some i =>
      cases i with
      | directory => simp [hleads, hq, eq_comm]
      | file c' => simp [hleads, hq]

/-- A disk after a file was taken out. -/
structure TakenOut (d d' : Disk) (p : Place) : Prop where
  here : d'.here = d.here
  tree : d'.IsTree
  file : d.HasFile p
  gone : d'.at? p = none
  elsewhere : ∀ q, q ≠ p → d'.at? q = d.at? q

/-- No directory is taken out with a file. -/
theorem TakenOut.directory {d d' : Disk} {p q : Place} (h : TakenOut d d' p)
    (hq : d.at? q = some .directory) : d'.at? q = some .directory := by
  rw [h.elsewhere q ?_, hq]
  rintro rfl
  obtain ⟨c, hfile⟩ := h.file
  rw [hfile] at hq
  cases hq

theorem TakenOut.leads {d d' : Disk} {p q : Place} {path : Path} (h : TakenOut d d' p)
    (hpath : Leads d path q) : Leads d' path q :=
  hpath.keep h.here fun w hw => h.directory (hpath.directories w hw)

/-- **A file can be taken out**: nothing lies in it. -/
theorem takenOut_without {d : Disk} (htree : d.IsTree) {p : Place} (hp : p ≠ [])
    (hfile : d.HasFile p) : TakenOut d (d.without (· == p)) p := by
  have hroot : ([] == p) = false := by simpa using hp
  have hat : ∀ q, (d.without (· == p)).at? q = if q == p then none else d.at? q :=
    d.at?_without hroot
  refine ⟨rfl, isTree_without htree hroot fun q hq hup => ?_, hfile, ?_, fun q hne => ?_⟩
  · obtain ⟨c, hfile⟩ := hfile
    have hdir := htree q hq
    rw [eq_of_beq hup, hfile] at hdir
    cases hdir
  · exact (hat p).trans (if_pos (beq_self_eq_true p))
  · exact (hat q).trans (if_neg fun heq => hne (eq_of_beq heq))

end ControlSurface.Disk
