/-
  ControlSurface.Proofs.Check.Gate
  ────────────────────────────────
  The checks as a gate: what they let through and what they report of the rest.  `InName` and
  `InParent` say what is wrong with one element among the others without looking anything up;
  `checkFrom_cons` opens one step of the checks, and everything else goes along the list with it.

  Main results:
    * `check_ok_iff` — the checks come to an end exactly when every field they read can be read.
    * `gate_exact` — elements pass iff they have names, no two the same identifier, and no parent
      is missing; the errors are one for each name and each parent that is wrong, in order; and
      nothing that only warnings read has a part in it.
-/
import ControlSurface.Check
import ControlSurface.Proofs.Fault.Outcome

namespace ControlSurface

open ControlSurface.Outcome

/-! ## §1. Names. -/

namespace Element

/-- The text of a name; nothing where it is none. -/
def nameText (e : Element) : String := e.name.string.toOption.getD ""

/-- Whether a name is given: a text with a character that is not white space. -/
def HasName (e : Element) : Prop := ∃ c ∈ e.nameText.toList, Text.isBlank c = false

/-- The name of an element as an identifier. -/
def handle (e : Element) : String := Name.normalize e.nameText

theorem nameText_eq {e : Element} {s : String} (h : e.name.string = .ok s) : e.nameText = s := by
  rw [nameText, h]
  rfl

theorem domId_eq {e : Element} {s : String} (h : e.name.string = .ok s) :
    e.domId = .ok e.handle := by
  rw [handle, nameText_eq h, domId, h]
  rfl

/-- A name that is no text is not given. -/
theorem string_of_hasName {e : Element} (h : e.HasName) : ∃ s, e.name.string = .ok s := by
  obtain ⟨c, hc, _⟩ := h
  rw [nameText] at hc
  cases hname : e.name.string with
  | ok s => exact ⟨s, rfl⟩
  | error f =>
    rw [hname] at hc
    exact absurd hc List.not_mem_nil

end Element

namespace Check

open Element

theorem isNamed_eq_true_iff {e : Element} : isNamed e = .ok true ↔ e.HasName := by
  rw [isNamed, bind_eq_ok_iff]
  constructor
  · rintro ⟨s, hs, hnot⟩
    have hblank : Text.isBlankString s = false := by simpa using Except.ok.inj hnot
    rw [HasName, nameText_eq hs]
    simpa [Text.isBlankString, Text.allBlank] using hblank
  · intro h
    obtain ⟨s, hs⟩ := string_of_hasName h
    rw [HasName, nameText_eq hs] at h
    refine ⟨s, hs, congrArg Except.ok ?_⟩
    simpa [Text.isBlankString, Text.allBlank] using h

/-- The element that is looked up for an identifier has a name that normalizes to it. -/
theorem holds_iff {f : Element} {domId : String} :
    (match isNamed f, f.domId with
      | .ok true, .ok d => d == domId
      | _, _ => false) = true ↔ f.HasName ∧ f.handle = domId := by
  constructor
  · intro h
    split at h
    next hnamed hdomId =>
      have hname := isNamed_eq_true_iff.mp hnamed
      obtain ⟨s, hs⟩ := string_of_hasName hname
      have hhandle := Except.ok.inj ((domId_eq hs).symm.trans hdomId)
      exact ⟨hname, hhandle.trans (beq_iff_eq.mp h)⟩
    next => cases h
  · rintro ⟨hname, rfl⟩
    obtain ⟨s, hs⟩ := string_of_hasName hname
    rw [isNamed_eq_true_iff.mpr hname, domId_eq hs]
    exact beq_self_eq_true _

theorem holder?_eq_none_iff {before : List Element} {domId : String} :
    holder? before domId = none ↔ ∀ f ∈ before, f.HasName → f.handle ≠ domId := by
  rw [holder?, List.find?_eq_none]
  exact forall₂_congr fun f _ => (not_congr holds_iff).trans not_and

/-- The holder of an identifier is the first element with a name that normalizes to it. -/
theorem holder?_eq_some_iff {before : List Element} {domId : String} {first : Element} :
    holder? before domId = some first ↔ first.HasName ∧ first.handle = domId
      ∧ ∃ early late, before = early ++ first :: late
        ∧ ∀ f ∈ early, f.HasName → f.handle ≠ domId := by
  rw [holder?, List.find?_eq_some_iff_append, ← and_assoc]
  refine and_congr holds_iff (exists₂_congr fun early late => ?_)
  refine and_congr_right fun _ => forall₂_congr fun f _ => ?_
  rw [Bool.not_eq_true', ← Bool.not_eq_true]
  exact (not_congr holds_iff).trans not_and

/-! ## §2. What is wrong with one element. -/

/-- What is wrong with the name of an element that follows others. -/
inductive InName (before : List Element) (e : Element) : List Finding → Prop
  /-- The name is not given. -/
  | blank (hname : ¬ e.HasName) : InName before e
      [⟨e.id, e.name.orElse (.text unnamed), "name", "Element name is required for ID generation"⟩]
  /-- Some named element before has the same identifier; the first one is told. -/
  | taken (early late : List Element) (first : Element) (hname : e.HasName)
      (hsplit : before = early ++ first :: late) (hfirst : first.HasName)
      (hsame : first.handle = e.handle) (hearly : ∀ f ∈ early, f.HasName → f.handle ≠ e.handle) :
      InName before e [⟨e.id, e.name, "name",
        s!"Duplicate element name '{e.name.toText}' collides with '{first.name.toText}' "
          ++ s!"(id {first.id.toText}) as '#{e.handle}' - IDs must be unique"⟩]
  /-- Nothing. -/
  | free (hname : e.HasName) (hbefore : ∀ f ∈ before, f.HasName → f.handle ≠ e.handle) :
      InName before e []

/-- What is wrong with the parent of an element among all elements. -/
inductive InParent (all : List Element) (e : Element) : List Finding → Prop
  /-- The parent is missing. -/
  | dangling (hparent : e.hasParent = true) (hnone : ∀ p ∈ all, p.id.same e.parentId = false) :
      InParent all e [⟨e.id, e.name, "parent_id",
        s!"Parent '{e.parentId.toText}' does not exist in this window"⟩]
  /-- Nothing. -/
  | fine (h : e.hasParent = true → ∃ p ∈ all, p.id.same e.parentId = true) : InParent all e []

theorem InName.eq_nil_iff {before : List Element} {e : Element} {found : List Finding}
    (h : InName before e found) :
    found = [] ↔ e.HasName ∧ ∀ f ∈ before, f.HasName → f.handle ≠ e.handle := by
  cases h with
  | blank hname => exact iff_of_false (List.cons_ne_nil _ _) fun h => hname h.1
  | taken early late first hname hsplit hfirst hsame =>
    refine iff_of_false (List.cons_ne_nil _ _) fun h => h.2 first ?_ hfirst hsame
    rw [hsplit]
    exact List.mem_append_right _ (List.mem_cons_self ..)
  | free hname hbefore => exact iff_of_true rfl ⟨hname, hbefore⟩

theorem InParent.eq_nil_iff {all : List Element} {e : Element} {found : List Finding}
    (h : InParent all e found) :
    found = [] ↔ (e.hasParent = true → ∃ p ∈ all, p.id.same e.parentId = true) := by
  cases h with
  | dangling hparent hnone =>
    refine iff_of_false (List.cons_ne_nil _ _) fun h => ?_
    obtain ⟨p, hp, hsame⟩ := h hparent
    exact absurd hsame (Bool.eq_false_iff.mp (hnone p hp))
  | fine h => exact iff_of_true rfl h

/-- The check of a name finds what is wrong with it. -/
theorem inName_of_nameErrors {before : List Element} {e : Element} {found : List Finding}
    (h : nameErrors before e = .ok found) : InName before e found := by
  obtain ⟨named, hnamed, h⟩ := (bind_eq_ok_iff _ _ _).mp h
  cases named with
  | false =>
    cases h
    refine .blank fun hname => ?_
    cases hnamed.symm.trans (isNamed_eq_true_iff.mpr hname)
  | true =>
    have hname := isNamed_eq_true_iff.mp hnamed
    obtain ⟨s, hs⟩ := string_of_hasName hname
    simp only [Bool.not_true, Bool.false_eq_true, if_false, domId_eq hs, ok_bind] at h
    split at h
    next hnone =>
      cases h
      exact .free hname (holder?_eq_none_iff.mp hnone)
    next first hsome =>
      cases h
      obtain ⟨hfirst, hsame, early, late, hsplit, hearly⟩ := holder?_eq_some_iff.mp hsome
      exact .taken early late first hname hsplit hfirst hsame hearly

/-- The check of a parent finds what is wrong with it. -/
theorem inParent_of_parentErrors {all : List Element} {e : Element} {found : List Finding}
    (h : parentErrors all e = .ok found) : InParent all e found := by
  rw [parentErrors] at h
  cases hparent : e.hasParent with
  | false =>
    rw [hparent] at h
    cases h
    exact .fine fun h => absurd h (by simp [hparent])
  | true =>
    rw [hparent] at h
    cases hkey : e.parentId.isKey with
    | false =>
      rw [hkey] at h
      cases h
    | true =>
      simp only [hkey, Bool.not_true, Bool.false_eq_true, if_false] at h
      split at h
      next hany =>
        cases h
        exact .fine fun _ => List.any_eq_true.mp hany
      next hnone =>
        cases h
        exact .dangling hparent (by simpa using hnone)

/-! ## §3. When there is a report. -/

/-- What the checks must be able to read of an element: an identity and a parent that can be looked
up, a name and a parameter that are texts, a size in numbers (the height only where the width is
more than zero), and the target of a button that opens a window. -/
structure Checkable (windows : Option (List String)) (e : Element) : Prop where
  id : e.id.isKey = true
  name : ∃ s, e.name.string = .ok s
  parent : e.hasParent = true → e.parentId.isKey = true
  parameter : e.kind.bindable = true → ∃ s, e.string "parameter_id" = .ok s
  size : ∃ flat, isFlat (e.get "width") = .ok flat
    ∧ (flat = false → ∃ low, isFlat (e.get "height") = .ok low)
  target : ∀ ids, windows = some ids → opensWindow e = true →
    (e.get "target_window_id").isKey = true

theorem exists_nameErrors_iff (before : List Element) {e : Element} :
    (∃ found, nameErrors before e = .ok found) ↔ ∃ s, e.name.string = .ok s := by
  constructor
  · rintro ⟨found, h⟩
    obtain ⟨named, hnamed, _⟩ := (bind_eq_ok_iff _ _ _).mp h
    obtain ⟨s, hs, _⟩ := (bind_eq_ok_iff _ _ _).mp hnamed
    exact ⟨s, hs⟩
  · rintro ⟨s, hs⟩
    have hnamed : isNamed e = .ok (!Text.isBlankString s) := by
      rw [isNamed, hs]
      rfl
    rw [nameErrors, hnamed, domId_eq hs, ok_bind, ok_bind]
    split
    next => exact ⟨_, rfl⟩
    next => split <;> exact ⟨_, rfl⟩

theorem exists_parentErrors_iff (all : List Element) {e : Element} :
    (∃ found, parentErrors all e = .ok found)
      ↔ (e.hasParent = true → e.parentId.isKey = true) := by
  rw [parentErrors]
  cases hparent : e.hasParent with
  | false => exact iff_of_true ⟨_, rfl⟩ (by simp)
  | true =>
    cases hkey : e.parentId.isKey with
    | false => exact iff_of_false (fun ⟨_, h⟩ => by cases h) (by simp)
    | true =>
      refine iff_of_true ?_ (by simp)
      simp only [Bool.not_true, Bool.false_eq_true, if_false]
      split <;> exact ⟨_, rfl⟩

theorem exists_parameterWarnings_iff {e : Element} :
    (∃ found, parameterWarnings e = .ok found)
      ↔ (e.kind.bindable = true → ∃ s, e.string "parameter_id" = .ok s) := by
  rw [parameterWarnings]
  cases e.kind.bindable with
  | false => exact iff_of_true ⟨_, rfl⟩ (by simp)
  | true =>
    constructor
    · rintro ⟨found, h⟩ _
      obtain ⟨s, hs, _⟩ := (bind_eq_ok_iff _ _ _).mp h
      exact ⟨s, hs⟩
    · intro h
      obtain ⟨s, hs⟩ := h rfl
      rw [hs]
      simp only [Bool.not_true, Bool.false_eq_true, if_false, ok_bind]
      split <;> exact ⟨_, rfl⟩

theorem exists_sizeWarnings_iff {e : Element} :
    (∃ found, sizeWarnings e = .ok found)
      ↔ ∃ flat, isFlat (e.get "width") = .ok flat
        ∧ (flat = false → ∃ low, isFlat (e.get "height") = .ok low) := by
  constructor
  · rintro ⟨found, h⟩
    obtain ⟨flat, hflat, h⟩ := (bind_eq_ok_iff _ _ _).mp h
    refine ⟨flat, hflat, ?_⟩
    rintro rfl
    obtain ⟨low, hlow, _⟩ := (bind_eq_ok_iff _ _ _).mp h
    exact ⟨low, hlow⟩
  · rintro ⟨flat, hflat, hheight⟩
    rw [sizeWarnings, hflat, ok_bind]
    cases flat with
    | true => exact ⟨_, rfl⟩
    | false =>
      obtain ⟨low, hlow⟩ := hheight rfl
      rw [hlow]
      cases low <;> exact ⟨_, rfl⟩

theorem exists_targetWarnings_iff {windows : Option (List String)} {e : Element} :
    (∃ found, targetWarnings windows e = .ok found)
      ↔ ∀ ids, windows = some ids → opensWindow e = true →
        (e.get "target_window_id").isKey = true := by
  cases windows with
  | none => exact iff_of_true ⟨_, rfl⟩ (by simp)
  | some ids =>
    simp only [targetWarnings]
    cases opensWindow e with
    | false => exact iff_of_true ⟨_, rfl⟩ (by simp)
    | true =>
      cases hkey : (e.get "target_window_id").isKey with
      | false => exact iff_of_false (fun ⟨_, h⟩ => by cases h) (by simp)
      | true =>
        refine iff_of_true ?_ (by simp)
        simp only [Bool.not_true, Bool.false_eq_true, if_false]
        split <;> exact ⟨_, rfl⟩

/-- One element is checked iff the five checks read what they need. -/
theorem exists_checkElement_iff {windows : Option (List String)} (all before : List Element)
    {e : Element} (hid : e.id.isKey = true) :
    (∃ r, checkElement windows all before e = .ok r) ↔ Checkable windows e := by
  constructor
  · rintro ⟨r, h⟩
    obtain ⟨names, hnames, h⟩ := (bind_eq_ok_iff _ _ _).mp h
    obtain ⟨parents, hparents, h⟩ := (bind_eq_ok_iff _ _ _).mp h
    obtain ⟨parameters, hparameters, h⟩ := (bind_eq_ok_iff _ _ _).mp h
    obtain ⟨sizes, hsizes, h⟩ := (bind_eq_ok_iff _ _ _).mp h
    obtain ⟨targets, htargets, _⟩ := (bind_eq_ok_iff _ _ _).mp h
    exact ⟨hid, (exists_nameErrors_iff _).mp ⟨_, hnames⟩, (exists_parentErrors_iff _).mp ⟨_, hparents⟩,
      exists_parameterWarnings_iff.mp ⟨_, hparameters⟩, exists_sizeWarnings_iff.mp ⟨_, hsizes⟩,
      exists_targetWarnings_iff.mp ⟨_, htargets⟩⟩
  · rintro ⟨_, hname, hparent, hparameter, hsize, htarget⟩
    obtain ⟨names, hnames⟩ := (exists_nameErrors_iff before).mpr hname
    obtain ⟨parents, hparents⟩ := (exists_parentErrors_iff all).mpr hparent
    obtain ⟨parameters, hparameters⟩ := exists_parameterWarnings_iff.mpr hparameter
    obtain ⟨sizes, hsizes⟩ := exists_sizeWarnings_iff.mpr hsize
    obtain ⟨targets, htargets⟩ := exists_targetWarnings_iff.mpr htarget
    rw [checkElement, hnames, hparents, hparameters, hsizes, htargets]
    exact ⟨_, rfl⟩

theorem exists_checkFrom_iff {windows : Option (List String)} {all elements : List Element}
    (before : List Element) (hids : ∀ e ∈ elements, e.id.isKey = true) :
    (∃ r, checkFrom windows all before elements = .ok r)
      ↔ ∀ e ∈ elements, Checkable windows e := by
  induction elements generalizing before with
  | nil => exact iff_of_true ⟨_, rfl⟩ (by simp)
  | cons e rest ih =>
    obtain ⟨hid, hids⟩ := List.forall_mem_cons.mp hids
    rw [List.forall_mem_cons, ← exists_checkElement_iff all before hid, ← ih (before ++ [e]) hids]
    constructor
    · rintro ⟨r, h⟩
      obtain ⟨first, hfirst, h⟩ := (bind_eq_ok_iff _ _ _).mp h
      obtain ⟨others, hothers, _⟩ := (bind_eq_ok_iff _ _ _).mp h
      exact ⟨⟨first, hfirst⟩, others, hothers⟩
    · rintro ⟨⟨first, hfirst⟩, others, hothers⟩
      rw [checkFrom, hfirst, ok_bind, hothers]
      exact ⟨_, rfl⟩

/-- **There is a report iff every field that the checks read can be read.** -/
theorem check_ok_iff {windows : Option (List String)} {elements : List Element} :
    (∃ r, check windows elements = .ok r) ↔ ∀ e ∈ elements, Checkable windows e := by
  rw [check]
  split
  next hids => exact exists_checkFrom_iff [] (List.all_eq_true.mp hids)
  next hids =>
    refine iff_of_false (fun ⟨_, h⟩ => by cases h) fun h => hids ?_
    exact List.all_eq_true.mpr fun e he => (h e he).id

/-! ## §4. What is in a report. -/

/-- One step of the checks: what is found in an element comes before what is found in those after
it. -/
theorem checkFrom_cons {windows : Option (List String)} {all before rest : List Element}
    {e : Element} {r : Report} (h : checkFrom windows all before (e :: rest) = .ok r) :
    ∃ names parents parameters sizes targets others,
      nameErrors before e = .ok names ∧ parentErrors all e = .ok parents
      ∧ parameterWarnings e = .ok parameters ∧ sizeWarnings e = .ok sizes
      ∧ targetWarnings windows e = .ok targets
      ∧ checkFrom windows all (before ++ [e]) rest = .ok others
      ∧ r = ⟨names ++ parents ++ others.errors, parameters ++ sizes ++ targets ++ others.warnings⟩ := by
  obtain ⟨first, hfirst, h⟩ := (bind_eq_ok_iff _ _ _).mp h
  obtain ⟨others, hothers, h⟩ := (bind_eq_ok_iff _ _ _).mp h
  obtain ⟨names, hnames, hfirst⟩ := (bind_eq_ok_iff _ _ _).mp hfirst
  obtain ⟨parents, hparents, hfirst⟩ := (bind_eq_ok_iff _ _ _).mp hfirst
  obtain ⟨parameters, hparameters, hfirst⟩ := (bind_eq_ok_iff _ _ _).mp hfirst
  obtain ⟨sizes, hsizes, hfirst⟩ := (bind_eq_ok_iff _ _ _).mp hfirst
  obtain ⟨targets, htargets, hfirst⟩ := (bind_eq_ok_iff _ _ _).mp hfirst
  cases hfirst
  cases h
  exact ⟨names, parents, parameters, sizes, targets, others, hnames, hparents, hparameters, hsizes,
    htargets, hothers, rfl⟩

theorem checkFrom_of_check {windows : Option (List String)} {elements : List Element} {r : Report}
    (h : check windows elements = .ok r) : checkFrom windows elements [] elements = .ok r := by
  rw [check] at h
  split at h
  next => exact h
  next => cases h

/-- Errors as found in elements that follow others: for each element, in order, what is wrong with
its name and then with its parent. -/
def InOrder (all before elements : List Element) (errors : List Finding) : Prop :=
  ∃ found : List (List Finding × List Finding), found.length = elements.length
    ∧ errors = found.flatMap (fun f => f.1 ++ f.2)
    ∧ ∀ earlier e later, elements = earlier ++ e :: later →
      ∃ names parents, found[earlier.length]? = some (names, parents)
        ∧ InName (before ++ earlier) e names ∧ InParent all e parents

theorem inOrder_of_checkFrom {windows : Option (List String)} {all before elements : List Element}
    {r : Report} (h : checkFrom windows all before elements = .ok r) :
    InOrder all before elements r.errors := by
  induction elements generalizing before r with
  | nil =>
    cases h
    exact ⟨[], rfl, rfl, fun earlier e later h => by simp at h⟩
  | cons e rest ih =>
    obtain ⟨names, parents, _, _, _, others, hnames, hparents, _, _, _, hothers, rfl⟩ :=
      checkFrom_cons h
    obtain ⟨found, hlength, hfound, hat⟩ := ih hothers
    refine ⟨(names, parents) :: found, congrArg (· + 1) hlength, ?_, ?_⟩
    · rw [hfound, List.flatMap_cons]
    · intro earlier f later hsplit
      cases earlier with
      | nil =>
        cases hsplit
        rw [List.append_nil]
        exact ⟨names, parents, rfl, inName_of_nameErrors hnames, inParent_of_parentErrors hparents⟩
      | cons _ earlier =>
        cases hsplit
        rw [List.append_cons]
        exact hat earlier f later rfl

/-- Nothing is wrong with elements that follow others iff each has a name and its parent, and an
identifier that no named element before has. -/
theorem errors_eq_nil_iff {windows : Option (List String)} {all before elements : List Element}
    {r : Report} (h : checkFrom windows all before elements = .ok r) :
    r.errors = [] ↔
      (∀ e ∈ elements, e.HasName) ∧ (elements.map handle).Nodup
        ∧ (∀ e ∈ elements, ∀ f ∈ before, f.HasName → f.handle ≠ e.handle)
        ∧ ∀ e ∈ elements, e.hasParent = true → ∃ p ∈ all, p.id.same e.parentId = true := by
  induction elements generalizing before r with
  | nil =>
    cases h
    simp
  | cons e rest ih =>
    obtain ⟨names, parents, _, _, _, others, hnames, hparents, _, _, _, hothers, rfl⟩ :=
      checkFrom_cons h
    rw [List.append_eq_nil_iff, List.append_eq_nil_iff, ih hothers,
      (inName_of_nameErrors hnames).eq_nil_iff, (inParent_of_parentErrors hparents).eq_nil_iff,
      List.map_cons, List.nodup_cons, List.forall_mem_cons, List.forall_mem_cons,
      List.forall_mem_cons]
    constructor
    · rintro ⟨⟨⟨hname, hbefore⟩, hparent⟩, hnamed, hnodup, hapart, hrest⟩
      refine ⟨⟨hname, hnamed⟩, ⟨fun hmem => ?_, hnodup⟩,
        ⟨hbefore, fun k hk f hf => hapart k hk f (List.mem_append_left _ hf)⟩, hparent, hrest⟩
      obtain ⟨k, hk, hsame⟩ := List.mem_map.mp hmem
      exact hapart k hk e (by simp) hname hsame.symm
    · rintro ⟨⟨hname, hnamed⟩, ⟨hnew, hnodup⟩, ⟨hbefore, hapart⟩, hparent, hrest⟩
      refine ⟨⟨⟨hname, hbefore⟩, hparent⟩, hnamed, hnodup, fun k hk f hf => ?_, hrest⟩
      rcases List.mem_append.mp hf with hf | hf
      · exact hapart k hk f hf
      · cases List.mem_singleton.mp hf
        exact fun _ hsame => hnew (List.mem_map.mpr ⟨k, hk, hsame.symm⟩)

/-! ## §5. What has no part in the errors. -/

/-- What the errors see of an element: its identity, its name and its parent. -/
def seen (e : Element) : Value × Value × Value := (e.id, e.name, e.parentId)

theorem seen_eq_iff {e f : Element} :
    seen e = seen f ↔ e.id = f.id ∧ e.name = f.name ∧ e.parentId = f.parentId := by
  rw [seen, seen, Prod.mk.injEq, Prod.mk.injEq]

theorem handle_of_seen {e f : Element} (h : seen e = seen f) : e.handle = f.handle := by
  rw [handle, handle, nameText, nameText, (seen_eq_iff.mp h).2.1]

theorem hasName_of_seen {e f : Element} (h : seen e = seen f) : e.HasName ↔ f.HasName := by
  rw [HasName, HasName, nameText, nameText, (seen_eq_iff.mp h).2.1]

/-- No identifier is taken among elements that look like others among which it is not. -/
theorem apart_of_seen {before others : List Element} (hall : before.map seen = others.map seen)
    {domId : String} (h : ∀ k ∈ before, k.HasName → k.handle ≠ domId) :
    ∀ k ∈ others, k.HasName → k.handle ≠ domId := by
  intro k hk hname
  obtain ⟨j, hj, hseen⟩ := List.mem_map.mp (hall ▸ List.mem_map_of_mem hk)
  rw [← handle_of_seen hseen]
  exact h j hj ((hasName_of_seen hseen).mpr hname)

/-- The same is wrong with names that look the same among elements that look the same. -/
theorem InName.of_seen {before others : List Element} {e f : Element} {found : List Finding}
    (h : InName before e found) (hall : before.map seen = others.map seen)
    (he : seen e = seen f) : InName others f found := by
  obtain ⟨hid, hsame, _⟩ := seen_eq_iff.mp he
  cases h with
  | blank hname =>
    rw [hid, hsame]
    exact .blank (mt (hasName_of_seen he).mpr hname)
  | taken early late first hname hsplit hfirst hholds hearly =>
    rw [hsplit, eq_comm, List.map_append, List.map_cons] at hall
    obtain ⟨early', rest, rfl, hearly', hrest⟩ := List.map_eq_append_iff.mp hall
    obtain ⟨first', late', rfl, hfirst', _⟩ := List.map_eq_cons_iff.mp hrest
    obtain ⟨hfirstId, hfirstName, _⟩ := seen_eq_iff.mp hfirst'
    rw [handle_of_seen he] at hholds hearly
    rw [hid, hsame, ← hfirstId, ← hfirstName, handle_of_seen he]
    exact .taken early' late' first' ((hasName_of_seen he).mp hname) rfl
      ((hasName_of_seen hfirst').mpr hfirst) ((handle_of_seen hfirst').trans hholds)
      (apart_of_seen hearly'.symm hearly)
  | free hname hbefore =>
    rw [handle_of_seen he] at hbefore
    exact .free ((hasName_of_seen he).mp hname) (apart_of_seen hall hbefore)

/-- What is wrong with a name is one thing only. -/
theorem InName.unique {before : List Element} {e : Element} {found others : List Finding}
    (h : InName before e found) (h' : InName before e others) : found = others := by
  cases h with
  | blank hname =>
    cases h' with
    | blank => rfl
    | taken _ _ _ hname' => exact absurd hname' hname
    | free hname' => exact absurd hname' hname
  | taken early late first hname hsplit hfirst hsame hearly =>
    have hholder := holder?_eq_some_iff.mpr ⟨hfirst, hsame, early, late, hsplit, hearly⟩
    cases h' with
    | blank hname' => exact absurd hname hname'
    | taken early' late' first' _ hsplit' hfirst' hsame' hearly' =>
      have hholder' := holder?_eq_some_iff.mpr ⟨hfirst', hsame', early', late', hsplit', hearly'⟩
      cases hholder.symm.trans hholder'
      rfl
    | free _ hbefore => cases hholder.symm.trans (holder?_eq_none_iff.mpr hbefore)
  | free hname hbefore =>
    cases h' with
    | blank hname' => exact absurd hname hname'
    | taken early late first _ hsplit hfirst hsame hearly =>
      have hholder := holder?_eq_some_iff.mpr ⟨hfirst, hsame, early, late, hsplit, hearly⟩
      cases hholder.symm.trans (holder?_eq_none_iff.mpr hbefore)
    | free => rfl

/-- Whether a parent is there is the same among elements that look the same. -/
theorem any_id_of_seen {all others : List Element} (hall : all.map seen = others.map seen)
    (v : Value) : (all.any fun p => p.id.same v) = others.any fun p => p.id.same v := by
  have hany : ∀ xs : List Element,
      (xs.any fun p => p.id.same v) = (xs.map seen).any fun t => t.1.same v := by
    intro xs
    rw [List.any_map]
    rfl
  rw [hany, hany, hall]

/-- The same is reported of parents that look the same among elements that look the same. -/
theorem parentErrors_of_seen {all others : List Element} {e f : Element}
    (hall : all.map seen = others.map seen) (he : seen e = seen f) :
    parentErrors all e = parentErrors others f := by
  obtain ⟨hid, hname, hparent⟩ := seen_eq_iff.mp he
  rw [parentErrors, parentErrors, any_id_of_seen hall, Element.hasParent, Element.hasParent, hid,
    hname, hparent]

/-- Elements that look the same have the same errors, whatever windows are known. -/
theorem errors_of_seen {windows windows' : Option (List String)}
    {all all' before before' elements elements' : List Element} {r r' : Report}
    (hall : all.map seen = all'.map seen) (hbefore : before.map seen = before'.map seen)
    (helements : elements.map seen = elements'.map seen)
    (h : checkFrom windows all before elements = .ok r)
    (h' : checkFrom windows' all' before' elements' = .ok r') : r.errors = r'.errors := by
  induction elements generalizing before before' elements' r r' with
  | nil =>
    cases List.map_eq_nil_iff.mp helements.symm
    cases h
    cases h'
    rfl
  | cons e rest ih =>
    obtain ⟨f, rest', rfl, hf, hrest⟩ := List.map_eq_cons_iff.mp helements.symm
    obtain ⟨names, parents, _, _, _, others, hnames, hparents, _, _, _, hothers, rfl⟩ :=
      checkFrom_cons h
    obtain ⟨names', parents', _, _, _, others', hnames', hparents', _, _, _, hothers', rfl⟩ :=
      checkFrom_cons h'
    have hsameNames : names = names' :=
      ((inName_of_nameErrors hnames).of_seen hbefore hf.symm).unique
        (inName_of_nameErrors hnames')
    rw [parentErrors_of_seen hall hf.symm] at hparents
    cases hparents.symm.trans hparents'
    have hthen : (before ++ [e]).map seen = (before' ++ [f]).map seen := by
      rw [List.map_append, List.map_append, hbefore, List.map_singleton, List.map_singleton, hf]
    rw [hsameNames, ih hthen hrest.symm hothers hothers']

/-! ## §6. The gate. -/

/-- Elements whose fields have their declared types, as far as the checks read them. -/
structure Declared (e : Element) : Prop where
  id : ∃ s, e.id = .text s
  name : ∃ s, e.name = .text s
  parentId : e.parentId = .null ∨ ∃ s, e.parentId = .text s
  parameterId : e.get "parameter_id" = .null ∨ ∃ s, e.get "parameter_id" = .text s
  width : ∃ n, (e.get "width").num = .ok n
  height : ∃ n, (e.get "height").num = .ok n
  target : e.get "target_window_id" = .null ∨ ∃ s, e.get "target_window_id" = .text s

theorem isKey_of_nullOrText {v : Value} (h : v = .null ∨ ∃ s, v = .text s) : v.isKey = true := by
  obtain rfl | ⟨s, rfl⟩ := h <;> rfl

theorem exists_string_of_nullOrText {v : Value} (h : v = .null ∨ ∃ s, v = .text s) :
    ∃ s, v.string = .ok s := by
  obtain rfl | ⟨s, rfl⟩ := h <;> exact ⟨_, rfl⟩

theorem Declared.checkable {e : Element} (h : Declared e) (windows : Option (List String)) :
    Checkable windows e where
  id := isKey_of_nullOrText (Or.inr h.id)
  name := exists_string_of_nullOrText (Or.inr h.name)
  parent := fun _ => isKey_of_nullOrText h.parentId
  parameter := fun _ => exists_string_of_nullOrText h.parameterId
  size := by
    obtain ⟨width, hwidth⟩ := h.width
    obtain ⟨height, hheight⟩ := h.height
    rw [isFlat, isFlat, hwidth, hheight]
    exact ⟨_, rfl, fun _ => ⟨_, rfl⟩⟩
  target := fun _ _ _ => isKey_of_nullOrText h.target

/-- **The gate is exact.**  There is a report iff the checks can read the elements, as they can
whenever the fields have their declared types.  Elements pass iff all have names, no two of these
normalize to the same identifier, and each parent that is given is among the elements.  The errors
are, in the order of the elements, one for each name that is not given or that normalizes like that
of a named element before, and one for each parent that is missing.  Windows that are known, and
fields other than identities, names and parents, have no part in the errors. -/
theorem gate_exact (windows : Option (List String)) (elements : List Element) :
    ((∃ r, check windows elements = .ok r) ↔ ∀ e ∈ elements, Checkable windows e)
      ∧ ((∀ e ∈ elements, Declared e) → ∃ r, check windows elements = .ok r)
      ∧ ∀ r, check windows elements = .ok r →
        (r.valid = true ↔ (∀ e ∈ elements, e.HasName) ∧ (elements.map handle).Nodup
          ∧ ∀ e ∈ elements, e.hasParent = true → ∃ p ∈ elements, p.id.same e.parentId = true)
        ∧ InOrder elements [] elements r.errors
        ∧ ∀ windows' elements' r', check windows' elements' = .ok r' →
            elements.map seen = elements'.map seen → r.errors = r'.errors := by
  refine ⟨check_ok_iff, fun h => check_ok_iff.mpr fun e he => (h e he).checkable windows,
    fun r hr => ?_⟩
  have hfrom := checkFrom_of_check hr
  refine ⟨?_, inOrder_of_checkFrom hfrom, fun windows' elements' r' hr' hseen => ?_⟩
  · rw [Report.valid, List.isEmpty_iff, errors_eq_nil_iff hfrom]
    simp
  · exact errors_of_seen hseen rfl hseen hfrom (checkFrom_of_check hr')

/-- A panel with an identity, a name and a parent. -/
def panel (id name parent : String) : Element :=
  ⟨.panel, [("id", .text id), ("name", .text name), ("parent_id", .text parent),
    ("width", .int 10), ("height", .int 10)]⟩

theorem declared_panel (id name parent : String) : Declared (panel id name parent) :=
  ⟨⟨_, rfl⟩, ⟨_, rfl⟩, .inr ⟨_, rfl⟩, .inl rfl, ⟨_, rfl⟩, ⟨_, rfl⟩, .inl rfl⟩

/-- Two names that normalize alike stop an export.  Two that do not pass, and a panel may lie in one
that stands after it. -/
theorem alike_stopped :
    (∃ r, check none [panel "a" "Gain Knob" "", panel "b" "gainKnob" ""] = .ok r
        ∧ r.valid = false)
      ∧ ∃ r, check none [panel "a" "Gain" "b", panel "b" "Tone" ""] = .ok r
        ∧ r.valid = true := by
  have hpair : ∀ {P : Element → Prop} {x y : Element}, P x → P y → ∀ e ∈ [x, y], P e :=
    fun hx hy => List.forall_mem_cons.mpr ⟨hx, List.forall_mem_singleton.mpr hy⟩
  constructor
  · obtain ⟨_, hreport, hexact⟩ :=
      gate_exact none [panel "a" "Gain Knob" "", panel "b" "gainKnob" ""]
    obtain ⟨r, hr⟩ := hreport (hpair (declared_panel ..) (declared_panel ..))
    refine ⟨r, hr, Bool.eq_false_iff.mpr fun hvalid => ?_⟩
    obtain ⟨_, hnodup, _⟩ := (hexact r hr).1.mp hvalid
    exact absurd hnodup (by decide)
  · obtain ⟨_, hreport, hexact⟩ := gate_exact none [panel "a" "Gain" "b", panel "b" "Tone" ""]
    obtain ⟨r, hr⟩ := hreport (hpair (declared_panel ..) (declared_panel ..))
    refine ⟨r, hr, (hexact r hr).1.mpr ⟨?_, by decide, ?_⟩⟩
    · exact hpair ⟨'G', by decide, by decide⟩ ⟨'T', by decide, by decide⟩
    · refine hpair (fun _ => ⟨panel "b" "Tone" "", by simp, by decide⟩) fun hparent => ?_
      exact absurd hparent (by decide)

end Check

end ControlSurface
