/-
  ControlSurface.Proofs.Project.Migration
  ───────────────────────────────────────
  What becomes of the elements of an old project, which moves to a window of its own.  The window
  lists the elements that lie in no other one and leaves it to parents to bring in the rest, while
  the checks look only at what the window shows.

  Main result:
    * `migration_loses_nothing_iff` — nothing gets lost unreported iff everything is reached from
      those elements or an error is reported of some other thing.  Nothing is reported of a parent
      that is missing: whatever is shown lies in nothing or in an element that is shown as well.
-/
import ControlSurface.Check
import ControlSurface.Project.Reader
import ControlSurface.Proofs.Fault.Outcome
import ControlSurface.Proofs.Layout.Reaching

namespace ControlSurface

open ControlSurface.Outcome

/-! ## §1. Errors of the checks. -/

namespace Check

theorem field_of_nameErrors {earlier : List Element} {e : Element} {found : List Finding}
    (h : nameErrors earlier e = .ok found) : ∀ f ∈ found, f.field = "name" := by
  obtain ⟨named, _, h⟩ := (bind_eq_ok_iff _ _ _).mp h
  split at h
  next =>
    cases h
    simp
  next =>
    obtain ⟨domId, _, h⟩ := (bind_eq_ok_iff _ _ _).mp h
    split at h
    next =>
      cases h
      simp
    next =>
      cases h
      simp

/-- Nothing is wrong with the parent of an element that has none or one that is there. -/
theorem parentErrors_eq_nil {elements : List Element} {e : Element} {found : List Finding}
    (h : parentErrors elements e = .ok found)
    (hparent : e.hasParent = false ∨ ∃ p ∈ elements, p.id.same e.parentId = true) :
    found = [] := by
  rw [parentErrors] at h
  split at h
  next =>
    cases h
    rfl
  next hhas =>
    obtain ⟨p, hp, hsame⟩ := hparent.resolve_left (by simpa using hhas)
    have hfound : (elements.any fun p => p.id.same e.parentId) = true :=
      List.any_eq_true.mpr ⟨p, hp, hsame⟩
    simp only [hfound, if_true] at h
    split at h
    next => cases h
    next =>
      cases h
      rfl

/-- Where no parent is missing, all errors are in names. -/
theorem field_of_checkFrom {windows : Option (List String)} {all earlier elements : List Element}
    {r : Report} (h : checkFrom windows all earlier elements = .ok r)
    (hparents : ∀ e ∈ elements, e.hasParent = false ∨ ∃ p ∈ all, p.id.same e.parentId = true) :
    ∀ f ∈ r.errors, f.field = "name" := by
  induction elements generalizing earlier r with
  | nil =>
    cases h
    simp
  | cons e elements ih =>
    obtain ⟨hparent, hparents⟩ := List.forall_mem_cons.mp hparents
    obtain ⟨first, hfirst, h⟩ := (bind_eq_ok_iff _ _ _).mp h
    obtain ⟨others, hothers, h⟩ := (bind_eq_ok_iff _ _ _).mp h
    cases h
    obtain ⟨names, hnames, hfirst⟩ := (bind_eq_ok_iff _ _ _).mp hfirst
    obtain ⟨parents, hparentErrors, hfirst⟩ := (bind_eq_ok_iff _ _ _).mp hfirst
    obtain ⟨_, _, hfirst⟩ := (bind_eq_ok_iff _ _ _).mp hfirst
    obtain ⟨_, _, hfirst⟩ := (bind_eq_ok_iff _ _ _).mp hfirst
    obtain ⟨_, _, hfirst⟩ := (bind_eq_ok_iff _ _ _).mp hfirst
    cases hfirst
    -- nothing but warnings follows the errors in names and parents
    cases parentErrors_eq_nil hparentErrors hparent
    intro f hf
    rcases List.mem_append.mp hf with hf | hf
    · rw [List.append_nil] at hf
      exact field_of_nameErrors hnames f hf
    · exact ih hothers hparents f hf

end Check

namespace Project

open Layout

/-! ## §2. The window of an old project. -/

/-- The window of an old project lists the elements that lie in no other one. -/
theorem elementIds_of_canvasWindow {fields : Fields} {elements : List Element} {w : Window}
    (h : canvasWindow fields elements = .ok w) : w.elementIds = topIds elements := by
  obtain ⟨width, _, h⟩ := (bind_eq_ok_iff _ _ _).mp h
  obtain ⟨height, _, h⟩ := (bind_eq_ok_iff _ _ _).mp h
  cases h
  rfl

/-- A project that is read from fields without windows has the window of its canvas only. -/
theorem windows_of_ofFields {fields : Fields} {p : Project} (h : ofFields fields = .ok p)
    (hold : Value.objectsIn fields "windows" = .ok []) :
    ∃ w, canvasWindow fields p.elements = .ok w ∧ p.windows = [w] := by
  obtain ⟨elementObjects, _, h⟩ := (bind_eq_ok_iff _ _ _).mp h
  obtain ⟨elements, _, h⟩ := (bind_eq_ok_iff _ _ _).mp h
  rw [hold, ok_bind] at h
  obtain ⟨windows, hwindows, h⟩ := (bind_eq_ok_iff _ _ _).mp h
  cases hwindows
  obtain ⟨layerObjects, _, h⟩ := (bind_eq_ok_iff _ _ _).mp h
  obtain ⟨layers, _, h⟩ := (bind_eq_ok_iff _ _ _).mp h
  obtain ⟨fontObjects, _, h⟩ := (bind_eq_ok_iff _ _ _).mp h
  obtain ⟨w, hw, h⟩ := (bind_eq_ok_iff _ _ _).mp h
  cases h
  exact ⟨w, hw, rfl⟩

/-! ## §3. What gets lost. -/

/-- Whether the checks of what a window shows report an error. -/
def ReportsError (p : Project) (known : Option (List String)) (w : Window) : Prop :=
  ∃ r, Check.check known (resolve p.elements w) = .ok r ∧ r.errors ≠ []

/-- Whether every element of a project is shown in a window, or an error is reported instead. -/
def LosesNothing (p : Project) (known : Option (List String)) (w : Window) : Prop :=
  ∀ e ∈ p.elements, e ∈ resolve p.elements w ∨ ReportsError p known w

/-- An error in what the window of an old project shows is one in a name: no parent is missing
there. -/
theorem field_of_check {elements : List Element} (hnamed : NamedByText elements)
    (hone : OneForEachId elements) {w : Window} (hw : w.elementIds = topIds elements)
    {known : Option (List String)} {r : Check.Report}
    (h : Check.check known (resolve elements w) = .ok r) : ∀ f ∈ r.errors, f.field = "name" := by
  rw [Check.check] at h
  split at h
  next =>
    refine Check.field_of_checkFrom h fun e he => ?_
    rw [mem_resolve_iff, hw] at he
    refine (top_or_listedParent hone hnamed he).imp_right ?_
    -- the parent that brought the element in is shown with it
    rintro ⟨p, hp, hmem, _, hid⟩
    obtain ⟨s, hs⟩ := hnamed p hmem
    refine ⟨p, mem_resolve_iff.mpr (hw ▸ hp), ?_⟩
    rw [← hid, hs]
    exact (same_text _ s).mpr rfl
  next => cases h

/-- **What an old project loses.**  Nothing is lost unreported iff the identities of the elements
that lie in no other one lead to every element, or an error is reported all the same.  Where
identities are texts, they lead to every element iff no two elements share an identity and each
chain of parents ends at an element that lies in no other one; and an error is then always one in a
name, so neither a parent that is missing nor a circle of parents is ever reported. -/
theorem migration_loses_nothing_iff {fields : Fields} {p : Project}
    (hread : ofFields fields = .ok p) (hold : Value.objectsIn fields "windows" = .ok [])
    (known : Option (List String)) :
    ∃ w, p.windows = [w]
      ∧ (LosesNothing p known w ↔ AllReached p.elements ∨ ReportsError p known w)
      ∧ (NamedByText p.elements →
          (AllReached p.elements
            ↔ OneForEachId p.elements ∧ ∀ e ∈ p.elements, ChainEnds p.elements e)
          ∧ (OneForEachId p.elements → ∀ r, Check.check known (resolve p.elements w) = .ok r →
              ∀ f ∈ r.errors, f.field = "name")) := by
  obtain ⟨w, hcanvas, hwindows⟩ := windows_of_ofFields hread hold
  have hw : w.elementIds = topIds p.elements := elementIds_of_canvasWindow hcanvas
  have hshown : ∀ e, e ∈ resolve p.elements w ↔ LeadsTo p.elements (topIds p.elements) e :=
    fun e => by rw [mem_resolve_iff, hw]
  refine ⟨w, hwindows, ?_, fun hnamed => ⟨allReached_iff hnamed, fun hone r hr =>
    field_of_check hnamed hone hw hr⟩⟩
  constructor
  · -- an error that is reported stands for all elements at once
    intro h
    by_cases hreports : ReportsError p known w
    · exact Or.inr hreports
    · exact Or.inl fun e he => (hshown e).mp ((h e he).resolve_right hreports)
  · rintro (hall | hreports) e he
    · exact Or.inl ((hshown e).mpr (hall e he))
    · exact Or.inr hreports

/-! ## §4. Three small projects. -/

/-- The fields of an old project of panels, each with the identity that it lies in. -/
def panelFields (panels : List (String × String)) : Fields :=
  [("elements", .list (panels.map fun panel => .object
    [("id", .text panel.1), ("name", .text panel.1), ("parentId", .text panel.2),
      ("type", .text "panel")]))]

/-- Two panels, one in the other, both move to the window. -/
theorem nested_losesNothing :
    ∃ p w, ofFields (panelFields [("a", ""), ("b", "a")]) = .ok p
      ∧ Value.objectsIn (panelFields [("a", ""), ("b", "a")]) "windows" = .ok []
      ∧ p.windows = [w] ∧ p.elements.length = 2 ∧ LosesNothing p none w := by
  obtain ⟨p, a, b, hp, helements, htop, hparent, hid, ha, hb⟩ :
      ∃ p a b, ofFields (panelFields [("a", ""), ("b", "a")]) = .ok p ∧ p.elements = [a, b]
        ∧ a.hasParent = false ∧ b.hasParent = true ∧ a.id = b.parentId
        ∧ a.id = .text "a" ∧ b.id = .text "b" :=
    ⟨_, _, _, rfl, rfl, by decide, by decide, rfl, rfl, rfl⟩
  obtain ⟨w, hw, hiff, htext⟩ := migration_loses_nothing_iff hp rfl none
  have hpair : ∀ {P : Element → Prop}, P a → P b → ∀ e ∈ p.elements, P e := by
    intro P hPa hPb
    rw [helements]
    exact List.forall_mem_cons.mpr ⟨hPa, List.forall_mem_singleton.mpr hPb⟩
  have hnamed : NamedByText p.elements := hpair ⟨_, ha⟩ ⟨_, hb⟩
  have hone : OneForEachId p.elements := by
    have hne : a.id ≠ b.id := by simp [ha, hb]
    exact hpair (hpair (fun _ => rfl) fun h => absurd h hne)
      (hpair (fun h => absurd h.symm hne) fun _ => rfl)
  have hends : ∀ e ∈ p.elements, ChainEnds p.elements e := by
    have hlink : ListedParent p.elements b a := ⟨by simp [helements], hparent, hid⟩
    exact hpair ⟨a, .refl, htop⟩ ⟨a, .single hlink, htop⟩
  refine ⟨p, w, hp, rfl, hw, by rw [helements]; rfl, hiff.mpr (Or.inl ?_)⟩
  exact (htext hnamed).1.mpr ⟨hone, hends⟩

/-- An old project all of whose elements lie in others shows nothing and reports nothing. -/
theorem not_losesNothing_of_inside {p : Project} {w : Window}
    (hw : w.elementIds = topIds p.elements) (hsome : p.elements ≠ [])
    (hinside : ∀ e ∈ p.elements, e.hasParent = true) (known : Option (List String)) :
    resolve p.elements w = [] ∧ ¬ LosesNothing p known w := by
  have htop : topIds p.elements = [] := by
    rw [topIds, List.map_eq_nil_iff, List.filter_eq_nil_iff]
    intro e he
    rw [hinside e he]
    exact Bool.false_ne_true
  have hshown : resolve p.elements w = [] := by
    rw [resolve, hw, htop, visit]
  obtain ⟨e, he⟩ := List.exists_mem_of_ne_nil _ hsome
  refine ⟨hshown, fun h => ?_⟩
  rcases h e he with hmem | ⟨r, hr, herrors⟩
  · rw [hshown] at hmem
    exact absurd hmem List.not_mem_nil
  · rw [hshown] at hr
    cases hr
    exact herrors rfl

/-- A panel whose parent is missing, and two panels that lie in each other: nothing is shown, and
nothing is reported. -/
theorem stray_lost :
    (∃ p w, ofFields (panelFields [("a", "gone")]) = .ok p ∧ p.windows = [w]
        ∧ p.elements.length = 1 ∧ resolve p.elements w = [] ∧ ¬ LosesNothing p none w)
      ∧ ∃ p w, ofFields (panelFields [("a", "b"), ("b", "a")]) = .ok p ∧ p.windows = [w]
        ∧ p.elements.length = 2 ∧ resolve p.elements w = [] ∧ ¬ LosesNothing p none w := by
  have hlost : ∀ {panels p}, ofFields (panelFields panels) = .ok p → p.elements ≠ [] →
      p.elements.all Element.hasParent = true →
      ∃ w, p.windows = [w] ∧ resolve p.elements w = [] ∧ ¬ LosesNothing p none w := by
    intro panels p hp hsome hinside
    obtain ⟨w, hcanvas, hwindows⟩ := windows_of_ofFields hp rfl
    exact ⟨w, hwindows, not_losesNothing_of_inside (elementIds_of_canvasWindow hcanvas) hsome
      (List.all_eq_true.mp hinside) none⟩
  constructor
  · obtain ⟨p, hp, hlength, hinside⟩ : ∃ p, ofFields (panelFields [("a", "gone")]) = .ok p
        ∧ p.elements.length = 1 ∧ p.elements.all Element.hasParent = true :=
      ⟨_, rfl, rfl, by decide⟩
    obtain ⟨w, hw, hshown⟩ := hlost hp (List.ne_nil_of_length_eq_add_one hlength) hinside
    exact ⟨p, w, hp, hw, hlength, hshown⟩
  · obtain ⟨p, hp, hlength, hinside⟩ :
        ∃ p, ofFields (panelFields [("a", "b"), ("b", "a")]) = .ok p
          ∧ p.elements.length = 2 ∧ p.elements.all Element.hasParent = true :=
      ⟨_, rfl, rfl, by decide⟩
    obtain ⟨w, hw, hshown⟩ := hlost hp (List.ne_nil_of_length_eq_add_one hlength) hinside
    exact ⟨p, w, hp, hw, hlength, hshown⟩

end Project

end ControlSurface
