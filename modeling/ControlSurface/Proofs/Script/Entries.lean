/-
  ControlSurface.Proofs.Script.Entries
  ────────────────────────────────────
  The entries of a window are those of its elements with behaviour (`mem_bindings_iff`), and a
  component script for these elements, whatever others it is for, holds the scripts of all of them
  (`components_holds`).
-/
import ControlSurface.Proofs.Fault.Outcome
import ControlSurface.Proofs.Layout.Nesting
import ControlSurface.Script.Component

namespace ControlSurface.Script

open ControlSurface.Layout ControlSurface.Outcome

/-! ## §1. The entries of elements. -/

/-- **The entries** are those of the elements with behaviour. -/
theorem mem_bindings_iff {layers : List Layer} {elements : List Element}
    {entries : List Binding} (h : bindings layers elements = .ok entries)
    (b : Binding) : b ∈ entries ↔ ∃ e ∈ elements, binding? e = .ok (some b) := by
  obtain ⟨ordered, hordered, h⟩ := (bind_eq_ok_iff _ _ _).mp h
  obtain ⟨found, hfound, h⟩ := (bind_eq_ok_iff _ _ _).mp h
  cases h
  have hmem : ∀ e, e ∈ ordered ↔ e ∈ elements := fun e => (renderOrder_perm hordered).mem_iff
  simp [List.mem_filterMap, mem_mapM_iff hfound, hmem]

theorem of_binding? {e : Element} {b : Binding} (h : binding? e = .ok (some b)) :
    e.domId = .ok b.domId ∧ b.kind = e.kind ∧ ∃ fields, config e = .ok (some fields) := by
  obtain ⟨given, hgiven, h⟩ := (bind_eq_ok_iff _ _ _).mp h
  cases given with
  | none => cases h
  | some fields =>
    obtain ⟨parameter, _, h⟩ := (bind_eq_ok_iff _ _ _).mp h
    obtain ⟨domId, hdomId, h⟩ := (bind_eq_ok_iff _ _ _).mp h
    cases h
    exact ⟨hdomId, rfl, fields, hgiven⟩

/-- Where there are entries, every element has a configuration or none, and with one it has an
entry. -/
theorem exists_binding {layers : List Layer} {elements : List Element} {entries : List Binding}
    (h : bindings layers elements = .ok entries) {e : Element} (he : e ∈ elements) :
    ∃ given, config e = .ok given ∧ (given.isSome = true → ∃ b, binding? e = .ok (some b)) := by
  obtain ⟨ordered, hordered, h⟩ := (bind_eq_ok_iff _ _ _).mp h
  obtain ⟨found, hfound, _⟩ := (bind_eq_ok_iff _ _ _).mp h
  obtain ⟨entry, hentry⟩ := exists_of_mapM hfound ((renderOrder_perm hordered).mem_iff.mpr he)
  obtain ⟨given, hgiven, hrest⟩ := (bind_eq_ok_iff _ _ _).mp hentry
  refine ⟨given, hgiven, fun hsome => ?_⟩
  obtain ⟨fields, rfl⟩ := Option.isSome_iff_exists.mp hsome
  obtain ⟨parameter, _, hrest⟩ := (bind_eq_ok_iff _ _ _).mp hrest
  obtain ⟨domId, _, hrest⟩ := (bind_eq_ok_iff _ _ _).mp hrest
  cases hrest
  exact ⟨_, hentry⟩

/-! ## §2. The scripts of kinds. -/

/-- Only texts and decoration have no behaviour, and their kinds have no configuration. -/
theorem family_mem_order {e : Element} {fields : Fields} (h : config e = .ok (some fields)) :
    e.kind.family ∈ familyOrder := by
  unfold config at h
  cases hk : e.kind
  all_goals first
    | decide
    | rw [hk] at h
      cases h

theorem ofLines_append (xs ys : List String) :
    ofLines (xs ++ ys) = ofLines xs ++ ofLines ys := by
  simp [ofLines]

/-- The text that all component scripts begin with: the shared part around the scripts of families. -/
def behaviourText (fs : List Family) : String :=
  ofLines (runtimeHead ++ fs.flatMap familyScript ++ runtimeTail)

/-- A text that holds another one in one piece. -/
def Holds (text part : String) : Prop := ∃ before after, text = before ++ part ++ after

theorem behaviourText_holds {fs : List Family} {f : Family} (h : f ∈ fs) :
    Holds (behaviourText fs) (ofLines (familyScript f)) := by
  obtain ⟨before, after, rfl⟩ := List.append_of_mem h
  refine ⟨ofLines (runtimeHead ++ before.flatMap familyScript),
    ofLines (after.flatMap familyScript ++ runtimeTail), ?_⟩
  rw [behaviourText, List.flatMap_append, List.flatMap_cons, ← ofLines_append, ← ofLines_append]
  simp

theorem exists_of_components {s : PageSetting} {elements : List Element} {script : String}
    (h : components s elements = .ok script) :
    ∃ fs, families elements = .ok fs
      ∧ script = behaviourText fs ++ if s.customScrollbars && needsScrollbars elements then
          "\n" ++ ofLines scrollbarScript else "" := by
  obtain ⟨fs, hfs, h⟩ := (bind_eq_ok_iff _ _ _).mp h
  refine ⟨fs, hfs, ?_⟩
  cases h
  split
  next => rw [← String.append_assoc]; rfl
  next => rw [String.append_empty]; rfl

/-- **The component script holds the script of every element with behaviour.** -/
theorem components_holds {s : PageSetting} {elements : List Element} {script : String}
    (h : components s elements = .ok script) {e : Element} (he : e ∈ elements)
    {b : Binding} (hb : binding? e = .ok (some b)) :
    Holds script (ofLines (familyScript b.kind.family)) := by
  obtain ⟨fs, hfs, rfl⟩ := exists_of_components h
  obtain ⟨entries, hentries, hfs⟩ := (bind_eq_ok_iff _ _ _).mp hfs
  cases hfs
  obtain ⟨_, hkind, fields, hconfig⟩ := of_binding? hb
  have hmem := (mem_bindings_iff hentries b).mpr ⟨e, he, hb⟩
  have hfamily : b.kind.family ∈ familyOrder.filter fun f =>
      entries.any fun b => b.kind.family = f := by
    refine List.mem_filter.mpr ⟨hkind ▸ family_mem_order hconfig, ?_⟩
    exact List.any_eq_true.mpr ⟨b, hmem, decide_eq_true rfl⟩
  obtain ⟨before, after, htext⟩ := behaviourText_holds hfamily
  exact ⟨before, after ++ _, by rw [htext, String.append_assoc]⟩

end ControlSurface.Script
