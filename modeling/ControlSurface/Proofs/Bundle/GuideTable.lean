/-
  ControlSurface.Proofs.Bundle.GuideTable
  ───────────────────────────────────────
  The table of parameters in the guide of a bundle, beside the parameters that the bindings of a
  window talk to.  The table has a row for every element of a bindable kind and no others
  (`Tabled.rows_iff`), so it lists what the bindings carry exactly if the axes of XY pads and the
  parameters that other elements name are also those of bindable elements
  (`guide_lists_carried_iff`).
-/
import ControlSurface.Proofs.Bundle.Keeping
import ControlSurface.Proofs.Keyed.Entries
import ControlSurface.Proofs.Layout.Preorder
import ControlSurface.Proofs.Script.Entries

namespace ControlSurface.Bundle

open ControlSurface.Layout ControlSurface.Outcome

/-! ## §1. What entries carry. -/

/-- The keys under which an XY pad is told the parameters of its axes. -/
def axisKeys : List String := ["xParameterId", "yParameterId"]

/-- The parameters of the host that an entry carries. -/
def carried (b : Script.Binding) : List Value :=
  b.parameter.toList.map Value.text
    ++ if b.kind = .xyPad then axisKeys.filterMap (Value.find? b.config) else []

/-- The parameters that the table can only list by way of another element: those of the axes of an
XY pad, and that which an element with behaviour names though its kind has none. -/
inductive Extra (e : Element) : Value → Prop where
  | xAxis {parameter : String} (hkind : e.kind = .xyPad)
      (hparameter : Markup.parameterId e = .ok parameter) :
    Extra e ((e.get "x_parameter_id").orElse (.text s!"{parameter}_x"))
  | yAxis {parameter : String} (hkind : e.kind = .xyPad)
      (hparameter : Markup.parameterId e = .ok parameter) :
    Extra e ((e.get "y_parameter_id").orElse (.text s!"{parameter}_y"))
  | named {given : String} {fields : Fields} (hkind : e.kind.bindable = false)
      (hconfig : Script.config e = .ok (some fields)) (hgiven : e.string "parameter_id" = .ok given)
      (hnamed : Text.trimmed given ≠ "") :
    Extra e (.text (Text.trimmed given))

/-- An XY pad is told the parameters of its axes. -/
theorem axes_of_config {e : Element} {fields : Fields} (hkind : e.kind = .xyPad)
    (h : Script.config e = .ok (some fields)) :
    ∃ parameter, Markup.parameterId e = .ok parameter
      ∧ axisKeys.filterMap (Value.find? fields)
        = [(e.get "x_parameter_id").orElse (.text s!"{parameter}_x"),
           (e.get "y_parameter_id").orElse (.text s!"{parameter}_y")] := by
  rw [Script.config, hkind] at h
  obtain ⟨parameter, hparameter, h⟩ := (bind_eq_ok_iff _ _ _).mp h
  refine ⟨parameter, hparameter, ?_⟩
  cases hpad : Script.xyPad e parameter with
  | error => rw [hpad] at h; cases h
  | ok given =>
    rw [hpad] at h
    cases h
    obtain ⟨_, _, hpad⟩ := (bind_eq_ok_iff _ _ _).mp hpad
    obtain ⟨_, _, hpad⟩ := (bind_eq_ok_iff _ _ _).mp hpad
    cases hpad
    rfl

theorem extra_iff_axis {e : Element} {parameter : String} (hkind : e.kind = .xyPad)
    (hparameter : Markup.parameterId e = .ok parameter) (v : Value) :
    Extra e v ↔ v ∈ [(e.get "x_parameter_id").orElse (.text s!"{parameter}_x"),
      (e.get "y_parameter_id").orElse (.text s!"{parameter}_y")] := by
  constructor
  · intro h
    cases h with
    | xAxis _ hp =>
      cases hparameter.symm.trans hp
      exact List.mem_cons_self ..
    | yAxis _ hp =>
      cases hparameter.symm.trans hp
      exact List.mem_cons_of_mem _ (List.mem_cons_self ..)
    | named hbindable =>
      rw [hkind] at hbindable
      cases hbindable
  · intro h
    rcases List.mem_cons.mp h with rfl | h
    · exact .xAxis hkind hparameter
    · rw [List.mem_singleton.mp h]
      exact .yAxis hkind hparameter

/-- The other kinds with a parameter have it alone. -/
theorem not_extra_of_bindable {e : Element} (hbindable : e.kind.bindable = true)
    (hkind : e.kind ≠ .xyPad) (v : Value) : ¬ Extra e v := by
  intro h
  cases h with
  | xAxis hpad => exact hkind hpad
  | yAxis hpad => exact hkind hpad
  | named hnot =>
    rw [hbindable] at hnot
    cases hnot

theorem extra_iff_named {e : Element} {fields : Fields} {given : String}
    (hbindable : e.kind.bindable = false) (hconfig : Script.config e = .ok (some fields))
    (hgiven : e.string "parameter_id" = .ok given) (v : Value) :
    Extra e v ↔ Text.trimmed given ≠ "" ∧ v = .text (Text.trimmed given) := by
  have hkind : e.kind ≠ .xyPad := fun hpad => by
    rw [hpad] at hbindable
    cases hbindable
  constructor
  · intro h
    cases h with
    | xAxis hpad => exact absurd hpad hkind
    | yAxis hpad => exact absurd hpad hkind
    | named _ _ hread hnamed =>
      cases hgiven.symm.trans hread
      exact ⟨hnamed, rfl⟩
  · rintro ⟨hnamed, rfl⟩
    exact .named hbindable hconfig hgiven hnamed

/-- **What the entry of an element carries**: its parameter if its kind has one, and what is extra. -/
theorem mem_carried_iff {e : Element} {b : Script.Binding}
    (h : Script.binding? e = .ok (some b)) (v : Value) :
    v ∈ carried b ↔ (e.kind.bindable = true ∧ ∃ parameter,
      Markup.parameterId e = .ok parameter ∧ v = .text parameter) ∨ Extra e v := by
  obtain ⟨config, hconfig, h⟩ := (bind_eq_ok_iff _ _ _).mp h
  cases config with
  | none => cases h
  | some fields =>
  obtain ⟨parameter, hparameter, h⟩ := (bind_eq_ok_iff _ _ _).mp h
  obtain ⟨domId, _, h⟩ := (bind_eq_ok_iff _ _ _).mp h
  cases h
  rw [Script.parameter?] at hparameter
  split at hparameter
  next hbindable =>
    obtain ⟨own, hown, hparameter⟩ := (bind_eq_ok_iff _ _ _).mp hparameter
    cases hparameter
    by_cases hkind : e.kind = .xyPad
    · obtain ⟨pad, hpad, haxes⟩ := axes_of_config hkind hconfig
      cases hown.symm.trans hpad
      rw [extra_iff_axis hkind hown, carried, if_pos hkind, haxes]
      simp [hbindable, hown]
    · rw [carried, if_neg hkind]
      simp [hbindable, hown, not_extra_of_bindable hbindable hkind]
  next hnot =>
    have hbindable : e.kind.bindable = false := by simpa using hnot
    have hkind : e.kind ≠ .xyPad := fun hpad => hnot (hpad ▸ rfl)
    obtain ⟨given, hgiven, hparameter⟩ := (bind_eq_ok_iff _ _ _).mp hparameter
    cases hparameter
    rw [extra_iff_named hbindable hconfig hgiven, carried, if_neg hkind]
    split
    next hempty => simp [hbindable, hempty]
    next hnamed => simp [hbindable, hnamed]

/-! ## §2. The table. -/

/-- The row of an element. -/
structure RowOf (e : Element) (r : ParameterRow) : Prop where
  bindable : e.kind.bindable = true
  domId : e.domId = .ok r.domId
  kind : r.kind = e.kind
  parameter : Markup.parameterId e = .ok r.parameterId

theorem mem_parameterRow_iff {e : Element} {rows : List ParameterRow} (h : parameterRow e = .ok rows)
    (r : ParameterRow) : r ∈ rows ↔ RowOf e r := by
  rw [parameterRow] at h
  split at h
  next hnot =>
    cases h
    have hnot : e.kind.bindable = false := by simpa using hnot
    refine iff_of_false List.not_mem_nil fun hrow => ?_
    exact Bool.false_ne_true (hnot.symm.trans hrow.bindable)
  next hbindable =>
    have hbindable : e.kind.bindable = true := by simpa using hbindable
    obtain ⟨domId, hdomId, h⟩ := (bind_eq_ok_iff _ _ _).mp h
    obtain ⟨parameter, hparameter, h⟩ := (bind_eq_ok_iff _ _ _).mp h
    cases h
    rw [List.mem_singleton]
    constructor
    · rintro rfl
      exact ⟨hbindable, hdomId, rfl, hparameter⟩
    · rintro ⟨_, hdom, hkind, hown⟩
      obtain ⟨_, _, _⟩ := r
      cases hdomId.symm.trans hdom
      cases hparameter.symm.trans hown
      cases hkind
      rfl

/-- What the guide tells of a window: its name and its directory, and a row for each of its elements
of bindable kinds and no others. -/
structure Tabled (w : ExportWindow) (told : GuideWindow) : Prop where
  name : told.name = w.window.name.toText
  slug : told.slug = w.slug
  rows_iff (r : ParameterRow) : r ∈ told.parameters ↔ ∃ e ∈ w.elements, RowOf e r
  exists_row {e : Element} (he : e ∈ w.elements) (h : e.kind.bindable = true) : ∃ r, RowOf e r

theorem tabled_of_guideWindow {layers : List Layer} {linked : List (String × WindowLink)}
    {w : ExportWindow} {told : GuideWindow} (h : guideWindow layers linked w = .ok told) :
    Tabled w told := by
  obtain ⟨ordered, hordered, h⟩ := (bind_eq_ok_iff _ _ _).mp h
  obtain ⟨parameters, hparameters, h⟩ := (bind_eq_ok_iff _ _ _).mp h
  obtain ⟨openings, _, h⟩ := (bind_eq_ok_iff _ _ _).mp h
  cases h
  refine ⟨rfl, rfl, fun r => ?_, fun {e} he hbindable => ?_⟩
  · rw [List.mem_flatten]
    constructor
    · rintro ⟨rows, hrows, hr⟩
      obtain ⟨e, he, hread⟩ := (mem_mapM_iff hparameters rows).mp hrows
      exact ⟨e, (renderOrder_perm hordered).mem_iff.mp he, (mem_parameterRow_iff hread r).mp hr⟩
    · rintro ⟨e, he, hrow⟩
      have he := (renderOrder_perm hordered).mem_iff.mpr he
      obtain ⟨rows, hread⟩ := exists_of_mapM hparameters he
      exact ⟨rows, (mem_mapM_iff hparameters rows).mpr ⟨e, he, hread⟩,
        (mem_parameterRow_iff hread r).mpr hrow⟩
  · obtain ⟨rows, hread⟩ := exists_of_mapM hparameters ((renderOrder_perm hordered).mem_iff.mpr he)
    have hrows := mem_parameterRow_iff hread
    rw [parameterRow, hbindable] at hread
    obtain ⟨domId, _, hread⟩ := (bind_eq_ok_iff _ _ _).mp hread
    obtain ⟨parameter, _, hread⟩ := (bind_eq_ok_iff _ _ _).mp hread
    cases hread
    exact ⟨_, (hrows _).mp (List.mem_cons_self ..)⟩

/-! ## §3. Completeness. -/

/-- Whether the table of a window lists a parameter. -/
def Lists (told : GuideWindow) (v : Value) : Prop :=
  ∃ r ∈ told.parameters, v = .text r.parameterId

/-- Whether a parameter is that of a bindable element. -/
def IsBound (elements : List Element) (v : Value) : Prop :=
  ∃ e ∈ elements, e.kind.bindable = true
    ∧ ∃ parameter, Markup.parameterId e = .ok parameter ∧ v = .text parameter

theorem Tabled.lists_iff {w : ExportWindow} {told : GuideWindow} (h : Tabled w told) (v : Value) :
    Lists told v ↔ IsBound w.elements v := by
  constructor
  · rintro ⟨r, hr, rfl⟩
    obtain ⟨e, he, hrow⟩ := (h.rows_iff r).mp hr
    exact ⟨e, he, hrow.bindable, r.parameterId, hrow.parameter, rfl⟩
  · rintro ⟨e, he, hbindable, parameter, hparameter, rfl⟩
    obtain ⟨r, hrow⟩ := h.exists_row he hbindable
    cases hparameter.symm.trans hrow.parameter
    exact ⟨r, (h.rows_iff r).mpr ⟨e, he, hrow⟩, rfl⟩

/-- An element with an extra parameter has an entry. -/
theorem Extra.exists_binding {layers : List Layer} {elements : List Element}
    {entries : List Script.Binding} (hentries : Script.bindings layers elements = .ok entries)
    {e : Element} (he : e ∈ elements) {v : Value} (h : Extra e v) :
    ∃ b, Script.binding? e = .ok (some b) := by
  obtain ⟨given, hgiven, hentry⟩ := Script.exists_binding hentries he
  have hpad : e.kind = .xyPad → given.isSome = true := by
    intro hkind
    rw [Script.config, hkind] at hgiven
    obtain ⟨parameter, _, hgiven⟩ := (bind_eq_ok_iff _ _ _).mp hgiven
    cases hmade : Script.xyPad e parameter with
    | error => rw [hmade] at hgiven; cases hgiven
    | ok fields =>
      rw [hmade] at hgiven
      cases hgiven
      rfl
  refine hentry ?_
  cases h with
  | xAxis hkind => exact hpad hkind
  | yAxis hkind => exact hpad hkind
  | named _ hconfig =>
    cases hgiven.symm.trans hconfig
    rfl

/-- **The table lists what the entries of a window carry** exactly if what is extra is also bound. -/
theorem Tabled.complete_iff {layers : List Layer} {w : ExportWindow} {told : GuideWindow}
    {entries : List Script.Binding} (h : Tabled w told)
    (hentries : Script.bindings layers w.elements = .ok entries) :
    (∀ b ∈ entries, ∀ v ∈ carried b, Lists told v)
      ↔ ∀ e ∈ w.elements, ∀ v, Extra e v → IsBound w.elements v := by
  constructor
  · intro hall e he v hextra
    obtain ⟨b, hb⟩ := hextra.exists_binding hentries he
    refine (h.lists_iff v).mp (hall b ((Script.mem_bindings_iff hentries b).mpr ⟨e, he, hb⟩) v ?_)
    exact (mem_carried_iff hb v).mpr (Or.inr hextra)
  · intro hall b hb v hv
    obtain ⟨e, he, hread⟩ := (Script.mem_bindings_iff hentries b).mp hb
    refine (h.lists_iff v).mpr ?_
    rcases (mem_carried_iff hread v).mp hv with ⟨hbindable, hparameter⟩ | hextra
    · exact ⟨e, he, hbindable, hparameter⟩
    · exact hall e he v hextra

/-- Every window of a bundle has entries. -/
theorem Reached.exists_bindings {p : Project} {o : ExportOptions} {windowId : Option String}
    {s : Stages} (h : Reached p o windowId s) {w : ExportWindow} (hw : w ∈ s.equipment.windows) :
    ∃ entries, Script.bindings p.orderedLayers w.elements = .ok entries := by
  obtain ⟨files, hfiles⟩ := exists_of_mapM ((mapM_eq_ok_iff _ _ _).mpr h.made) hw
  obtain ⟨_, _, hfiles⟩ := (bind_eq_ok_iff _ _ _).mp hfiles
  obtain ⟨_, _, hfiles⟩ := (bind_eq_ok_iff _ _ _).mp hfiles
  obtain ⟨_, _, hfiles⟩ := (bind_eq_ok_iff _ _ _).mp hfiles
  obtain ⟨script, hscript, _⟩ := (bind_eq_ok_iff _ _ _).mp hfiles
  obtain ⟨_, _, hscript⟩ := (bind_eq_ok_iff _ _ _).mp hscript
  obtain ⟨entries, hentries, _⟩ := (bind_eq_ok_iff _ _ _).mp hscript
  exact ⟨entries, hentries⟩

/-- The guide of a bundle tells of its windows. -/
theorem tabled_of_assemble {p : Project} {o : ExportOptions} {windowId : Option String}
    {a : Assembly} (h : assemble p o windowId = .ok a) :
    ∃ s, Reached p o windowId s
      ∧ ∃ g : Guide, Keyed.find? Guide.file a.files = some (.text g.text)
        ∧ List.Forall₂ Tabled s.equipment.windows g.windows := by
  obtain ⟨s, hs, names, g, hg, hfiles⟩ := guide_of_assemble h
  refine ⟨s, hs, g, ?_, ?_⟩
  · rw [hfiles, Keyed.ofList_append_singleton, Keyed.find?_put, if_pos rfl]
  · obtain ⟨told, htold, hg⟩ := (bind_eq_ok_iff _ _ _).mp hg
    cases hg
    exact ((mapM_eq_ok_iff _ _ _).mp htold).imp fun _ _ => tabled_of_guideWindow

/-- **When the guide lists every parameter that the bindings carry.**  In a bundle the guide tells of
every window, with a row for each of its bindable elements; the table of a window lists what the
bindings of the window carry exactly if the parameters of the axes of its XY pads, and those that
its other elements with behaviour name, are bound to elements of the window as well. -/
theorem guide_lists_carried_iff {p : Project} {o : ExportOptions} {windowId : Option String}
    {a : Assembly} (h : assemble p o windowId = .ok a) :
    ∃ s, Reached p o windowId s
      ∧ ∃ g : Guide, Keyed.find? Guide.file a.files = some (.text g.text)
        ∧ List.Forall₂ (fun w told => Tabled w told
            ∧ ∃ entries, Script.bindings p.orderedLayers w.elements = .ok entries
              ∧ ((∀ b ∈ entries, ∀ v ∈ carried b, Lists told v)
                ↔ ∀ e ∈ w.elements, ∀ v, Extra e v → IsBound w.elements v))
          s.equipment.windows g.windows := by
  obtain ⟨s, hs, g, hfile, htabled⟩ := tabled_of_assemble h
  have hentries := fun w (hw : w ∈ s.equipment.windows) => hs.exists_bindings hw
  refine ⟨s, hs, g, hfile, ?_⟩
  refine List.Forall₂.imp ?_ ((List.forall₂_and_left _ _).mpr ⟨hentries, htabled⟩)
  rintro w told ⟨⟨entries, hentries⟩, htold⟩
  exact ⟨htold, entries, hentries, htold.complete_iff hentries⟩

/-! ## §4. Small bundles. -/

/-- An element that names a parameter. -/
def bound (kind : Kind) : Element :=
  ⟨kind, Element.assign kind
    [("id", .text "a"), ("name", .text "Place"), ("parameter_id", .text "place")]⟩

/-- A project whose only window shows that element. -/
def boundProject (kind : Kind) : Project :=
  { name := .text "Synth", elements := [bound kind], windows := [listing ["a"]], layers := []
    fonts := [] }

theorem id_bound (kind : Kind) : (bound kind).id = .text "a" := by
  cases kind <;> rfl

theorem resolve_bound (kind : Kind) :
    resolve (boundProject kind).elements (listing ["a"]) = [bound kind] := by
  have hnamed : NamedByText (boundProject kind).elements := fun e he => by
    rw [List.mem_singleton.mp he]
    exact ⟨"a", id_bound kind⟩
  have hparent : (bound kind).hasParent = false := by
    cases kind <;> rfl
  refine resolve_alone hnamed ?_ ?_ ?_
  · rw [id_bound]
    rfl
  · rw [id_bound]
    simp [element?, position?, boundProject, id_bound, same_text]
  · simp [childrenOf, boundProject, hparent]

/-- What the window of the project becomes. -/
def boundWindow (kind : Kind) : ExportWindow := ⟨listing ["a"], "main", [bound kind], [], []⟩

/-- A control with one parameter, one with others for its axes, and a list that names one. -/
def boundKinds : List Kind := [.toggleSwitch, .xyPad, .breadcrumb]

theorem boundKinds_cases {kind : Kind} (h : kind ∈ boundKinds) :
    kind = .toggleSwitch ∨ kind = .xyPad ∨ kind = .breadcrumb := by
  simpa [boundKinds] using h

theorem prepare_bound {kind : Kind} (hkind : kind ∈ boundKinds) :
    prepare (boundProject kind) [listing ["a"]] = .ok ([boundWindow kind], []) := by
  have hslugs : Name.slugs ["Main"] Name.defaultSlug = ["main"] := by decide
  have hslugged : withSlugs [listing ["a"]] = .ok [(listing ["a"], "main")] := by
    show Except.ok (List.zip _ (Name.slugs ["Main"] Name.defaultSlug)) = _
    rw [hslugs]
    rfl
  rw [prepare, hslugged]
  show (inspect _ _ _ [(_, _)] >>= _) = _
  have hkeys : Layout.hasKeys (boundProject kind).elements = true := by
    rcases boundKinds_cases hkind with rfl | rfl | rfl <;> rfl
  rw [inspect, inspect, Layout.shownBy_of_hasKeys hkeys, resolve_bound]
  rcases boundKinds_cases hkind with rfl | rfl | rfl
  all_goals rfl

theorem select_bound (kind : Kind) :
    select (boundProject kind) plainOptions none = .ok [listing ["a"]] := rfl

theorem assemble_bound {kind : Kind} (hkind : kind ∈ boundKinds) :
    ∃ a, assemble (boundProject kind) plainOptions none = .ok a := by
  refine exists_of_isOk ?_
  rw [assemble, select_bound]
  show (prepare _ _ >>= _).isOk = true
  rw [prepare_bound hkind]
  rcases boundKinds_cases hkind with rfl | rfl | rfl
  all_goals decide +kernel

/-- The window of the bundle shows the element. -/
theorem elements_bound {kind : Kind} (hkind : kind ∈ boundKinds) {s : Stages}
    (h : Reached (boundProject kind) plainOptions none s) :
    s.equipment.windows.map ExportWindow.elements = [[bound kind]] := by
  have hselected := h.selected
  rw [select_bound] at hselected
  have hprepared := h.prepared
  rw [← Except.ok.inj hselected, prepare_bound hkind] at hprepared
  have hwindows : [boundWindow kind] = s.prepared := congrArg Prod.fst (Except.ok.inj hprepared)
  rw [equip_elements h.equipped, ← hwindows]
  rfl

theorem forall_elements_bound {kind : Kind} (hkind : kind ∈ boundKinds) {s : Stages}
    (h : Reached (boundProject kind) plainOptions none s) :
    ∀ w ∈ s.equipment.windows, w.elements = [bound kind] := by
  intro w hw
  have hmem := List.mem_map_of_mem (f := ExportWindow.elements) hw
  rw [elements_bound hkind h] at hmem
  exact List.mem_singleton.mp hmem

/-- The table lists what a switch is bound to. -/
theorem toggleSwitch_listed :
    ∃ a s, assemble (boundProject .toggleSwitch) plainOptions none = .ok a
      ∧ Reached (boundProject .toggleSwitch) plainOptions none s
      ∧ ∃ g : Guide, Keyed.find? Guide.file a.files = some (.text g.text)
        ∧ List.Forall₂ (fun w told => w.elements = [bound .toggleSwitch] ∧ ∃ entries,
            Script.bindings (boundProject .toggleSwitch).orderedLayers w.elements = .ok entries
              ∧ ∀ b ∈ entries, ∀ v ∈ carried b, Lists told v)
          s.equipment.windows g.windows := by
  have hkind : Kind.toggleSwitch ∈ boundKinds := by decide
  obtain ⟨a, ha⟩ := assemble_bound hkind
  obtain ⟨s, hs, g, hfile, hall⟩ := guide_lists_carried_iff ha
  refine ⟨a, s, ha, hs, g, hfile, ?_⟩
  refine List.Forall₂.imp ?_
    ((List.forall₂_and_left _ _).mpr ⟨forall_elements_bound hkind hs, hall⟩)
  rintro w told ⟨hw, _, entries, hentries, hcomplete⟩
  refine ⟨hw, entries, hentries, hcomplete.mpr fun e he v hextra => ?_⟩
  rw [hw] at he
  rw [List.mem_singleton.mp he] at hextra
  exact absurd hextra (not_extra_of_bindable rfl (by decide) v)

/-- The only window of a bundle has an entry that carries a parameter its table does not list. -/
def Unlisted (p : Project) (parameter : String) : Prop :=
  ∃ a s, assemble p plainOptions none = .ok a ∧ Reached p plainOptions none s
    ∧ s.equipment.windows.length = 1
    ∧ ∃ g : Guide, Keyed.find? Guide.file a.files = some (.text g.text)
      ∧ List.Forall₂ (fun w told => Tabled w told ∧ ∃ entries,
          Script.bindings p.orderedLayers w.elements = .ok entries
            ∧ ∃ b ∈ entries, .text parameter ∈ carried b ∧ ¬ Lists told (.text parameter))
        s.equipment.windows g.windows

theorem unlisted_of_extra {kind : Kind} (hkind : kind ∈ boundKinds) {parameter : String}
    (hextra : Extra (bound kind) (.text parameter))
    (hbound : ¬ IsBound [bound kind] (.text parameter)) :
    Unlisted (boundProject kind) parameter := by
  obtain ⟨a, ha⟩ := assemble_bound hkind
  obtain ⟨s, hs, g, hfile, htabled⟩ := tabled_of_assemble ha
  have helements := forall_elements_bound hkind hs
  have hentries := fun w (hw : w ∈ s.equipment.windows) => hs.exists_bindings hw
  have hlength : s.equipment.windows.length = 1 := by
    simpa using congrArg List.length (elements_bound hkind hs)
  refine ⟨a, s, ha, hs, hlength, g, hfile, ?_⟩
  refine List.Forall₂.imp ?_ ((List.forall₂_and_left _ _).mpr
    ⟨fun w hw => And.intro (helements w hw) (hentries w hw), htabled⟩)
  rintro w told ⟨⟨hw, entries, hentries⟩, htold⟩
  have hmem : bound kind ∈ w.elements := by
    rw [hw]
    exact List.mem_cons_self ..
  obtain ⟨b, hb⟩ := hextra.exists_binding hentries hmem
  refine ⟨htold, entries, hentries, b, (Script.mem_bindings_iff hentries b).mpr ⟨_, hmem, hb⟩,
    (mem_carried_iff hb _).mpr (Or.inr hextra), ?_⟩
  rw [htold.lists_iff, hw]
  exact hbound

/-- The table lists neither the axes of an XY pad nor the parameter that a breadcrumb names. -/
theorem axis_unlisted :
    Unlisted (boundProject .xyPad) "place_x" ∧ Unlisted (boundProject .breadcrumb) "place" := by
  have hparameter : Markup.parameterId (bound .xyPad) = .ok "place" := by decide
  have htrimmed : Text.trimmed "place" = "place" := by decide
  constructor
  · refine unlisted_of_extra (by decide) (.xAxis rfl hparameter) ?_
    rintro ⟨e, he, _, parameter, hown, heq⟩
    -- what the pad is bound to itself is listed, and it is another parameter
    rw [List.mem_singleton.mp he, hparameter] at hown
    cases hown
    exact absurd (Value.text.inj heq) (by decide)
  · refine unlisted_of_extra (by decide) (htrimmed ▸ .named rfl rfl rfl (by decide)) ?_
    rintro ⟨e, he, hbindable, _⟩
    rw [List.mem_singleton.mp he] at hbindable
    cases hbindable

end ControlSurface.Bundle
