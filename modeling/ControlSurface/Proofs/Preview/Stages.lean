/-
  ControlSurface.Proofs.Preview.Stages
  ────────────────────────────────────
  The stages that a preview goes through.  It shares the first ones with a bundle: the windows are
  selected, checked and given their graphics and fonts (`Underway`).  What is left is the document
  of these windows (`render_of_underway`), which is made of the files of each of them and of the
  nodes that carry their stylesheets and scripts (`Shows`).
-/
import ControlSurface.Preview.Document
import ControlSurface.Proofs.Bundle.Stages

namespace ControlSurface.Preview

open ControlSurface.Bundle ControlSurface.Markup ControlSurface.Outcome

/-! ## §1. The windows of a preview. -/

/-- Windows that are selected, checked and given what they need, each stage with success. -/
structure Underway (p : Project) (o : ExportOptions) (windowId : Option String)
    (windows : List Window) (warnings : List String) (e : Equipment) : Prop where
  selected : select p o windowId = .ok windows
  windows_ne_nil : windows ≠ []
  equipped : ∃ prepared, prepare p windows = .ok (prepared, warnings)
    ∧ equip p o prepared = .ok e

/-- The document of windows that are ready. -/
def document (p : Project) (o : ExportOptions) : List ExportWindow → Except Fault String
  | [w] => do .ok (standalone w.fonts (← windowFiles (aloneSetting p o w) w.elements))
  | ws => together p o ws

theorem document_together {p : Project} {o : ExportOptions} {ws : List ExportWindow}
    (h : ∀ w, ws ≠ [w]) : document p o ws = together p o ws := by
  unfold document
  split
  next w => exact absurd rfl (h w)
  next => rfl

section Rendering

variable {p : Project} {o : ExportOptions} {windowId : Option String} {windows : List Window}
  {warnings : List String} {e : Equipment}

/-- The windows that are shown are the selected ones. -/
theorem Underway.windows_eq (h : Underway p o windowId windows warnings e) :
    e.windows.map ExportWindow.window = windows := by
  obtain ⟨prepared, hprepared, hequipped⟩ := h.equipped
  obtain ⟨names, hnames, hwindows⟩ := prepare_keeps hprepared
  have hpairs := (equip_keeps hequipped).1.trans hwindows
  have hlength : windows.length ≤ (Name.slugs names Name.defaultSlug).length := by
    rw [Name.length_slugs]
    exact Nat.le_of_eq ((mapM_eq_ok_iff _ _ _).mp hnames).length_eq
  have hfirst := congrArg (List.map Prod.fst) hpairs
  rw [List.map_map, List.map_fst_zip hlength] at hfirst
  exact hfirst

/-- **Windows that are ready are shown if their document can be made.** -/
theorem render_of_underway (h : Underway p o windowId windows warnings e) :
    render p o windowId
      = (do .ok ⟨← document p o e.windows, warnings ++ e.warnings⟩) := by
  obtain ⟨prepared, hprepared, hequipped⟩ := h.equipped
  have hsome : windows.isEmpty = false := by
    rw [List.isEmpty_eq_false_iff]
    exact h.windows_ne_nil
  rw [render, h.selected, ok_bind, hsome]
  show (prepare p windows >>= _) = _
  rw [hprepared, ok_bind]
  show (equip p o prepared >>= _) = _
  rw [hequipped, ok_bind]
  generalize e.windows = shown
  split
  next w =>
    rw [document]
    cases windowFiles (aloneSetting p o w) w.elements with
    | ok f => rfl
    | error cause => rfl
  next ws hseveral =>
    rw [document_together hseveral]

/-- A preview is only rendered of windows that are ready. -/
theorem underway_of_render {d : Document} (h : render p o windowId = .ok d) :
    ∃ windows warnings e, Underway p o windowId windows warnings e := by
  rw [render] at h
  obtain ⟨windows, hselected, h⟩ := (bind_eq_ok_iff _ _ _).mp h
  split at h
  · cases h
  next hne =>
  obtain ⟨⟨prepared, warnings⟩, hprepared, h⟩ := (bind_eq_ok_iff _ _ _).mp h
  obtain ⟨e, hequipped, h⟩ := (bind_eq_ok_iff _ _ _).mp h
  refine ⟨windows, warnings, e, hselected, ?_, prepared, hprepared, hequipped⟩
  rintro rfl
  exact hne rfl

end Rendering

/-! ## §2. The page of all windows. -/

/-- The stylesheet of a window with its fonts in it. -/
def sheetOf (w : ExportWindow) (f : WindowFiles) : String :=
  inlineFonts PageSetting.defaultFontPlace w.fonts f.stylesheet

/-- The setting of the component script of a page of several windows. -/
def componentSetting (o : ExportOptions) (ws : List ExportWindow) : PageSetting :=
  { PageSetting.ofWindow ((ws.map ExportWindow.window).headD default) with
    customScrollbars := o.customScrollbars }

/-- A window in the page of several, with its stylesheet confined. -/
def paneOf (w : ExportWindow) (f : WindowFiles) (sheet : String) : Pane where
  window := w.window
  slug := w.slug
  css := styleText sheet
  content := content f.page
  bindings := scriptText f.bindings

theorem pane_eq_ok_iff {w : ExportWindow} {f : WindowFiles} {q : Pane} :
    pane w f = .ok q ↔ ∃ sheet,
      Stylesheet.confined (sectionScope w.slug) (sheetOf w f) = .ok sheet ∧ paneOf w f sheet = q := by
  rw [pane, bind_eq_ok_iff]
  refine exists_congr fun sheet => and_congr_right fun _ => ?_
  constructor
  · intro h
    exact Except.ok.inj h
  · rintro rfl
    rfl

/-- The files of all windows of a page of several. -/
def AllMade (p : Project) (o : ExportOptions) (ws : List ExportWindow) (made : List WindowFiles) :
    Prop :=
  List.Forall₂ (fun w f => windowFiles (sharedSetting p o (links true ws) w) w.elements = .ok f)
    ws made

/-- The stylesheets of all windows, each confined to its section. -/
def AllConfined (ws : List ExportWindow) (made : List WindowFiles) (sheets : List String) : Prop :=
  List.Forall₂ (fun (w, f) sheet =>
    Stylesheet.confined (sectionScope w.slug) (sheetOf w f) = .ok sheet) (ws.zip made) sheets

/-- The windows of a page of several. -/
def panesOf (ws : List ExportWindow) (made : List WindowFiles) (sheets : List String) :
    List Pane :=
  List.zipWith (fun wf sheet => paneOf wf.1 wf.2 sheet) (ws.zip made) sheets

/-- Windows are put into one page iff each of their stylesheets can be confined. -/
theorem mapM_pane_eq_ok_iff {ws : List (ExportWindow × WindowFiles)} {panes : List Pane} :
    (ws.mapM fun (w, f) => pane w f) = .ok panes ↔ ∃ sheets,
      List.Forall₂ (fun (w, f) sheet =>
        Stylesheet.confined (sectionScope w.slug) (sheetOf w f) = .ok sheet) ws sheets
      ∧ panes = List.zipWith (fun wf sheet => paneOf wf.1 wf.2 sheet) ws sheets := by
  rw [mapM_eq_ok_iff]
  constructor
  · intro h
    induction h with
    | nil => exact ⟨[], .nil, rfl⟩
    | cons hpane _ ih =>
      obtain ⟨sheet, hsheet, rfl⟩ := pane_eq_ok_iff.mp hpane
      obtain ⟨sheets, hsheets, rfl⟩ := ih
      exact ⟨sheet :: sheets, .cons hsheet hsheets, rfl⟩
  · rintro ⟨sheets, hsheets, rfl⟩
    induction hsheets with
    | nil => exact .nil
    | cons hsheet _ ih => exact .cons (pane_eq_ok_iff.mpr ⟨_, hsheet, rfl⟩) ih

/-- **The page of several windows** is made if the files of each are, the component script of all
is, and each stylesheet can be confined to its section. -/
theorem together_eq_ok_iff {p : Project} {o : ExportOptions} {ws : List ExportWindow}
    {html : String} :
    together p o ws = .ok html ↔ ∃ made components sheets, AllMade p o ws made
      ∧ Script.components (componentSetting o ws) (ws.flatMap ExportWindow.elements) = .ok components
      ∧ AllConfined ws made sheets
      ∧ html = shell p.name.toText (panesOf ws made sheets) components := by
  rw [together, bind_eq_ok_iff]
  constructor
  · rintro ⟨made, hmade, h⟩
    obtain ⟨components, hcomponents, h⟩ := (bind_eq_ok_iff _ _ _).mp h
    obtain ⟨panes, hpanes, h⟩ := (bind_eq_ok_iff _ _ _).mp h
    obtain ⟨sheets, hsheets, rfl⟩ := mapM_pane_eq_ok_iff.mp hpanes
    exact ⟨made, components, sheets, (mapM_eq_ok_iff _ _ _).mp hmade, hcomponents, hsheets,
      (Except.ok.inj h).symm⟩
  · rintro ⟨made, components, sheets, hmade, hcomponents, hsheets, rfl⟩
    refine ⟨made, (mapM_eq_ok_iff _ _ _).mpr hmade, ?_⟩
    refine (bind_eq_ok_iff _ _ _).mpr ⟨components, hcomponents, ?_⟩
    exact (bind_eq_ok_iff _ _ _).mpr ⟨_, mapM_pane_eq_ok_iff.mpr ⟨sheets, hsheets, rfl⟩, rfl⟩

end ControlSurface.Preview
