/-
  ControlSurface.Proofs.Preview.Success
  ─────────────────────────────────────
  Which bundles can be previewed.  A preview makes the files of a bundle again in other settings,
  which succeeds whenever it did for the bundle.  The preview of one window asks for nothing more.
  That of several windows orders the elements of all of them together, and reads the stylesheet of
  each, which must not end inside a block (`previewed_iff`).
-/
import ControlSurface.Proofs.Layout.Nesting
import ControlSurface.Proofs.Page.Transfer
import ControlSurface.Proofs.Preview.Inlining
import ControlSurface.Proofs.Stylesheet.Closing

namespace ControlSurface.Script

open ControlSurface.Outcome ControlSurface.Layout

/-! ## §1. The component script of several windows. -/

/-- Where a component script is made, every element has its entry. -/
theorem binding?_of_components {s : PageSetting} {elements : List Element} {text : String}
    (h : components s elements = .ok text) : ∀ e ∈ elements, ∃ b, binding? e = .ok b := by
  obtain ⟨found, hfound, _⟩ := (bind_eq_ok_iff _ _ _).mp h
  obtain ⟨entries, hentries, _⟩ := (bind_eq_ok_iff _ _ _).mp hfound
  obtain ⟨ordered, hordered, hentries⟩ := (bind_eq_ok_iff _ _ _).mp hentries
  obtain ⟨bs, hbs, _⟩ := (bind_eq_ok_iff _ _ _).mp hentries
  intro e he
  exact exists_of_mapM hbs ((renderOrder_perm hordered).mem_iff.mpr he)

/-- **Elements with entries have a component script exactly when they have an order.** -/
theorem components_ok_iff {s : PageSetting} {elements : List Element}
    (h : ∀ e ∈ elements, ∃ b, binding? e = .ok b) :
    (∃ text, components s elements = .ok text) ↔ hasOrder [] elements = true := by
  have hfamilies : (∃ text, components s elements = .ok text)
      ↔ ∃ found, families elements = .ok found := exists_map_iff
  have hbindings : (∃ found, families elements = .ok found)
      ↔ ∃ entries, bindings [] elements = .ok entries := exists_map_iff
  rw [hfamilies, hbindings]
  constructor
  · rintro ⟨entries, hentries⟩
    obtain ⟨ordered, hordered, _⟩ := (bind_eq_ok_iff _ _ _).mp hentries
    unfold renderOrder at hordered
    split at hordered
    next horder => exact horder
    next => cases hordered
  · intro horder
    have hordered : renderOrder [] elements = .ok (ordered [] elements) := if_pos horder
    have hall : ∀ e ∈ ordered [] elements, ∃ b, binding? e = .ok b := fun e he =>
      h e ((renderOrder_perm hordered).mem_iff.mp he)
    obtain ⟨bs, hbs⟩ := exists_forall₂ hall
    rw [bindings, hordered, ok_bind]
    exact exists_map_iff.mpr ⟨bs, (mapM_eq_ok_iff _ _ _).mpr hbs⟩

end ControlSurface.Script

namespace ControlSurface.Preview

open ControlSurface.Bundle ControlSurface.Outcome

/-! ## §2. The files of a preview. -/

section Previewing

variable {p : Project} {o : ExportOptions} {windowId : Option String} {s : Bundle.Stages}

/-- The windows of a bundle are ready for a preview. -/
theorem underway_of_reached (h : Reached p o windowId s) :
    Underway p o windowId s.windows s.warnings s.equipment where
  selected := h.selected
  windows_ne_nil := h.windows_ne_nil
  equipped := ⟨s.prepared, h.prepared, h.equipped⟩

/-- The largest scale of a preview can be written. -/
theorem isOk_maxScale : maxScale.plain.isOk = true := by decide

/-- Files that were made for a window of a bundle can be made for its preview. -/
theorem exists_previewFiles {linked : List (String × WindowLink)} {place : String}
    {w : ExportWindow} {f : WindowFiles} {t : PageSetting}
    (halike : (setting p o linked place w).Alike t) (hmax : t.maxScale = maxScale)
    (h : windowFiles (setting p o linked place w) w.elements = .ok f) :
    ∃ g, windowFiles t w.elements = .ok g := by
  apply exists_of_isOk
  rw [← isOk_windowFiles halike ?_]
  · exact isOk_of_eq h
  · intro hresponsive
    rw [maxScale_of_windowFiles (halike.responsive.trans hresponsive) h, hmax, isOk_maxScale]

theorem alike_alone (p : Project) (o : ExportOptions) (linked : List (String × WindowLink))
    (place : String) (w : ExportWindow) :
    (setting p o linked place w).Alike (aloneSetting p o w) :=
  ⟨rfl, rfl, rfl, rfl, rfl⟩

theorem alike_shared (p : Project) (o : ExportOptions) (linked other : List (String × WindowLink))
    (place : String) (w : ExportWindow) :
    (setting p o linked place w).Alike (sharedSetting p o other w) :=
  ⟨rfl, rfl, rfl, rfl, rfl⟩

/-- Every window of a bundle has its files in a page of several. -/
theorem exists_sharedFiles (h : Reached p o windowId s) (linked : List (String × WindowLink)) :
    ∀ w ∈ s.equipment.windows, ∃ f, windowFiles (sharedSetting p o linked w) w.elements = .ok f := by
  intro w hw
  obtain ⟨f, hf⟩ := exists_of_forall₂ h.made w hw
  exact exists_previewFiles (alike_shared ..) rfl hf

/-! ## §3. Previews of bundles. -/

/-- The stylesheet that a window has among others, with its fonts in it, does not end inside a
block. -/
def SheetCloses (p : Project) (o : ExportOptions) (ws : List ExportWindow) (w : ExportWindow) :
    Prop :=
  ∃ css, Stylesheet.render (sharedSetting p o (links true ws) w) w.elements = .ok css
    ∧ Stylesheet.Closes (Stylesheet.lexemes
        (inlineFonts PageSetting.defaultFontPlace w.fonts css).toList)

/-- What the preview of several windows asks for beyond an export. -/
structure Combinable (p : Project) (o : ExportOptions) (ws : List ExportWindow) : Prop where
  /-- The elements of all windows together have an order. -/
  ordered : Layout.hasOrder [] (ws.flatMap ExportWindow.elements) = true
  /-- No stylesheet ends inside a block. -/
  closed : ∀ w ∈ ws, SheetCloses p o ws w

theorem stylesheet_of_windowFiles {t : PageSetting} {elements : List Element} {f : WindowFiles}
    (h : windowFiles t elements = .ok f) : Stylesheet.render t elements = .ok f.stylesheet := by
  obtain ⟨page, _, h⟩ := (bind_eq_ok_iff _ _ _).mp h
  obtain ⟨stylesheet, hstylesheet, h⟩ := (bind_eq_ok_iff _ _ _).mp h
  obtain ⟨components, _, h⟩ := (bind_eq_ok_iff _ _ _).mp h
  obtain ⟨bindings, _, h⟩ := (bind_eq_ok_iff _ _ _).mp h
  cases h
  exact hstylesheet

/-- A window is previewed alone if it was exported. -/
theorem exists_document_alone {w : ExportWindow} {linked : List (String × WindowLink)}
    {place : String} {f : WindowFiles}
    (h : windowFiles (setting p o linked place w) w.elements = .ok f) :
    ∃ html, document p o [w] = .ok html := by
  obtain ⟨g, hg⟩ := exists_previewFiles (alike_alone ..) rfl h
  rw [document, hg]
  exact ⟨_, rfl⟩

/-- The stylesheet of a window can be confined exactly when it ends outside blocks. -/
theorem sheetCloses_iff {ws : List ExportWindow} {w : ExportWindow} {f : WindowFiles}
    (h : windowFiles (sharedSetting p o (links true ws) w) w.elements = .ok f) :
    SheetCloses p o ws w
      ↔ ∃ sheet, Stylesheet.confined (sectionScope w.slug) (sheetOf w f) = .ok sheet := by
  rw [Stylesheet.confined_ok_iff, SheetCloses, stylesheet_of_windowFiles h]
  constructor
  · rintro ⟨css, hcss, hcloses⟩
    rw [← Except.ok.inj hcss] at hcloses
    exact hcloses
  · exact fun hcloses => ⟨_, rfl, hcloses⟩

theorem exists_allConfined_iff {ws : List ExportWindow} {made : List WindowFiles}
    (h : AllMade p o ws made) :
    (∃ sheets, AllConfined ws made sheets) ↔ ∀ w ∈ ws, SheetCloses p o ws w := by
  constructor
  · rintro ⟨sheets, hsheets⟩ w hw
    rw [← List.map_fst_zip (Nat.le_of_eq h.length_eq)] at hw
    obtain ⟨wf, hwf, rfl⟩ := List.mem_map.mp hw
    exact (sheetCloses_iff (List.forall₂_zip h hwf)).mpr (exists_of_forall₂ hsheets wf hwf)
  · intro hall
    refine exists_forall₂ fun wf hwf => ?_
    exact (sheetCloses_iff (List.forall₂_zip h hwf)).mp (hall wf.1 (List.of_mem_zip hwf).1)

/-- **The document of several windows can be made** exactly when they can be combined. -/
theorem together_ok_iff (h : Reached p o windowId s) :
    (∃ html, together p o s.equipment.windows = .ok html)
      ↔ Combinable p o s.equipment.windows := by
  obtain ⟨made, hmade⟩ := exists_forall₂ (exists_sharedFiles h (links true s.equipment.windows))
  have hentries : ∀ e ∈ s.equipment.windows.flatMap ExportWindow.elements,
      ∃ b, Script.binding? e = .ok b := by
    intro e he
    obtain ⟨w, hw, he⟩ := List.mem_flatMap.mp he
    obtain ⟨f, hf⟩ := exists_of_forall₂ hmade w hw
    exact Script.binding?_of_components (scripts_of_windowFiles hf).1 e he
  have hcomponents := Script.components_ok_iff
    (s := componentSetting o s.equipment.windows) hentries
  constructor
  · rintro ⟨html, hhtml⟩
    obtain ⟨found, text, sheets, hfound, htext, hsheets, _⟩ := together_eq_ok_iff.mp hhtml
    exact ⟨hcomponents.mp ⟨text, htext⟩, (exists_allConfined_iff hfound).mp ⟨sheets, hsheets⟩⟩
  · intro hcombinable
    obtain ⟨text, htext⟩ := hcomponents.mpr hcombinable.ordered
    obtain ⟨sheets, hsheets⟩ := (exists_allConfined_iff hmade).mpr hcombinable.closed
    exact ⟨_, together_eq_ok_iff.mpr ⟨made, text, sheets, hmade, htext, hsheets, rfl⟩⟩

theorem render_ok_iff (h : Reached p o windowId s) :
    (∃ d, render p o windowId = .ok d)
      ↔ (s.several = true → Combinable p o s.equipment.windows) := by
  have hlength := h.length_equipped
  rw [render_of_underway (underway_of_reached h), exists_map_iff]
  cases hseveral : s.several with
  | false =>
    have hone : s.equipment.windows.length = 1 := by
      have hle : s.windows.length ≤ 1 := Nat.le_of_not_lt (of_decide_eq_false hseveral)
      have hpos := List.length_pos_of_ne_nil h.windows_ne_nil
      omega
    obtain ⟨w, hw⟩ := List.length_eq_one_iff.mp hone
    obtain ⟨f, hf⟩ := exists_of_forall₂ h.made w (by simp [hw])
    rw [hw]
    exact iff_of_true (exists_document_alone hf) fun hfalse => nomatch hfalse
  | true =>
    have hmore : 1 < s.windows.length := of_decide_eq_true hseveral
    have hnone : ∀ w, s.equipment.windows ≠ [w] := by
      intro w hw
      rw [hw, List.length_singleton] at hlength
      omega
    rw [document_together hnone, together_ok_iff h]
    exact ⟨fun hall _ => hall, fun hall => hall rfl⟩

end Previewing

/-- **Which bundles can be previewed**: those of one window, and those of several windows whose
elements have an order together and whose stylesheets all end outside blocks. -/
theorem previewed_iff {p : Project} {o : ExportOptions} {windowId : Option String} {a : Assembly}
    (h : assemble p o windowId = .ok a) :
    ∃ s, Reached p o windowId s
      ∧ ((∃ d, render p o windowId = .ok d)
        ↔ (s.several = true → Combinable p o s.equipment.windows)) := by
  obtain ⟨s, hs, _⟩ := stages_of_assemble h
  exact ⟨s, hs, render_ok_iff hs⟩

/-! ## §4. Two windows. -/

/-- A window that shows nothing, in a colour. -/
def coloredWindow (name color : String) : Window :=
  { emptyWindow name with backgroundColor := .text color }

/-- A project of two windows that show nothing, one of them in a given colour. -/
def twoWindows (color : String) : Project :=
  { emptyProject [] with windows := [coloredWindow "Main" "#000", coloredWindow "Side" color] }

/-- What these windows become. -/
def readyWindows (color : String) : List ExportWindow :=
  [⟨coloredWindow "Main" "#000", "main", [], [], []⟩,
    ⟨coloredWindow "Side" color, "side", [], [], []⟩]

theorem prepare_two (color : String) :
    prepare (twoWindows color) (twoWindows color).windows = .ok (readyWindows color, []) := by
  have hslugs : Name.slugs ["Main", "Side"] Name.defaultSlug = ["main", "side"] := by
    decide
  have hslugged : withSlugs (twoWindows color).windows
      = .ok [(coloredWindow "Main" "#000", "main"), (coloredWindow "Side" color, "side")] := by
    show Except.ok (List.zip _ (Name.slugs ["Main", "Side"] Name.defaultSlug)) = _
    rw [hslugs]
    rfl
  have hresolve : ∀ name shade,
      Layout.resolve (twoWindows color).elements (coloredWindow name shade) = [] := by
    intro name shade
    simp [Layout.resolve, twoWindows, emptyProject, coloredWindow, emptyWindow, Layout.visit]
  rw [prepare, hslugged]
  show (inspect _ _ _ [(_, _), (_, _)] >>= _) = _
  rw [inspect, inspect, inspect, Layout.shownBy_of_hasKeys rfl, Layout.shownBy_of_hasKeys rfl,
    hresolve, hresolve]
  rfl

theorem equip_two (color : String) :
    equip (twoWindows color) plainOptions (readyWindows color)
      = .ok ⟨readyWindows color, [], [], []⟩ := by
  have hused : Font.used [] = [] := by simp [Font.used, Font.sortedOnce]
  have hfamilies : usedFamilies (readyWindows color) = [] := by
    simp [usedFamilies, readyWindows, hused, Font.sortedOnce]
  have hfonts : fontsOf [] [] = [] := by
    rw [fontsOf, hused]
    rfl
  have hwindow : ∀ w ∈ readyWindows color,
      equipWindow plainOptions [] w = .ok (w, ⟨[], [], []⟩) := by
    intro w hw
    simp only [readyWindows, List.mem_cons, List.not_mem_nil, or_false] at hw
    rcases hw with rfl | rfl
    · rw [equipWindow, hfonts]
      rfl
    · rw [equipWindow, hfonts]
      rfl
  have hall : (readyWindows color).mapM (equipWindow plainOptions [])
      = .ok ((readyWindows color).map fun w => (w, ⟨[], [], []⟩)) := by
    rw [mapM_eq_ok_iff, List.forall₂_map_right_iff, List.forall₂_same]
    exact hwindow
  have hshipped : Font.resolve [] (twoWindows color).fonts = .ok ([], []) := rfl
  rw [equip, hfamilies, hshipped, ok_bind]
  show (List.mapM (equipWindow plainOptions []) (readyWindows color) >>= _) = _
  rw [hall]
  rfl

theorem assemble_two {color : String} (h : color = "#000" ∨ color = "\x7b") :
    ∃ a, assemble (twoWindows color) plainOptions none = .ok a := by
  refine exists_of_isOk ?_
  rw [assemble]
  show (prepare _ (twoWindows color).windows >>= _).isOk = true
  rw [prepare_two]
  rcases h with rfl | rfl
  · decide +kernel
  · decide +kernel

theorem windows_two {color : String} {s : Bundle.Stages}
    (h : Reached (twoWindows color) plainOptions none s) :
    s.several = true ∧ s.equipment.windows = readyWindows color := by
  have hwindows : (twoWindows color).windows = s.windows := Except.ok.inj h.selected
  have hprepared := h.prepared
  rw [← hwindows, prepare_two] at hprepared
  have hready : readyWindows color = s.prepared := congrArg Prod.fst (Except.ok.inj hprepared)
  have hequipped := h.equipped
  rw [← hready, equip_two] at hequipped
  constructor
  · rw [Bundle.Stages.several, ← hwindows]
    rfl
  · rw [← Except.ok.inj hequipped]

/-- The sections of the page and the container of a window in a colour. -/
def colorSections (color : String) : List Stylesheet.Section :=
  ((Stylesheet.rootSections (coloredWindow "" color) false).toOption).getD []

/-- The stylesheet of a window in a colour that shows nothing. -/
def colorSheet (color : String) : List Char :=
  Stylesheet.sheetChars
    ([Stylesheet.resetSection] ++ colorSections color ++ [Stylesheet.baseSection]) ++ ['\n']

theorem render_colored {t : PageSetting} {name color : String}
    (hwindow : t.window = coloredWindow name color) (hfonts : t.fonts = [])
    (hresponsive : t.responsive = false) :
    ∃ css, Stylesheet.render t [] = .ok css ∧ css.toList = colorSheet color := by
  have hroot : Stylesheet.rootSections t.window t.responsive = .ok (colorSections color) := by
    rw [hwindow, hresponsive]
    rfl
  have hown : Stylesheet.elementSections t [] = .ok [] := by
    simp [Stylesheet.elementSections, Layout.renderOrder, Layout.hasOrder, Layout.ordered, ok_bind]
  refine Stylesheet.exists_render ?_
  rw [Stylesheet.sections, hroot, ok_bind, hown, ok_bind, Stylesheet.fontSections, hfonts]
  simp [Stylesheet.families]

theorem sheetCloses_colored {p : Project} {ws : List ExportWindow} {name color slug : String} :
    SheetCloses p plainOptions ws ⟨coloredWindow name color, slug, [], [], []⟩
      ↔ Stylesheet.Closes (Stylesheet.lexemes (colorSheet color)) := by
  obtain ⟨css, hcss, hchars⟩ := render_colored
    (t := sharedSetting p plainOptions (links true ws) ⟨coloredWindow name color, slug, [], [], []⟩)
    rfl rfl rfl
  rw [← hchars]
  constructor
  · rintro ⟨found, hfound, hcloses⟩
    rw [← Except.ok.inj (hcss.symm.trans hfound)] at hcloses
    exact hcloses
  · exact fun hcloses => ⟨css, hcss, hcloses⟩

/-- Where the sheet of a black window ends, and that of a window with a brace for a colour. -/
theorem colorSheet_ends :
    Stylesheet.Position.after .between (Stylesheet.lexemes (colorSheet "#000")) = .between
      ∧ Stylesheet.Position.after .between (Stylesheet.lexemes (colorSheet "\x7b"))
        = .inside 1 := by
  decide +kernel

theorem colorSheet_closes : Stylesheet.Closes (Stylesheet.lexemes (colorSheet "#000")) := by
  intro blocks
  rw [colorSheet_ends.1]
  exact Stylesheet.Position.noConfusion

/-- A brace in the colour opens a block, in the rule of the page and in that of the container. -/
theorem colorSheet_open : ¬ Stylesheet.Closes (Stylesheet.lexemes (colorSheet "\x7b")) :=
  fun hcloses => hcloses 1 colorSheet_ends.2

/-- Two windows in plain colours are exported and previewed. -/
theorem plainColor_previewed :
    (∃ a, assemble (twoWindows "#000") plainOptions none = .ok a)
      ∧ ∃ d, render (twoWindows "#000") plainOptions none = .ok d := by
  obtain ⟨a, ha⟩ := assemble_two (Or.inl rfl)
  obtain ⟨s, hs, hpreviewed⟩ := previewed_iff ha
  refine ⟨⟨a, ha⟩, hpreviewed.mpr fun _ => ?_⟩
  rw [(windows_two hs).2]
  refine ⟨rfl, fun w hw => ?_⟩
  simp only [readyWindows, List.mem_cons, List.not_mem_nil, or_false] at hw
  rcases hw with rfl | rfl
  · exact sheetCloses_colored.mpr colorSheet_closes
  · exact sheetCloses_colored.mpr colorSheet_closes

/-- Two windows, one of which has a brace for a colour, are exported but have no preview. -/
theorem braceColor_not_previewed :
    (∃ a, assemble (twoWindows "\x7b") plainOptions none = .ok a)
      ∧ ¬ ∃ d, render (twoWindows "\x7b") plainOptions none = .ok d := by
  obtain ⟨a, ha⟩ := assemble_two (Or.inr rfl)
  obtain ⟨s, hs, _⟩ := stages_of_assemble ha
  refine ⟨⟨a, ha⟩, fun hpreviewed => ?_⟩
  obtain ⟨hseveral, hwindows⟩ := windows_two hs
  have hcloses := ((render_ok_iff hs).mp hpreviewed hseveral).closed
  rw [hwindows] at hcloses
  have hside := hcloses _ (List.mem_cons_of_mem _ (List.mem_cons_self ..))
  exact colorSheet_open (sheetCloses_colored.mp hside)

end ControlSurface.Preview
