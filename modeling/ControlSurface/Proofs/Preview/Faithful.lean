/-
  ControlSurface.Proofs.Preview.Faithful
  ──────────────────────────────────────
  The preview of one window shows what is exported.  Both get the window ready in the same way, and
  the settings that they make its files in differ in links and largest scale only, which reach
  nothing but its script.

  Main result:
    * `preview_shows_export` — preview and export of a window fail with one fault, before anything
      is made or while it is, or both succeed with the same warnings, and the files that the preview
      inlines are those of the bundle, but for the navigation and the largest scale in one of them.
-/
import ControlSurface.Proofs.Bundle.Navigation
import ControlSurface.Proofs.Layout.Nesting
import ControlSurface.Proofs.Page.Transfer
import ControlSurface.Proofs.Preview.Stages

namespace ControlSurface.Preview

open ControlSurface.Bundle ControlSurface.Outcome
open ControlSurface.Script (navigation)

/-! ## §1. Getting a window ready. -/

/-- What is done with a window before anything is made for it: it is checked, and gets its graphics
and fonts. -/
def ready (p : Project) (o : ExportOptions) (w : Window) :
    Except Fault (List String × Equipment) := do
  let (prepared, warnings) ← prepare p [w]
  let e ← equip p o prepared
  .ok (warnings, e)

section Alone

variable {p : Project} {o : ExportOptions} {w : Window} {windowId : String}

theorem select_of_window? (h : p.window? windowId = some w) :
    select p o (some windowId) = .ok [w] := by
  rw [select, h]

/-- A window that cannot be made ready is neither exported nor previewed, for one reason. -/
theorem fault_of_ready (h : p.window? windowId = some w) {f : Fault} (hready : ready p o w = .error f) :
    assemble p o (some windowId) = .error f ∧ render p o (some windowId) = .error f := by
  rw [assemble, render, select_of_window? h]
  show (prepare p [w] >>= _) = _ ∧ (prepare p [w] >>= _) = _
  unfold ready at hready
  cases hprepared : prepare p [w] with
  | error cause =>
    rw [hprepared] at hready
    cases hready
    exact ⟨rfl, rfl⟩
  | ok found =>
    obtain ⟨prepared, warnings⟩ := found
    rw [hprepared, ok_bind] at hready
    rw [ok_bind, ok_bind]
    cases hequipped : equip p o prepared with
    | error cause =>
      dsimp only at hready ⊢
      rw [hequipped] at hready ⊢
      cases hready
      exact ⟨rfl, rfl⟩
    | ok e =>
      dsimp only at hready
      rw [hequipped] at hready
      cases hready

theorem underway_of_ready (h : p.window? windowId = some w) {warnings : List String} {e : Equipment}
    (hready : ready p o w = .ok (warnings, e)) :
    Underway p o (some windowId) [w] warnings e := by
  obtain ⟨⟨prepared, found⟩, hprepared, hready⟩ := (bind_eq_ok_iff _ _ _).mp hready
  obtain ⟨e', hequipped, hready⟩ := (bind_eq_ok_iff _ _ _).mp hready
  cases hready
  exact ⟨select_of_window? h, List.cons_ne_nil _ _, prepared, hprepared, hequipped⟩

/-- The windows that are ready are the one that was asked for. -/
theorem exists_alone {warnings : List String} {e : Equipment}
    (h : Underway p o (some windowId) [w] warnings e) : ∃ v, e.windows = [v] ∧ v.window = w :=
  List.map_eq_singleton_iff.mp h.windows_eq

end Alone

/-! ## §2. What is made of it. -/

/-- The setting of a window that is exported alone. -/
def exportSetting (p : Project) (o : ExportOptions) (v : ExportWindow) : PageSetting :=
  setting p o (links false [v]) (fontPlace false) v

/-- The settings of export and preview differ in links and largest scale. -/
theorem aloneSetting_eq (p : Project) (o : ExportOptions) (v : ExportWindow) :
    aloneSetting p o v = (exportSetting p o v).relinked [] maxScale := rfl

/-- A number has a plain text. -/
theorem exists_plain_of_num {v : Value} {n : Num} (h : v.num = .ok n) : ∃ t, v.plain = .ok t := by
  cases v with
  | bool b => exact ⟨_, rfl⟩
  | int i => exact ⟨_, rfl⟩
  | float x =>
    have hplaces : (Value.int Value.defaultPlaces).places = .ok Value.defaultPlaces := by
      decide
    unfold Value.plain Value.plainTo Value.fixed
    dsimp only
    rw [hplaces]
    exact ⟨_, rfl⟩
  | _ => cases h

/-- The number of the largest scale of a preview. -/
theorem plain_maxScale : maxScale.plain = .ok "1" := by decide

/-- The files of a bundle of one window before the guide is added. -/
def filesAlone (o : ExportOptions) (v : ExportWindow) (made : WindowFiles)
    (shipped : List BundledFont) : Files :=
  Keyed.ofList (windowEntries o false v.slug made ++ fontEntries shipped)

/-- A bundle of one window. -/
def assemblyAlone (o : ExportOptions) (v : ExportWindow) (made : WindowFiles)
    (warnings : List String) (e : Equipment) (g : Guide) : Assembly where
  files := Keyed.put Guide.file (.text g.text) (filesAlone o v made e.shipped)
  windows := [v.window.name]
  warnings := warnings ++ e.warnings
  savings := savings e.results

/-- The bundle of a window that is ready: its files are made, then the guide. -/
theorem assemble_alone {p : Project} {o : ExportOptions} {windowId : Option String} {w : Window}
    {warnings : List String} {e : Equipment} {v : ExportWindow}
    (h : Underway p o windowId [w] warnings e) (hv : e.windows = [v]) :
    assemble p o windowId = (do
      let made ← windowFiles (exportSetting p o v) v.elements
      let g ← guide p o (links false [v])
        (Keyed.keys (filesAlone o v made e.shipped) ++ [Guide.file]) [v]
      .ok (assemblyAlone o v made warnings e g)) := by
  obtain ⟨prepared, hprepared, hequipped⟩ := h.equipped
  have hone : prepared.length = 1 := by
    have hlength := congrArg List.length (equip_keeps hequipped).1
    rw [hv, List.length_map, List.length_map] at hlength
    exact hlength.symm
  rw [assemble, h.selected]
  show (prepare p [w] >>= _) = _
  rw [hprepared, ok_bind]
  dsimp only
  have hseveral : decide (1 < 1) = false := rfl
  rw [hequipped, ok_bind, hone, hv, hseveral, List.mapM_cons, List.mapM_nil]
  dsimp only [exportSetting]
  cases windowFiles (setting p o (links false [v]) (fontPlace false) v) v.elements with
  | error f => rfl
  | ok made =>
    show (guide p o _ (Keyed.keys (Keyed.ofList ((windowEntries o false v.slug made ++ []) ++ _)) ++ _)
      _ >>= _) = _
    rw [List.append_nil]
    rfl

/-! ## §3. The guide never stops an export. -/

theorem exists_parameterRow {known : Option (List String)} {e : Element}
    (h : Check.Checkable known e) : ∃ rows, parameterRow e = .ok rows := by
  obtain ⟨name, hname⟩ := h.name
  unfold parameterRow
  cases hbindable : e.kind.bindable with
  | false => exact ⟨_, rfl⟩
  | true =>
    obtain ⟨given, hgiven⟩ := h.parameter hbindable
    have hparameter : ∃ parameter, Markup.parameterId e = .ok parameter := by
      unfold Markup.parameterId
      rw [hgiven, ok_bind, Element.domId_eq hname]
      dsimp only
      split <;> exact ⟨_, rfl⟩
    obtain ⟨parameter, hparameter⟩ := hparameter
    rw [Element.domId_eq hname, hparameter]
    exact ⟨_, rfl⟩

theorem exists_openingRow {ids : List String} {linked : List (String × WindowLink)} {e : Element}
    (h : Check.Checkable (some ids) e) : ∃ rows, openingRow linked e = .ok rows := by
  obtain ⟨name, hname⟩ := h.name
  unfold openingRow
  cases hopens : Check.opensWindow e with
  | false => exact ⟨_, rfl⟩
  | true =>
    have hkey := h.target ids rfl hopens
    rw [Element.domId_eq hname]
    simp only [Bool.not_true, Bool.false_eq_true, if_false]
    split
    next id htarget =>
      split <;> exact ⟨_, rfl⟩
    next htarget =>
      rw [if_pos hkey]
      exact ⟨_, rfl⟩

/-- The guide can be written to a window that was checked and whose elements have an order. -/
theorem exists_guide {p : Project} (o : ExportOptions) {ids : List String}
    (linked : List (String × WindowLink)) {v : ExportWindow}
    (hchecked : ∀ e ∈ v.elements, Check.Checkable (some ids) e)
    (horder : ∃ ordered, Layout.renderOrder p.orderedLayers v.elements = .ok ordered)
    (names : List String) : ∃ g, guide p o linked names [v] = .ok g := by
  obtain ⟨ordered, hordered⟩ := horder
  have hmem : ∀ e ∈ ordered, e ∈ v.elements := fun e he =>
    (Layout.renderOrder_perm hordered).mem_iff.mp he
  have hparameter : ∀ e ∈ ordered, ∃ rows, parameterRow e = .ok rows := fun e he =>
    exists_parameterRow (hchecked e (hmem e he))
  have hopening : ∀ e ∈ ordered, ∃ rows, openingRow linked e = .ok rows := fun e he =>
    exists_openingRow (hchecked e (hmem e he))
  obtain ⟨parameters, hparameters⟩ := exists_forall₂ hparameter
  obtain ⟨openings, hopenings⟩ := exists_forall₂ hopening
  have htold : ∃ told, guideWindow p.orderedLayers linked v = .ok told := by
    unfold guideWindow
    rw [hordered, ok_bind, (mapM_eq_ok_iff _ _ _).mpr hparameters, ok_bind,
      (mapM_eq_ok_iff _ _ _).mpr hopenings]
    exact ⟨_, rfl⟩
  obtain ⟨told, htold⟩ := htold
  unfold guide
  rw [List.mapM_cons, List.mapM_nil, htold]
  exact ⟨_, rfl⟩

/-- Elements whose files are made have an order. -/
theorem exists_order_of_windowFiles {s : PageSetting} {elements : List Element} {f : WindowFiles}
    (h : windowFiles s elements = .ok f) :
    ∃ ordered, Layout.renderOrder s.layers elements = .ok ordered := by
  obtain ⟨_, _, h⟩ := (bind_eq_ok_iff _ _ _).mp h
  obtain ⟨_, _, h⟩ := (bind_eq_ok_iff _ _ _).mp h
  obtain ⟨_, _, h⟩ := (bind_eq_ok_iff _ _ _).mp h
  obtain ⟨bindings, hbindings, _⟩ := (bind_eq_ok_iff _ _ _).mp h
  obtain ⟨name, _, hbindings⟩ := (bind_eq_ok_iff _ _ _).mp hbindings
  obtain ⟨entries, hentries, _⟩ := (bind_eq_ok_iff _ _ _).mp hbindings
  obtain ⟨ordered, hordered, _⟩ := (bind_eq_ok_iff _ _ _).mp hentries
  exact ⟨ordered, hordered⟩

/-- A window that is ready was checked. -/
theorem checkable_of_underway {p : Project} {o : ExportOptions} {windowId : Option String}
    {w : Window} {warnings : List String} {e : Equipment} {v : ExportWindow}
    (h : Underway p o windowId [w] warnings e) (hv : e.windows = [v]) :
    ∀ x ∈ v.elements, Check.Checkable (some [w.id]) x := by
  obtain ⟨prepared, hprepared, hequipped⟩ := h.equipped
  obtain ⟨u, hu, hready⟩ := exists_prepared hequipped v (by simp [hv])
  obtain ⟨r, hr⟩ := checked_of_prepare hprepared u hu
  have helements : v.elements = u.elements := by
    rw [hready]
  rw [helements]
  exact Check.check_ok_iff.mp ⟨r, hr.report⟩

/-! ## §4. The files. -/

/-- A file of a window that is exported alone stands in the bundle as it was made. -/
theorem find?_assemblyAlone {o : ExportOptions} {v : ExportWindow} {made : WindowFiles}
    {warnings : List String} {e : Equipment} {g : Guide} {name : String} {content : Content}
    (h : (name, content) ∈ windowEntries o false v.slug made) :
    Keyed.find? name (assemblyAlone o v made warnings e g).files = some content := by
  have hkeys : Keyed.keys (windowEntries o false v.slug made) = fileNames := by
    rw [keys_windowEntries]
    show fileNames.map (fun name => "" ++ name) = fileNames
    decide
  have hname : name ∈ fileNames := hkeys ▸ Keyed.mem_keys h
  have hguide : name ≠ Guide.file := by
    have hall : ∀ name ∈ fileNames, name ≠ Guide.file := by decide
    exact hall name hname
  have hfont : name ∉ Keyed.keys (fontEntries e.shipped) := by
    intro hmem
    rw [keys_fontEntries] at hmem
    obtain ⟨font, _, hpath⟩ := List.mem_map.mp hmem
    have hplain : ∀ name ∈ fileNames, '/' ∉ name.toList := by decide
    exact hplain name hname (hpath ▸ slash_mem_pathOf _)
  rw [assemblyAlone, Keyed.find?_put, if_neg hguide, filesAlone, Keyed.ofList, Keyed.putAll,
    List.foldl_append]
  show Keyed.find? name (Keyed.putAll (Keyed.putAll [] _) _) = _
  rw [Keyed.find?_putAll_of_not_mem hfont]
  exact Keyed.find?_putAll_of_mem (by rw [hkeys]; decide) h

/-- A bundle and a preview of one window that show the same.  `f` are the files that are made for
the bundle, `g` those that the preview inlines. -/
structure ShowsSame (p : Project) (o : ExportOptions) (v : ExportWindow) (f g : WindowFiles)
    (a : Assembly) (d : Document) : Prop where
  /-- The same is reported. -/
  warnings : a.warnings = d.warnings
  /-- The files of the bundle. -/
  page : Keyed.find? "index.html" a.files = some (.text f.page)
  stylesheet : Keyed.find? "style.css" a.files = some (.text f.stylesheet)
  components : Keyed.find? "components.js" a.files = some (.text f.components)
  bindings : Keyed.find? "bindings.js" a.files = some (.text f.bindings)
  /-- The document of the preview. -/
  html : d.html = standalone v.fonts g
  /-- The files are the same, but for the navigation and the largest scale in a script. -/
  same : ∃ largest, o.maxScale.plain = .ok largest
    ∧ SameFiles (navigation (links false [v])) (navigation []) largest "1" o.responsive f g

/-- **The preview shows what is exported.**  For a window of a project and options for a host, either
the window cannot be made ready, and neither is exported nor previewed; or its files cannot be made,
for the export and for the preview alike; or both succeed and show the same.  The fault is one and
the same each time. -/
theorem preview_shows_export {p : Project} {o : ExportOptions} {windowId : String} {w : Window}
    (hwindow : p.window? windowId = some w) (hhost : o.target = .host)
    (hnumber : ∃ n, o.maxScale.num = .ok n) :
    (∃ fault, ready p o w = .error fault ∧ assemble p o (some windowId) = .error fault
        ∧ render p o (some windowId) = .error fault)
      ∨ ∃ warnings e v, ready p o w = .ok (warnings, e) ∧ e.windows = [v] ∧ v.window = w
        ∧ ((∃ fault, windowFiles (exportSetting p o v) v.elements = .error fault
            ∧ windowFiles (aloneSetting p o v) v.elements = .error fault
            ∧ assemble p o (some windowId) = .error fault
            ∧ render p o (some windowId) = .error fault)
          ∨ ∃ f g a d, windowFiles (exportSetting p o v) v.elements = .ok f
            ∧ windowFiles (aloneSetting p o v) v.elements = .ok g
            ∧ assemble p o (some windowId) = .ok a ∧ render p o (some windowId) = .ok d
            ∧ ShowsSame p o v f g a d) := by
  cases hready : ready p o w with
  | error fault => exact Or.inl ⟨fault, rfl, fault_of_ready hwindow hready⟩
  | ok found =>
    obtain ⟨warnings, e⟩ := found
    have hunder := underway_of_ready hwindow hready
    obtain ⟨v, hv, hshown⟩ := exists_alone hunder
    refine Or.inr ⟨warnings, e, v, rfl, hv, hshown, ?_⟩
    obtain ⟨n, hn⟩ := hnumber
    obtain ⟨largest, hlargest⟩ := exists_plain_of_num hn
    have hrender := render_of_underway hunder
    rw [hv, document] at hrender
    rw [assemble_alone hunder hv, hrender]
    -- the settings of both differ in what reaches nothing but the script
    have hagree := agree_windowFiles (exportSetting p o v) [] maxScale hlargest plain_maxScale
      v.elements
    rw [← aloneSetting_eq] at hagree
    rcases hagree.fault_or_both with ⟨fault, hexport, hpreview⟩ | ⟨f, g, hexport, hpreview, hsame⟩
    · refine Or.inl ⟨fault, hexport, hpreview, ?_, ?_⟩
      · rw [hexport]
        rfl
      · rw [hpreview]
        rfl
    · have horder := exists_order_of_windowFiles hexport
      obtain ⟨told, htold⟩ := exists_guide o (links false [v])
        (checkable_of_underway hunder hv) horder
        (Keyed.keys (filesAlone o v f e.shipped) ++ [Guide.file])
      refine Or.inr ⟨f, g, assemblyAlone o v f warnings e told,
        ⟨standalone v.fonts g, warnings ++ e.warnings⟩, hexport, hpreview, ?_, ?_, ?_⟩
      · rw [hexport, ok_bind, htold]
        rfl
      · rw [hpreview]
        rfl
      · exact
          { warnings := rfl
            page := find?_assemblyAlone (List.mem_cons_self ..)
            stylesheet := find?_assemblyAlone (by simp [windowEntries, directory])
            components := find?_assemblyAlone (by simp [windowEntries, directory])
            bindings := find?_assemblyAlone (by simp [windowEntries, directory, bindingsFor, hhost])
            html := rfl
            same := ⟨largest, hlargest, hsame⟩ }

/-! ## §5. A count with so many decimal places. -/

/-- A number with buttons to step it. -/
def counter (places : Int) : Element :=
  ⟨.stepper, Element.assign .stepper
    [("id", .text "a"), ("name", .text "Count"), ("parameter_id", .text "count"),
      ("decimal_places", .int places)]⟩

/-- A project whose only window shows one. -/
def counterProject (places : Int) : Project :=
  { name := .text "Synth", elements := [counter places], windows := [Layout.listing ["a"]]
    layers := [], fonts := [] }

/-- What the window of the project becomes. -/
def counterWindow (places : Int) : ExportWindow :=
  ⟨Layout.listing ["a"], "main", [counter places], [], []⟩

theorem window?_counterProject (places : Int) :
    (counterProject places).window? "main" = some (Layout.listing ["a"]) := rfl

theorem resolve_counterProject (places : Int) :
    Layout.resolve (counterProject places).elements (Layout.listing ["a"]) = [counter places] := by
  have hnamed : Layout.NamedByText (counterProject places).elements := fun e he => by
    rw [List.mem_singleton.mp he]
    exact ⟨"a", rfl⟩
  exact Layout.resolve_alone hnamed rfl rfl rfl

/-- Such an element needs no font and no graphic. -/
theorem equip_counterProject (places : Int) :
    equip (counterProject places) plainOptions [counterWindow places]
      = .ok ⟨[counterWindow places], [], [], []⟩ := by
  have hused : Font.used [counter places] = [] := by
    simp [Font.used, Font.sortedOnce, show (counter places).kind.fontField? = none from rfl]
  have hfamilies : usedFamilies [counterWindow places] = [] := by
    simp [usedFamilies, counterWindow, hused, Font.sortedOnce]
  have hfonts : fontsOf [] [counter places] = [] := by
    rw [fontsOf, hused]
    rfl
  have hwindow : equipWindow plainOptions [] (counterWindow places)
      = .ok (counterWindow places, ⟨[], [], []⟩) := by
    rw [equipWindow, counterWindow, hfonts]
    rfl
  have hshipped : Font.resolve [] (counterProject places).fonts = .ok ([], []) := rfl
  rw [equip, hfamilies, hshipped, ok_bind]
  dsimp only
  rw [List.mapM_cons, List.mapM_nil, hwindow]
  rfl

/-- The checks do not read decimal places. -/
theorem ready_counterProject (places : Int) :
    ready (counterProject places) plainOptions (Layout.listing ["a"])
      = .ok ([], ⟨[counterWindow places], [], [], []⟩) := by
  have hslugs : Name.slugs ["Main"] Name.defaultSlug = ["main"] := by decide
  have hslugged : withSlugs [Layout.listing ["a"]] = .ok [(Layout.listing ["a"], "main")] := by
    show Except.ok (List.zip _ (Name.slugs ["Main"] Name.defaultSlug)) = _
    rw [hslugs]
    rfl
  have hprepared : prepare (counterProject places) [Layout.listing ["a"]]
      = .ok ([counterWindow places], []) := by
    rw [prepare, hslugged]
    show (inspect _ _ _ [(_, _)] >>= _) = _
    rw [inspect, inspect, Layout.shownBy_of_hasKeys rfl, resolve_counterProject]
    rfl
  rw [ready, hprepared, ok_bind]
  dsimp only
  rw [equip_counterProject]
  rfl

/-- A count without decimal places is shown as it is exported. -/
theorem counter_shown :
    ∃ f g a d, assemble (counterProject 0) plainOptions (some "main") = .ok a
      ∧ render (counterProject 0) plainOptions (some "main") = .ok d
      ∧ ShowsSame (counterProject 0) plainOptions (counterWindow 0) f g a d := by
  obtain ⟨fault, hfails, _⟩ | ⟨warnings, e, v, hready, hv, _, hmade⟩ :=
    preview_shows_export (window?_counterProject 0) (o := plainOptions) rfl ⟨_, rfl⟩
  · rw [ready_counterProject] at hfails
    cases hfails
  · rw [ready_counterProject] at hready
    cases hready
    cases hv
    obtain ⟨fault, hfails, _⟩ | ⟨f, g, a, d, _, _, ha, hd, hsame⟩ := hmade
    · have hok : (windowFiles (exportSetting (counterProject 0) plainOptions (counterWindow 0))
          (counterWindow 0).elements).isOk = true := by decide +kernel
      rw [hfails] at hok
      cases hok
    · exact ⟨f, g, a, d, ha, hd, hsame⟩

/-- A window cannot be made ready, or it is both exported and previewed, with the same warnings. -/
def FailsEarlyOrShows (p : Project) (o : ExportOptions) (windowId : String) (w : Window) : Prop :=
  (∃ fault, ready p o w = .error fault)
    ∨ ∃ a d, assemble p o (some windowId) = .ok a ∧ render p o (some windowId) = .ok d
      ∧ a.warnings = d.warnings

/-- A count with less than no decimal places passes the checks and stops what is made of it. -/
theorem counter_failsLate :
    (counterProject (-1)).window? "main" = some (Layout.listing ["a"])
      ∧ plainOptions.target = .host
      ∧ ¬ FailsEarlyOrShows (counterProject (-1)) plainOptions "main" (Layout.listing ["a"]) := by
  refine ⟨rfl, rfl, ?_⟩
  rintro (⟨fault, hfails⟩ | ⟨a, d, _, hd, _⟩)
  · rw [ready_counterProject] at hfails
    cases hfails
  · rw [render_of_underway (underway_of_ready (window?_counterProject (-1))
      (ready_counterProject (-1)))] at hd
    have hfails : (document (counterProject (-1)) plainOptions
        [counterWindow (-1)]).isOk = false := by decide +kernel
    obtain ⟨html, hhtml, _⟩ := (bind_eq_ok_iff _ _ _).mp hd
    rw [hhtml] at hfails
    cases hfails

end ControlSurface.Preview
