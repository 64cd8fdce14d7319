/-
  ControlSurface.Proofs.Bundle.Navigation
  ───────────────────────────────────────
  Where the buttons of a bundle lead.  Three parts of an export decide about it on their own: the
  checks warn of targets that are not known, the script of a window carries a map of where the
  windows are found, and the pages stand under the paths that their windows get.

  Main result:
    * `navigation_agrees` — in every bundle that is assembled the checks warn of the target of a
      button exactly when the map has no entry for it, and every address in the map leads from the
      page of the window to the page of another one.
-/
import ControlSurface.Proofs.Bundle.Keeping
import ControlSurface.Proofs.Check.Gate
import ControlSurface.Proofs.Font.Address
import ControlSurface.Proofs.Layout.Identity
import ControlSurface.Proofs.Name.Slugs
import ControlSurface.Proofs.Script.Decoding

namespace ControlSurface

open ControlSurface.Outcome

/-! ## §1. Warnings of targets. -/

namespace Check

/-- The warning of a button whose target is not known. -/
def targetFinding (e : Element) : Finding :=
  let target := e.get "target_window_id"
  ⟨e.id, e.name, "target_window_id",
    s!"Navigation target '{target.toText}' is not part of this export"⟩

/-- Whether the target of an element is none of the windows that are known. -/
def LeadsAstray (ids : List String) (e : Element) : Prop :=
  opensWindow e = true ∧ ∀ id ∈ ids, e.get "target_window_id" ≠ .text id

theorem field_of_parameterWarnings {e : Element} {found : List Finding}
    (h : parameterWarnings e = .ok found) : ∀ f ∈ found, f.field = "parameter_id" := by
  rw [parameterWarnings] at h
  split at h
  · cases h
    simp
  · obtain ⟨s, _, h⟩ := (bind_eq_ok_iff _ _ _).mp h
    split at h <;> cases h <;> simp

theorem field_of_sizeWarnings {e : Element} {found : List Finding}
    (h : sizeWarnings e = .ok found) : ∀ f ∈ found, f.field = "width" ∨ f.field = "height" := by
  obtain ⟨flat, _, h⟩ := (bind_eq_ok_iff _ _ _).mp h
  split at h
  · cases h
    simp
  · obtain ⟨low, _, h⟩ := (bind_eq_ok_iff _ _ _).mp h
    split at h <;> cases h <;> simp

/-- The check of a target warns exactly where it leads astray. -/
theorem mem_targetWarnings_iff {ids : List String} {e : Element} {found : List Finding}
    (h : targetWarnings (some ids) e = .ok found) (f : Finding) :
    f ∈ found ↔ LeadsAstray ids e ∧ f = targetFinding e := by
  simp only [targetWarnings] at h
  cases hopens : opensWindow e with
  | false =>
    rw [hopens] at h
    cases h
    simp [LeadsAstray, hopens]
  | true =>
    cases hkey : (e.get "target_window_id").isKey with
    | false =>
      rw [hopens, hkey] at h
      cases h
    | true =>
      simp only [hopens, hkey, Bool.not_true, Bool.false_eq_true, if_false] at h
      split at h
      next hknown =>
        cases h
        obtain ⟨id, hid, hsame⟩ := List.any_eq_true.mp hknown
        refine iff_of_false List.not_mem_nil fun hastray => ?_
        exact hastray.1.2 id hid ((Layout.same_text _ _).mp hsame)
      next hunknown =>
        cases h
        have hastray : LeadsAstray ids e := by
          refine ⟨hopens, fun id hid htarget => hunknown (List.any_eq_true.mpr ⟨id, hid, ?_⟩)⟩
          exact (Layout.same_text _ _).mpr htarget
        rw [List.mem_singleton]
        exact (and_iff_right hastray).symm

/-- The warnings of targets in a report are those of the elements that lead astray. -/
theorem mem_warnings_iff {ids : List String} {all before elements : List Element} {r : Report}
    (h : checkFrom (some ids) all before elements = .ok r) {f : Finding}
    (hfield : f.field = "target_window_id") :
    f ∈ r.warnings ↔ ∃ e ∈ elements, LeadsAstray ids e ∧ f = targetFinding e := by
  induction elements generalizing before r with
  | nil =>
    cases h
    simp
  | cons e rest ih =>
    obtain ⟨_, _, parameters, sizes, targets, others, _, _, hparameters, hsizes, htargets, hothers,
      rfl⟩ := checkFrom_cons h
    have hnoParameter : f ∉ parameters := fun hmem =>
      absurd (hfield.symm.trans (field_of_parameterWarnings hparameters f hmem)) (by decide)
    have hnoSize : f ∉ sizes := fun hmem =>
      (field_of_sizeWarnings hsizes f hmem).elim
        (fun h => absurd (hfield.symm.trans h) (by decide))
        (fun h => absurd (hfield.symm.trans h) (by decide))
    rw [List.mem_append, List.mem_append, List.mem_append, or_iff_right hnoParameter,
      or_iff_right hnoSize, ih hothers, mem_targetWarnings_iff htargets, List.exists_mem_cons_iff]

/-- Whether a report warns of the target of an element. -/
def Report.WarnsOfTarget (r : Report) (e : Element) : Prop :=
  ∃ f ∈ r.warnings, f.field = "target_window_id" ∧ f.elementId = e.id ∧ f.elementName = e.name

/-- **A report of elements that pass warns of the target of a button exactly when it is not
known.** -/
theorem warnsOfTarget_iff {ids : List String} {elements : List Element} {r : Report}
    (h : check (some ids) elements = .ok r) (hvalid : r.valid = true) {b : Element}
    (hb : b ∈ elements) (hopens : opensWindow b = true) :
    r.WarnsOfTarget b ↔ ∀ id ∈ ids, b.get "target_window_id" ≠ .text id := by
  constructor
  · rintro ⟨f, hf, hfield, _, hname⟩
    obtain ⟨e, he, hastray, rfl⟩ := (mem_warnings_iff (checkFrom_of_check h) hfield).mp hf
    -- names are different, so the element of this name is the button
    have hsame : e.identifier = b.identifier := by
      have hnames : e.name = b.name := hname
      rw [Element.identifier, Element.identifier, Element.domId, Element.domId, hnames]
    have heq : e = b := List.inj_on_of_nodup_map (identifiers_of_check h hvalid).2 he hb hsame
    exact heq ▸ hastray.2
  · intro hunknown
    refine ⟨targetFinding b, ?_, rfl, rfl, rfl⟩
    exact (mem_warnings_iff (checkFrom_of_check h) rfl).mpr ⟨b, hb, ⟨hopens, hunknown⟩, rfl⟩

end Check

namespace Bundle

open ControlSurface.Script (navigation)

/-! ## §2. The checks of an export. -/

/-- A window that was resolved and checked, and what is left of its report. -/
structure Checked (p : Project) (known : List String) (several : Bool) (errors : List Check.Finding)
    (warnings : List String) (w : ExportWindow) (r : Check.Report) : Prop where
  elements : w.elements = Layout.resolve p.elements w.window
  report : Check.check (some known) w.elements = .ok r
  errors : ∀ f ∈ r.errors, f ∈ errors
  warnings : ∀ f ∈ r.warnings, warningText several w.window f ∈ warnings

theorem Checked.mono {p : Project} {known : List String} {several : Bool}
    {errors errors' : List Check.Finding} {warnings warnings' : List String} {w : ExportWindow}
    {r : Check.Report} (h : Checked p known several errors warnings w r) (herrors : errors ⊆ errors')
    (hwarnings : warnings ⊆ warnings') : Checked p known several errors' warnings' w r :=
  ⟨h.elements, h.report, fun f hf => herrors (h.errors f hf),
    fun f hf => hwarnings (h.warnings f hf)⟩

/-- Every window of an inspection is checked. -/
theorem checked_of_inspect {p : Project} {known : List String} {several : Bool}
    {given : List (Window × String)} {found : Preparation}
    (h : inspect p known several given = .ok found) :
    ∀ w ∈ found.windows, ∃ r, Checked p known several found.errors found.warnings w r := by
  induction given generalizing found with
  | nil =>
    cases h
    simp
  | cons entry rest ih =>
    obtain ⟨w, slug⟩ := entry
    rw [inspect] at h
    obtain ⟨shown, hshown, h⟩ := (bind_eq_ok_iff _ _ _).mp h
    obtain ⟨r, hr, h⟩ := (bind_eq_ok_iff _ _ _).mp h
    obtain ⟨others, hothers, h⟩ := (bind_eq_ok_iff _ _ _).mp h
    cases h
    refine List.forall_mem_cons.mpr ⟨⟨r, (Layout.of_shownBy hshown).2, hr, ?_, ?_⟩,
      fun v hv => ?_⟩
    · exact fun f hf => List.mem_append_left _ hf
    · exact fun f hf => List.mem_append_left _ (List.mem_map_of_mem hf)
    · obtain ⟨r', hr'⟩ := ih hothers v hv
      exact ⟨r', hr'.mono (List.subset_append_right _ _) (List.subset_append_right _ _)⟩

/-- Every window that is prepared passed its checks. -/
theorem checked_of_prepare {p : Project} {windows : List Window} {prepared : List ExportWindow}
    {warnings : List String} (h : prepare p windows = .ok (prepared, warnings)) :
    ∀ w ∈ prepared, ∃ r,
      Checked p (windows.map Window.id) (decide (1 < windows.length)) [] warnings w r := by
  rw [prepare] at h
  obtain ⟨slugged, _, h⟩ := (bind_eq_ok_iff _ _ _).mp h
  obtain ⟨found, hfound, h⟩ := (bind_eq_ok_iff _ _ _).mp h
  split at h
  next hnone =>
    cases h
    rw [← List.isEmpty_iff.mp hnone]
    exact checked_of_inspect hfound
  next => cases h

/-- A window that is equipped is a prepared one with graphics and fonts. -/
theorem exists_prepared {p : Project} {o : ExportOptions} {prepared : List ExportWindow}
    {e : Equipment} (h : equip p o prepared = .ok e) :
    ∀ w ∈ e.windows, ∃ v ∈ prepared,
      w = { v with graphics := w.graphics, fonts := fontsOf e.shipped v.elements } := by
  obtain ⟨⟨shipped, fontWarnings⟩, _, h⟩ := (bind_eq_ok_iff _ _ _).mp h
  obtain ⟨equipped, hequipped, h⟩ := (bind_eq_ok_iff _ _ _).mp h
  cases h
  intro w hw
  obtain ⟨r, hr, rfl⟩ := List.mem_map.mp hw
  obtain ⟨v, hv, hready⟩ := (mem_mapM_iff hequipped r).mp hr
  obtain ⟨g, _, hready⟩ := (bind_eq_ok_iff _ _ _).mp hready
  cases hready
  exact ⟨v, hv, rfl⟩

/-- **Every window that gets files passed its checks**, and all they warn of is reported. -/
theorem Reached.checked {p : Project} {o : ExportOptions} {windowId : Option String} {s : Stages}
    (h : Reached p o windowId s) : ∀ w ∈ s.equipment.windows, ∃ r,
      Checked p (s.windows.map Window.id) s.several [] s.warnings w r := by
  intro w hw
  obtain ⟨v, hv, hready⟩ := exists_prepared h.equipped w hw
  obtain ⟨r, hr⟩ := checked_of_prepare h.prepared v hv
  rw [hready]
  exact ⟨r, hr.elements, hr.report, hr.errors, hr.warnings⟩

/-! ## §3. The map. -/

/-- The entry of a map of windows for a target. -/
def entry? (map target : Value) : Option Value :=
  match map, target with
  | .object entries, .text id => Value.find? entries id
  | _, _ => none

/-- The address in an entry of the map. -/
def address? (entry : Value) : Option Value :=
  match entry with
  | .object fields => Value.find? fields "href"
  | _ => none

/-- What the map says of a window. -/
def linkValue (link : WindowLink) : Value :=
  .object [("name", link.name), ("slug", .text link.slug), ("href", .text link.target)]

theorem entry?_navigation (links : List (String × WindowLink)) (id : String) :
    entry? (navigation links) (.text id) = (Keyed.find? id links).map linkValue :=
  Keyed.find?_map_snd linkValue id links

/-- There is no entry for a target exactly if it is none of the windows. -/
theorem entry?_links_eq_none_iff {several : Bool} {windows : List ExportWindow} {target : Value} :
    entry? (navigation (links several windows)) target = none
      ↔ ∀ id ∈ windows.map fun w => w.window.id, target ≠ .text id := by
  have hkeys : ∀ id, id ∈ Keyed.keys (links several windows)
      ↔ id ∈ windows.map fun w => w.window.id := by
    intro id
    rw [links, Keyed.mem_keys_ofList_iff, Keyed.keys, List.map_map]
    rfl
  cases target with
  | text id =>
    rw [entry?_navigation, Option.map_eq_none_iff, Keyed.find?_eq_none_iff]
    constructor
    · rintro h other hother heq
      cases heq
      obtain ⟨e, he, hid⟩ := List.mem_map.mp ((hkeys id).mpr hother)
      exact h e he hid
    · intro h e he hid
      exact h id ((hkeys id).mp (List.mem_map.mpr ⟨e, he, hid⟩)) rfl
  | _ => exact iff_of_true rfl (by simp)

/-- Every entry of the map is that of a window. -/
theorem exists_window_of_entry {several : Bool} {windows : List ExportWindow} {id : String}
    {entry : Value} (h : entry? (navigation (links several windows)) (.text id) = some entry) :
    ∃ v ∈ windows, v.window.id = id
      ∧ address? entry = some (.text (linkTarget several v.slug)) := by
  rw [entry?_navigation] at h
  obtain ⟨link, hlink, rfl⟩ := Option.map_eq_some_iff.mp h
  obtain ⟨v, hv, heq⟩ := List.mem_map.mp (Keyed.mem_ofList (Keyed.exists_of_find? hlink))
  cases heq
  exact ⟨v, hv, rfl, rfl⟩

/-! ## §4. The addresses. -/

/-- The path of the page of a window. -/
def pagePath (several : Bool) (slug : String) : String := directory several slug ++ "index.html"

/-- Where an address leads from a page. -/
def leadsFrom (page address : String) : List (List Char) :=
  Font.lead (Font.namesIn page.toList).dropLast (Font.namesIn address.toList)

theorem namesIn_pagePath {slug : String} (hslug : '/' ∉ slug.toList) :
    Font.namesIn (pagePath true slug).toList = [slug.toList, "index.html".toList] := by
  have hpath : (pagePath true slug).toList = slug.toList ++ '/' :: "index.html".toList := by
    simp [pagePath, directory]
  rw [hpath, Font.namesIn, Text.splitAt_mark hslug]
  exact congrArg _ (by decide)

theorem namesIn_linkTarget {slug : String} (hslug : '/' ∉ slug.toList) :
    Font.namesIn (linkTarget true slug).toList
      = [['.', '.'], slug.toList, "index.html".toList] := by
  have htarget : (linkTarget true slug).toList
      = ['.', '.'] ++ '/' :: (slug.toList ++ '/' :: "index.html".toList) := by
    simp [linkTarget, toString]
  rw [htarget, Font.namesIn, Text.splitAt_mark (by decide), Text.splitAt_mark hslug]
  exact congrArg (fun names => _ :: _ :: names) (by decide)

/-- **An address in the map leads from every page to the page it is the address of.** -/
theorem leadsFrom_linkTarget {several : Bool} {slug other : String} (hslug : '/' ∉ slug.toList)
    (hother : ∀ c ∈ other.toList, Name.isSlugChar c = true) :
    leadsFrom (pagePath several slug) (linkTarget several other)
      = Font.namesIn (pagePath several other).toList := by
  have hno : ∀ c, Name.isSlugChar c = false → c ∉ other.toList := fun c hc hmem =>
    absurd (hother c hmem) (by simp [hc])
  have hnotDots : Font.isDots other.toList = false := by
    have hdot := hno '.' (by decide)
    rw [Font.isDots, Bool.or_eq_false_iff, decide_eq_false_iff_not, decide_eq_false_iff_not]
    exact ⟨fun h => hdot (by simp [h]), fun h => hdot (by simp [h])⟩
  cases several with
  | false =>
    have hpage : ∀ slug, pagePath false slug = "index.html" := fun slug => by
      simp [pagePath, directory]
    rw [hpage, hpage]
    show leadsFrom "index.html" "index.html" = _
    decide
  | true =>
    have hslash := hno '/' (by decide)
    rw [leadsFrom, namesIn_pagePath hslug, namesIn_linkTarget hslash, namesIn_pagePath hslash]
    -- the first step leaves the directory of the window, the others are names
    show Font.lead [] [other.toList, "index.html".toList] = _
    refine Font.lead_of_names (List.forall_mem_cons.mpr ⟨hnotDots, ?_⟩)
    exact List.forall_mem_singleton.mpr (by decide)

theorem standsInPath_of_slugChar {c : Char} (h : Name.isSlugChar c = true) :
    Font.standsInPath c = true := by
  have hne : ∀ d, Name.isSlugChar d = false → c ≠ d := by
    intro d hd heq
    rw [heq, hd] at h
    cases h
  have hle : ' ' ≤ c := by
    simp only [Name.isSlugChar, Name.isSmall, Bool.or_eq_true, decide_eq_true_eq] at h
    rcases h with (hletter | hdigit) | rfl
    · exact Char.le_trans (by decide) hletter.1
    · exact Char.le_trans (by decide) hdigit.1
    · decide
  simp [Font.standsInPath, hle, hne '\\' (by decide), hne '?' (by decide), hne '#' (by decide),
    hne '%' (by decide)]

/-- Nothing in an address of the map means anything but itself. -/
theorem stands_linkTarget {several : Bool} {slug : String}
    (hslug : ∀ c ∈ slug.toList, Name.isSlugChar c = true) :
    ∀ c ∈ (linkTarget several slug).toList, Font.standsInPath c = true := by
  cases several with
  | false =>
    show ∀ c ∈ "index.html".toList, Font.standsInPath c = true
    exact List.all_eq_true.mp (by decide)
  | true =>
    have htarget : (linkTarget true slug).toList
        = "../".toList ++ (slug.toList ++ "/index.html".toList) := by
      simp [linkTarget, toString]
    have hfixed : ∀ c ∈ "../".toList ++ "/index.html".toList, Font.standsInPath c = true :=
      List.all_eq_true.mp (by decide)
    intro c hc
    rw [htarget, List.mem_append, List.mem_append] at hc
    rcases hc with hc | hc | hc
    · exact hfixed c (List.mem_append_left _ hc)
    · exact standsInPath_of_slugChar (hslug c hc)
    · exact hfixed c (List.mem_append_right _ hc)

/-! ## §5. Agreement. -/

/-- How the checks, the script of a window and the pages of a bundle agree on where its buttons
lead. -/
structure NavigationAgrees (p : Project) (o : ExportOptions) (s : Stages) (a : Assembly)
    (w : ExportWindow) (made : WindowFiles) : Prop where
  /-- The window shows what it lists. -/
  elements : w.elements = Layout.resolve p.elements w.window
  /-- Its script holds the map of all windows. -/
  held : Script.HoldsValues
    (setting p o (links s.several s.equipment.windows) (fontPlace s.several) w) w.elements
    made.bindings
  /-- The script is among the files that are made. -/
  written : (directory s.several w.slug ++ "bindings.js",
    Content.text (bindingsFor o.target made.bindings)) ∈ s.entries o
  /-- The checks of the window, all of whose warnings are told, warn of the target of a button
  exactly when the map has no entry for it. -/
  checked : ∃ r, Check.check (some (s.windows.map Window.id)) w.elements = .ok r
    ∧ (∀ f ∈ r.warnings, warningText s.several w.window f ∈ a.warnings)
    ∧ ∀ b ∈ w.elements, Check.opensWindow b = true →
      (r.WarnsOfTarget b ↔ entry? (navigation (links s.several s.equipment.windows))
        (b.get "target_window_id") = none)
  /-- The page of the window is in the bundle. -/
  page : pagePath s.several w.slug ∈ Keyed.keys a.files
  /-- The address of an entry leads from there to the page of the window it is for. -/
  leads : ∀ id entry,
    entry? (navigation (links s.several s.equipment.windows)) (.text id) = some entry →
    ∃ v ∈ s.equipment.windows, v.window.id = id ∧ ∃ address,
      address? entry = some (.text address) ∧ (∀ c ∈ address.toList, Font.standsInPath c = true)
      ∧ leadsFrom (pagePath s.several w.slug) address
        = Font.namesIn (pagePath s.several v.slug).toList
      ∧ pagePath s.several v.slug ∈ Keyed.keys a.files

section Agreeing

variable {p : Project} {o : ExportOptions} {windowId : Option String} {s : Stages}

theorem Reached.windows_map (h : Reached p o windowId s) :
    s.equipment.windows.map ExportWindow.window = s.windows := by
  have hfirst := congrArg (List.map Prod.fst) h.windows_eq
  rw [List.map_map, List.map_fst_zip (Nat.le_of_eq h.length_slugs.symm)] at hfirst
  exact hfirst

theorem Reached.slug_mem (h : Reached p o windowId s) {w : ExportWindow}
    (hw : w ∈ s.equipment.windows) : w.slug ∈ s.slugs := by
  rw [← h.slugs_eq]
  exact List.mem_map_of_mem hw

/-- The page of every window is in the bundle. -/
theorem Reached.pagePath_mem (h : Reached p o windowId s) (text : String) {w : ExportWindow}
    (hw : w ∈ s.equipment.windows) :
    pagePath s.several w.slug
      ∈ Keyed.keys (Keyed.ofList (s.entries o ++ [(Guide.file, Content.text text)])) := by
  rw [Keyed.mem_keys_ofList_iff, Keyed.keys_append, Stages.entries, Keyed.keys_append,
    keys_windows o s.several _ _ h.length_made]
  refine List.mem_append_left _ (List.mem_append_left _ ?_)
  exact List.mem_flatMap.mpr ⟨w.slug, h.slug_mem hw, List.mem_map.mpr ⟨"index.html", by decide, rfl⟩⟩

/-- The files that were made for a window are among those of the bundle. -/
theorem Reached.windowEntries_subset (h : Reached p o windowId s) {w : ExportWindow}
    {made : WindowFiles} (hmade : (w, made) ∈ s.equipment.windows.zip s.made) :
    windowEntries o s.several w.slug made ⊆ s.entries o := by
  have hzip : (w.slug, made) ∈ s.slugs.zip s.made := by
    rw [← h.slugs_eq, List.zip_map_left]
    exact List.mem_map_of_mem (f := Prod.map ExportWindow.slug id) hmade
  intro entry hentry
  refine List.mem_append_left _ (List.mem_flatten.mpr ⟨_, ?_, hentry⟩)
  rw [← List.map_uncurry_zip_eq_zipWith]
  exact List.mem_map_of_mem (f := Function.uncurry (windowEntries o s.several)) hzip

/-- Every stage being reached, checks, scripts and pages agree. -/
theorem Reached.navigationAgrees (h : Reached p o windowId s) (g : Guide) :
    List.Forall₂ (NavigationAgrees p o s (s.assembly o g)) s.equipment.windows s.made := by
  have hids : (s.equipment.windows.map fun w => w.window.id) = s.windows.map Window.id := by
    rw [← h.windows_map, List.map_map]
    rfl
  refine List.forall₂_iff_zip.mpr ⟨h.made.length_eq, ?_⟩
  intro w made hmade
  have hw : w ∈ s.equipment.windows := (List.of_mem_zip hmade).1
  obtain ⟨r, hr⟩ := h.checked w hw
  have hvalid : r.valid = true :=
    List.isEmpty_iff.mpr (List.eq_nil_iff_forall_not_mem.mpr fun f hf =>
      absurd (hr.errors f hf) List.not_mem_nil)
  have hfiles := List.forall₂_zip h.made hmade
  obtain ⟨page, _, hfiles⟩ := (bind_eq_ok_iff _ _ _).mp hfiles
  obtain ⟨stylesheet, _, hfiles⟩ := (bind_eq_ok_iff _ _ _).mp hfiles
  obtain ⟨components, _, hfiles⟩ := (bind_eq_ok_iff _ _ _).mp hfiles
  obtain ⟨bindings, hbindings, hfiles⟩ := (bind_eq_ok_iff _ _ _).mp hfiles
  cases hfiles
  exact
    { elements := hr.elements
      held := Script.holdsValues_of_bindingsScript hbindings
      written := h.windowEntries_subset hmade (by simp [windowEntries])
      checked := by
        refine ⟨r, hr.report, fun f hf => List.mem_append_left _ (hr.warnings f hf), ?_⟩
        intro b hb hopens
        rw [Check.warnsOfTarget_iff hr.report hvalid hb hopens, entry?_links_eq_none_iff, hids]
      page := h.pagePath_mem _ hw
      leads := by
        intro id entry hentry
        obtain ⟨v, hv, hid, haddress⟩ := exists_window_of_entry hentry
        have hslug := List.all_eq_true.mp (Name.slugs_chars (by decide) (h.slug_mem hv))
        refine ⟨v, hv, hid, _, haddress, stands_linkTarget hslug, ?_, h.pagePath_mem _ hv⟩
        exact leadsFrom_linkTarget (Name.slash_not_mem_slugs (by decide) (h.slug_mem hw)) hslug }

end Agreeing

/-- **Navigation agrees.**  In every bundle that is assembled, for every window of it and every
button that opens a window there, the checks warn of the target of the button exactly when the map
in the script of the window has no entry for it, and every address in the map leads from the page
of the window to a page of the bundle, that of the window it is for. -/
theorem navigation_agrees {p : Project} {o : ExportOptions} {windowId : Option String}
    {a : Assembly} (h : assemble p o windowId = .ok a) :
    ∃ s, Reached p o windowId s ∧ s.equipment.windows.map ExportWindow.window = s.windows
      ∧ (∃ text, a.files = Keyed.ofList (s.entries o ++ [(Guide.file, .text text)]))
      ∧ List.Forall₂ (NavigationAgrees p o s a) s.equipment.windows s.made := by
  obtain ⟨s, hs, _, g, _, rfl⟩ := assembly_of_assemble h
  exact ⟨s, hs, hs.windows_map, ⟨_, rfl⟩, hs.navigationAgrees g⟩

/-! ## §6. A button to a window that is left out. -/

/-- A button that opens a window. -/
def opening (target : String) : Element :=
  ⟨.button, Element.assign .button
    [("id", .text "a"), ("name", .text "Go"), ("parameter_id", .text "go"),
      ("action", .text "navigate-window"), ("target_window_id", .text target)]⟩

/-- A window for developers. -/
def debugWindow : Window :=
  { Layout.listing [] with id := "debug", kind := .text "developer" }

/-- A project with a window that shows a button, and the window that the button opens. -/
def debugProject : Project :=
  { name := .text "Synth", elements := [opening "debug"]
    windows := [Layout.listing ["a"], debugWindow], layers := [], fonts := [] }

theorem select_debug :
    select debugProject plainOptions none = .ok [Layout.listing ["a"]] := by
  have hmain : ((Layout.listing ["a"]).exportedByDefault || plainOptions.developerWindows) = true := by
    decide
  have hdebug : (debugWindow.exportedByDefault || plainOptions.developerWindows) = false := by
    decide
  show Except.ok (List.filter _ [_, _]) = _
  simp only [List.filter_cons, hmain, hdebug, if_true, Bool.false_eq_true, if_false,
    List.filter_nil]

theorem resolve_debug :
    Layout.resolve debugProject.elements (Layout.listing ["a"]) = [opening "debug"] := by
  have hnamed : Layout.NamedByText debugProject.elements := fun e he => by
    rw [List.mem_singleton.mp he]
    exact ⟨"a", rfl⟩
  exact Layout.resolve_alone hnamed rfl rfl rfl

theorem prepare_debug :
    prepare debugProject [Layout.listing ["a"]]
      = .ok ([⟨Layout.listing ["a"], "main", [opening "debug"], [], []⟩],
        ["Go: Navigation target 'debug' is not part of this export"]) := by
  have hslugs : Name.slugs ["Main"] Name.defaultSlug = ["main"] := by decide
  have hslugged : withSlugs [Layout.listing ["a"]] = .ok [(Layout.listing ["a"], "main")] := by
    show Except.ok (List.zip _ (Name.slugs ["Main"] Name.defaultSlug)) = _
    rw [hslugs]
    rfl
  rw [prepare, hslugged]
  show (inspect _ _ _ [(_, _)] >>= _) = _
  rw [inspect, inspect, Layout.shownBy_of_hasKeys rfl, resolve_debug]
  rfl

/-- The checks warn of a button that opens the window that is left out. -/
theorem debug_warned :
    ∃ a s w r, assemble debugProject plainOptions none = .ok a
      ∧ Reached debugProject plainOptions none s ∧ s.equipment.windows = [w]
      ∧ w.elements = [opening "debug"] ∧ Check.check (some ["main"]) w.elements = .ok r
      ∧ r.WarnsOfTarget (opening "debug") := by
  have hok : (assemble debugProject plainOptions none).isOk = true := by
    rw [assemble, select_debug]
    show (prepare _ _ >>= _).isOk = true
    rw [prepare_debug]
    decide +kernel
  obtain ⟨a, ha⟩ := exists_of_isOk hok
  obtain ⟨s, hs, hwindows, _, hagrees⟩ := navigation_agrees ha
  have hselected : [Layout.listing ["a"]] = s.windows :=
    Except.ok.inj (select_debug.symm.trans hs.selected)
  rw [← hselected] at hwindows
  obtain ⟨w, hw, hwindow⟩ := List.map_eq_singleton_iff.mp hwindows
  obtain ⟨made, hmade⟩ := exists_of_forall₂ hagrees w (by simp [hw])
  have helements : w.elements = [opening "debug"] := by
    rw [hmade.elements, hwindow, resolve_debug]
  obtain ⟨r, hr, _, hwarns⟩ := hmade.checked
  rw [← hselected] at hr
  refine ⟨a, s, w, r, ha, hs, hw, helements, hr, ?_⟩
  -- the only entry of the map is that of the window itself
  apply (hwarns (opening "debug") (by simp [helements]) rfl).mpr
  rw [entry?_links_eq_none_iff, hw, List.map_singleton, List.forall_mem_singleton, hwindow]
  show Value.text "debug" ≠ .text "main"
  simp

end Bundle

end ControlSurface
