/-
  ControlSurface.Proofs.Bundle.Stages
  ───────────────────────────────────
  The stages that a bundle goes through.  `assemble` succeeds only if every stage does
  (`assembly_of_assemble`), and each stage keeps the windows and the slugs of the one before it, so
  what is made for the windows of a bundle can be told from the windows that were selected.
-/
import ControlSurface.Bundle.Files
import ControlSurface.Proofs.Fault.Outcome
import ControlSurface.Proofs.Font.FileNames
import ControlSurface.Proofs.Keyed.Entries
import ControlSurface.Proofs.Name.Slugs

namespace ControlSurface.Bundle

open ControlSurface.Outcome

/-! ## §1. What the stages give. -/

/-- What the stages of an export give, from the selected windows to the files of each. -/
structure Stages where
  windows : List Window
  names : List String
  prepared : List ExportWindow
  warnings : List String
  equipment : Equipment
  made : List WindowFiles

/-- Whether the windows of an export get directories of their own. -/
def Stages.several (s : Stages) : Bool := decide (1 < s.windows.length)

/-- The slugs of the windows. -/
def Stages.slugs (s : Stages) : List String := Name.slugs s.names Name.defaultSlug

/-- All files that are made, in order, before any of them is put among the others. -/
def Stages.entries (o : ExportOptions) (s : Stages) : Files :=
  (List.zipWith (windowEntries o s.several) s.slugs s.made).flatten
    ++ fontEntries s.equipment.shipped

/-- Stages that an export of a project really goes through, each one with success. -/
structure Reached (p : Project) (o : ExportOptions) (windowId : Option String) (s : Stages) :
    Prop where
  selected : select p o windowId = .ok s.windows
  windows_ne_nil : s.windows ≠ []
  named : s.windows.mapM (fun w => w.name.string) = .ok s.names
  prepared : prepare p s.windows = .ok (s.prepared, s.warnings)
  equipped : equip p o s.prepared = .ok s.equipment
  made : List.Forall₂
    (fun w f => windowFiles (setting p o (links s.several s.equipment.windows)
      (fontPlace s.several) w) w.elements = .ok f) s.equipment.windows s.made

/-! ## §2. Each stage keeps the windows. -/

/-- Checking windows keeps them, their order and their slugs. -/
theorem inspect_keeps {p : Project} {known : List String} {several : Bool}
    {given : List (Window × String)} {found : Preparation}
    (h : inspect p known several given = .ok found) :
    found.windows.map (fun w => (w.window, w.slug)) = given := by
  induction given generalizing found with
  | nil =>
    cases h
    rfl
  | cons e rest ih =>
    obtain ⟨w, slug⟩ := e
    rw [inspect] at h
    obtain ⟨elements, _, h⟩ := (bind_eq_ok_iff _ _ _).mp h
    obtain ⟨report, _, h⟩ := (bind_eq_ok_iff _ _ _).mp h
    obtain ⟨others, hothers, h⟩ := (bind_eq_ok_iff _ _ _).mp h
    cases h
    rw [List.map_cons, ih hothers]

/-- Windows that are prepared are the selected ones, with the slugs of their names. -/
theorem prepare_keeps {p : Project} {windows : List Window} {prepared : List ExportWindow}
    {warnings : List String} (h : prepare p windows = .ok (prepared, warnings)) :
    ∃ names, windows.mapM (fun w => w.name.string) = .ok names
      ∧ prepared.map (fun w => (w.window, w.slug))
        = windows.zip (Name.slugs names Name.defaultSlug) := by
  rw [prepare] at h
  -- names give the slugs, and what is found of the windows decides only whether they go on
  obtain ⟨slugged, hslugged, h⟩ := (bind_eq_ok_iff _ _ _).mp h
  obtain ⟨found, hfound, h⟩ := (bind_eq_ok_iff _ _ _).mp h
  rw [withSlugs] at hslugged
  obtain ⟨names, hnames, hslugged⟩ := (bind_eq_ok_iff _ _ _).mp hslugged
  split at h
  · cases h
    cases hslugged
    exact ⟨names, hnames, inspect_keeps hfound⟩
  · cases h

/-- Giving a window its graphics and fonts keeps it and its slug. -/
theorem equipWindow_keeps {o : ExportOptions} {shipped : List BundledFont} {w : ExportWindow}
    {r : ExportWindow × Graphics} (h : equipWindow o shipped w = .ok r) :
    r.1.window = w.window ∧ r.1.slug = w.slug := by
  obtain ⟨g, _, h⟩ := (bind_eq_ok_iff _ _ _).mp h
  cases h
  exact ⟨rfl, rfl⟩

/-- Giving windows their graphics and fonts keeps them and their slugs. -/
theorem mapM_equipWindow_keeps {o : ExportOptions} {shipped : List BundledFont}
    {prepared : List ExportWindow} {equipped : List (ExportWindow × Graphics)}
    (h : prepared.mapM (equipWindow o shipped) = .ok equipped) :
    equipped.map (fun r => (r.1.window, r.1.slug)) = prepared.map (fun w => (w.window, w.slug)) := by
  rw [mapM_eq_ok_iff] at h
  induction h with
  | nil => rfl
  | cons hw _ ih =>
    obtain ⟨hwindow, hslug⟩ := equipWindow_keeps hw
    rw [List.map_cons, List.map_cons, ih, hwindow, hslug]

/-- Equipping windows keeps them and their slugs, and ships no two fonts under one name. -/
theorem equip_keeps {p : Project} {o : ExportOptions} {prepared : List ExportWindow}
    {e : Equipment} (h : equip p o prepared = .ok e) :
    e.windows.map (fun w => (w.window, w.slug)) = prepared.map (fun w => (w.window, w.slug))
      ∧ (e.shipped.map BundledFont.filename).Nodup := by
  rw [equip] at h
  obtain ⟨⟨shipped, fontWarnings⟩, hfonts, h⟩ := (bind_eq_ok_iff _ _ _).mp h
  obtain ⟨equipped, hequipped, h⟩ := (bind_eq_ok_iff _ _ _).mp h
  cases h
  refine ⟨?_, Font.nodup_filenames_of_resolve hfonts⟩
  rw [← mapM_equipWindow_keeps hequipped, List.map_map]
  rfl

/-- Giving windows their graphics and fonts keeps what they show. -/
theorem mapM_equipWindow_elements {o : ExportOptions} {shipped : List BundledFont}
    {prepared : List ExportWindow} {equipped : List (ExportWindow × Graphics)}
    (h : prepared.mapM (equipWindow o shipped) = .ok equipped) :
    equipped.map (fun r => r.1.elements) = prepared.map ExportWindow.elements := by
  rw [mapM_eq_ok_iff] at h
  induction h with
  | nil => rfl
  | cons hw _ ih =>
    obtain ⟨g, _, hw⟩ := (bind_eq_ok_iff _ _ _).mp hw
    cases hw
    rw [List.map_cons, List.map_cons, ih]

/-- Equipping windows keeps what they show. -/
theorem equip_elements {p : Project} {o : ExportOptions} {prepared : List ExportWindow}
    {e : Equipment} (h : equip p o prepared = .ok e) :
    e.windows.map ExportWindow.elements = prepared.map ExportWindow.elements := by
  obtain ⟨⟨shipped, fontWarnings⟩, _, h⟩ := (bind_eq_ok_iff _ _ _).mp h
  obtain ⟨equipped, hequipped, h⟩ := (bind_eq_ok_iff _ _ _).mp h
  cases h
  rw [← mapM_equipWindow_elements hequipped, List.map_map]
  rfl

namespace Reached

variable {p : Project} {o : ExportOptions} {windowId : Option String} {s : Stages}

/-- The windows that get files are the selected ones, with the slugs of their names. -/
theorem windows_eq (h : Reached p o windowId s) :
    s.equipment.windows.map (fun w => (w.window, w.slug)) = s.windows.zip s.slugs := by
  obtain ⟨names, hnames, hprepared⟩ := prepare_keeps h.prepared
  rw [(equip_keeps h.equipped).1, hprepared]
  have hsame : (.ok names : Except Fault (List String)) = .ok s.names := by
    rw [← hnames, ← h.named]
  cases hsame
  rfl

theorem length_names (h : Reached p o windowId s) : s.names.length = s.windows.length :=
  ((mapM_eq_ok_iff _ _ _).mp h.named).length_eq.symm

theorem length_slugs (h : Reached p o windowId s) : s.slugs.length = s.windows.length := by
  rw [Stages.slugs, Name.length_slugs, h.length_names]

theorem slugs_eq (h : Reached p o windowId s) :
    s.equipment.windows.map ExportWindow.slug = s.slugs := by
  have hsnd := congrArg (List.map Prod.snd) h.windows_eq
  rw [List.map_map, List.map_snd_zip (Nat.le_of_eq h.length_slugs)] at hsnd
  exact hsnd

theorem length_equipped (h : Reached p o windowId s) :
    s.equipment.windows.length = s.windows.length := by
  have hlen := congrArg List.length h.slugs_eq
  rwa [List.length_map, h.length_slugs] at hlen

theorem length_made (h : Reached p o windowId s) : s.made.length = s.slugs.length := by
  rw [← h.made.length_eq, h.length_equipped, h.length_slugs]

end Reached

/-! ## §3. All stages. -/

/-- Files of windows that are made one after the other, each under the slug of its window. -/
theorem mapM_entries {o : ExportOptions} {several : Bool} {windows : List ExportWindow}
    {make : ExportWindow → Except Fault WindowFiles} {perWindow : List Files}
    (h : (windows.mapM fun w => do
      let made ← make w
      .ok (windowEntries o several w.slug made)) = .ok perWindow) :
    ∃ made, List.Forall₂ (fun w f => make w = .ok f) windows made
      ∧ perWindow = List.zipWith (windowEntries o several) (windows.map ExportWindow.slug) made := by
  rw [mapM_eq_ok_iff] at h
  induction h with
  | nil => exact ⟨[], .nil, rfl⟩
  | cons hw _ ih =>
    obtain ⟨f, hf, hw⟩ := (bind_eq_ok_iff _ _ _).mp hw
    obtain ⟨made, hmade, hall⟩ := ih
    cases hw
    exact ⟨f :: made, .cons hf hmade, by rw [hall]; rfl⟩

/-- A bundle with what its stages gave and its guide: what was made for its windows and fonts and at
last the guide to these windows, put one after the other. -/
def Stages.assembly (o : ExportOptions) (s : Stages) (g : Guide) : Assembly where
  files := Keyed.ofList (s.entries o ++ [(Guide.file, .text g.text)])
  windows := s.equipment.windows.map fun w => w.window.name
  warnings := s.warnings ++ s.equipment.warnings
  savings := savings s.equipment.results

/-- **A bundle is assembled only through all stages.** -/
theorem assembly_of_assemble {p : Project} {o : ExportOptions} {windowId : Option String}
    {a : Assembly} (h : assemble p o windowId = .ok a) :
    ∃ s, Reached p o windowId s ∧ ∃ names g,
      guide p o (links s.several s.equipment.windows) names s.equipment.windows = .ok g
        ∧ a = s.assembly o g := by
  rw [assemble] at h
  obtain ⟨windows, hselected, h⟩ := (bind_eq_ok_iff _ _ _).mp h
  split at h
  · cases h
  next hne =>
  obtain ⟨⟨prepared, warnings⟩, hprepared, h⟩ := (bind_eq_ok_iff _ _ _).mp h
  obtain ⟨e, he, h⟩ := (bind_eq_ok_iff _ _ _).mp h
  obtain ⟨perWindow, hfiles, h⟩ := (bind_eq_ok_iff _ _ _).mp h
  obtain ⟨g, hg, h⟩ := (bind_eq_ok_iff _ _ _).mp h
  obtain ⟨names, hnames, hwindows⟩ := prepare_keeps hprepared
  obtain ⟨made, hmade, hentries⟩ := mapM_entries hfiles
  -- `several` is asked of the prepared windows, which are as many as the selected ones
  have hlength : prepared.length = windows.length := by
    have hlen := congrArg List.length hwindows
    rw [List.length_map, List.length_zip, Name.length_slugs,
      ← ((mapM_eq_ok_iff _ _ _).mp hnames).length_eq, Nat.min_self] at hlen
    exact hlen
  rw [hlength] at hmade hentries hg
  let s : Stages := ⟨windows, names, prepared, warnings, e, made⟩
  have hs : Reached p o windowId s :=
    { selected := hselected
      windows_ne_nil := fun hnil => hne (by rw [show windows = [] from hnil]; rfl)
      named := hnames
      prepared := hprepared
      equipped := he
      made := hmade }
  refine ⟨s, hs, _, g, hg, ?_⟩
  cases h
  rw [Stages.assembly, Keyed.ofList_append_singleton, Stages.entries, ← hs.slugs_eq, hentries]
  rfl

/-- The files of a bundle with the guide that is the last of them. -/
theorem guide_of_assemble {p : Project} {o : ExportOptions} {windowId : Option String}
    {a : Assembly} (h : assemble p o windowId = .ok a) :
    ∃ s, Reached p o windowId s ∧ ∃ names g,
      guide p o (links s.several s.equipment.windows) names s.equipment.windows = .ok g
        ∧ a.files = Keyed.ofList (s.entries o ++ [(Guide.file, .text g.text)]) := by
  obtain ⟨s, hs, names, g, hg, rfl⟩ := assembly_of_assemble h
  exact ⟨s, hs, names, g, hg, rfl⟩

/-- The files of a bundle, whatever the guide tells. -/
theorem stages_of_assemble {p : Project} {o : ExportOptions} {windowId : Option String}
    {a : Assembly} (h : assemble p o windowId = .ok a) :
    ∃ s, Reached p o windowId s
      ∧ ∃ text, a.files = Keyed.ofList (s.entries o ++ [(Guide.file, .text text)]) := by
  obtain ⟨s, hs, _, g, _, hfiles⟩ := guide_of_assemble h
  exact ⟨s, hs, g.text, hfiles⟩

end ControlSurface.Bundle
