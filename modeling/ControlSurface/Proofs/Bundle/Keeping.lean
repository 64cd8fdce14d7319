/-
  ControlSurface.Proofs.Bundle.Keeping
  ────────────────────────────────────
  Which bundles keep all their files.  The files of a bundle are put under their paths one after the
  other, so a file is lost when a path comes twice.  With several windows that happens when two of
  them share a directory, or when a font is named like one of the files of a window whose directory
  is that of the fonts; `keepsEveryFile_iff` says that nothing else can go wrong, in terms of the
  names of the windows.
-/
import ControlSurface.Proofs.Bundle.Paths
import ControlSurface.Proofs.Layout.Identity

namespace ControlSurface.Bundle

/-! ## §1. Bundles that keep every file. -/

/-- A bundle keeps every file that is made for it, and keeps its windows apart. -/
structure KeepsEveryFile (o : ExportOptions) (s : Stages) (files : Files) : Prop where
  /-- Four files for each window, one for each font, and the guide. -/
  count : files.length = 4 * s.windows.length + s.equipment.shipped.length + 1
  /-- No two windows share a directory. -/
  apart : (s.slugs.map (directory s.several)).Nodup
  /-- In the directory of a window stand the files that were made for it, and no others. -/
  standing : ∀ e ∈ s.slugs.zip s.made,
    files.filter (fun file => liesIn s.several e.1 file.1) = windowEntries o s.several e.1 e.2

/-! ## §2. Paths of a bundle. -/

namespace Reached

variable {p : Project} {o : ExportOptions} {windowId : Option String} {s : Stages}

theorem length_entries (h : Reached p o windowId s) :
    (s.entries o).length = 4 * s.windows.length + s.equipment.shipped.length := by
  have hkeys := congrArg List.length
    (keys_windows o s.several s.slugs s.made h.length_made)
  rw [Keyed.keys, List.length_map, List.length_flatMap] at hkeys
  rw [Stages.entries, List.length_append, hkeys, fontEntries, List.length_map]
  simp [fileNames, h.length_slugs, Nat.mul_comm]

theorem slash_not_mem_slugs (slug : String) (hslug : slug ∈ s.slugs) : '/' ∉ slug.toList :=
  Name.slash_not_mem_slugs (by decide) hslug

/-- There is at least one window. -/
theorem slugs_alone (h : Reached p o windowId s) (hs : s.several = false) :
    ∃ slug, s.slugs = [slug] := by
  refine List.length_eq_one_iff.mp ?_
  have hne := List.length_pos_iff.mpr h.windows_ne_nil
  have hle := of_decide_eq_false hs
  rw [h.length_slugs]
  omega

/-- A window alone has its files at the root. -/
theorem keys_alone (h : Reached p o windowId s) (hs : s.several = false) :
    Keyed.keys (s.entries o)
      = fileNames ++ s.equipment.shipped.map fun f => pathOf (fontDirectory, f.filename) := by
  obtain ⟨slug, hslug⟩ := h.slugs_alone hs
  rw [Stages.entries, Keyed.keys_append, keys_windows o s.several _ _ h.length_made,
    keys_fontEntries, hs, hslug]
  rfl

/-- The guide lies at the root, where only a window alone has files. -/
theorem guide_not_mem_keys (h : Reached p o windowId s) :
    Guide.file ∉ Keyed.keys (s.entries o) := by
  -- the path of a place has a slash, that of the guide has none
  have hplace : ∀ place, pathOf place ≠ Guide.file := by
    intro place heq
    have hslash := slash_mem_pathOf place
    rw [heq] at hslash
    exact absurd hslash (by decide)
  intro hmem
  cases hs : s.several with
  | true =>
    rw [keys_entries o s hs h.length_made] at hmem
    obtain ⟨place, _, heq⟩ := List.mem_map.mp hmem
    exact hplace place heq
  | false =>
    rw [h.keys_alone hs, List.mem_append] at hmem
    rcases hmem with hmem | hmem
    · exact absurd hmem (by decide)
    · obtain ⟨f, _, heq⟩ := List.mem_map.mp hmem
      exact hplace _ heq

/-- No directory of a bundle has a slash in its name. -/
theorem slash_not_mem_places (place : String × String) (hplace : place ∈ s.places) :
    '/' ∉ place.1.toList := by
  rcases List.mem_append.mp hplace with hmem | hmem
  · obtain ⟨slug, hslug, hmem⟩ := List.mem_flatMap.mp hmem
    obtain ⟨name, _, rfl⟩ := List.mem_map.mp hmem
    exact slash_not_mem_slugs slug hslug
  · obtain ⟨f, _, rfl⟩ := List.mem_map.mp hmem
    show '/' ∉ fontDirectory.toList
    decide

/-- **No path comes twice** iff several windows have directories of their own, apart from the
fonts. -/
theorem nodup_keys_iff (h : Reached p o windowId s) :
    (Keyed.keys (s.entries o)).Nodup
      ↔ (1 < s.windows.length → s.slugs.Nodup ∧ s.FontsApart) := by
  have hfonts := (equip_keeps h.equipped).2
  cases hs : s.several with
  | true =>
    have hseveral : 1 < s.windows.length := of_decide_eq_true hs
    rw [keys_entries o s hs h.length_made]
    simp only [hseveral, forall_const]
    rw [← nodup_places_iff s hfonts]
    constructor
    · exact List.Nodup.of_map pathOf
    · intro hplaces
      refine hplaces.map_on ?_
      intro a ha b hb
      exact pathOf_inj (slash_not_mem_places a ha) (slash_not_mem_places b hb)
  | false =>
    have halone : ¬ 1 < s.windows.length := of_decide_eq_false hs
    simp only [halone, false_implies, iff_true]
    rw [h.keys_alone hs, List.nodup_append]
    refine ⟨by decide, ?_, ?_⟩
    · have hmap := hfonts.map (f := fun name : String => pathOf (fontDirectory, name)) ?_
      · rwa [List.map_map] at hmap
      · intro x y hxy
        exact congrArg Prod.snd (pathOf_inj slash_not_mem_fontDirectory
          slash_not_mem_fontDirectory hxy)
    · rintro name hname path hpath rfl
      obtain ⟨f, _, heq⟩ := List.mem_map.mp hpath
      have hslash := slash_mem_pathOf (fontDirectory, f.filename)
      rw [heq] at hslash
      have hplain : ∀ name ∈ fileNames, '/' ∉ name.toList := by decide
      exact hplain name hname hslash

/-- The guide is one more file beside those of the windows and fonts. -/
theorem nodup_keys_guide_iff (h : Reached p o windowId s) (text : String) :
    (Keyed.keys (s.entries o ++ [(Guide.file, Content.text text)])).Nodup
      ↔ (Keyed.keys (s.entries o)).Nodup := by
  rw [Keyed.keys_append, List.nodup_append]
  constructor
  · exact fun hall => hall.1
  · intro hkeys
    refine ⟨hkeys, by simp [Keyed.keys], ?_⟩
    rintro path hpath guide hguide rfl
    have hguide : path = Guide.file := by simpa [Keyed.keys] using hguide
    exact h.guide_not_mem_keys (hguide ▸ hpath)

/-- Files are as many as were made iff no path comes twice. -/
theorem count_iff (h : Reached p o windowId s) (text : String) :
    (Keyed.ofList (s.entries o ++ [(Guide.file, Content.text text)])).length
        = 4 * s.windows.length + s.equipment.shipped.length + 1
      ↔ (Keyed.keys (s.entries o)).Nodup := by
  have hlength := Keyed.length_ofList_eq_iff (s.entries o ++ [(Guide.file, Content.text text)])
  rw [List.length_append, h.length_entries, List.length_singleton] at hlength
  rw [hlength, h.nodup_keys_guide_iff]

/-- If no path comes twice, files stand as they were made. -/
theorem ofList_eq (h : Reached p o windowId s) {text : String}
    (hnodup : (Keyed.keys (s.entries o)).Nodup) :
    Keyed.ofList (s.entries o ++ [(Guide.file, Content.text text)])
      = s.entries o ++ [(Guide.file, Content.text text)] :=
  Keyed.ofList_of_nodup _ ((h.nodup_keys_guide_iff text).mpr hnodup)

/-! ## §3. What is standing. -/

/-- If several windows have directories of their own and that of the fonts is left to them, in the
directory of each window stands what was made for it. -/
theorem standing (h : Reached p o windowId s) (text : String)
    (hapart : 1 < s.windows.length →
      s.slugs.Nodup ∧ (fontDirectory ∈ s.slugs → s.equipment.shipped = []))
    (e : String × WindowFiles) (he : e ∈ s.slugs.zip s.made) :
    (s.entries o ++ [(Guide.file, Content.text text)]).filter
        (fun file => liesIn s.several e.1 file.1)
      = windowEntries o s.several e.1 e.2 := by
  have hlength := h.length_made
  have hslug : e.1 ∈ s.slugs := (List.of_mem_zip he).1
  have hguide : [(Guide.file, Content.text text)].filter
      (fun file => liesIn s.several e.1 file.1) = [] := by
    simp [liesIn_guide]
  have hfonts : (fontEntries s.equipment.shipped).filter
      (fun file => liesIn s.several e.1 file.1) = [] := by
    refine filter_fontEntries _ _ _ (slash_not_mem_slugs e.1 hslug) ?_
    intro hseveral heq
    exact (hapart (of_decide_eq_true hseveral)).2 (heq ▸ hslug)
  rw [Stages.entries, List.filter_append, List.filter_append, hfonts, hguide, List.append_nil,
    List.append_nil]
  cases hs : s.several with
  | true =>
    exact filter_windows o s.slugs s.made hlength slash_not_mem_slugs
      (hapart (of_decide_eq_true hs)).1 e he
  | false =>
    -- a window alone is the only one, and the root is its directory
    obtain ⟨slug, hslugs⟩ := h.slugs_alone hs
    obtain ⟨f, hmade⟩ := List.length_eq_one_iff.mp (hlength.trans (by rw [hslugs]; rfl))
    rw [hslugs, hmade] at he ⊢
    have he : e = (slug, f) := by simpa using he
    subst he
    rw [List.zipWith_cons_cons, List.zipWith_nil_left, List.flatten_cons, List.flatten_nil,
      List.append_nil]
    exact filter_alone o slug f

/-- If in the directory of the fonts a window has only its own files, and no font is named like one
of them, no font is shipped. -/
theorem shipped_eq_nil {files : Files} (h : Reached p o windowId s) (hs : s.several = true)
    (hmem : fontDirectory ∈ s.slugs) (hapart : s.FontsApart)
    (hfonts : ∀ file ∈ fontEntries s.equipment.shipped, file ∈ files)
    (hstanding : ∀ e ∈ s.slugs.zip s.made,
      files.filter (fun file => liesIn s.several e.1 file.1)
        = windowEntries o s.several e.1 e.2) :
    s.equipment.shipped = [] := by
  rw [List.eq_nil_iff_forall_not_mem]
  -- a font that is shipped would lie among the files of the window in the directory of the fonts
  intro g hg
  have hlength := h.length_made
  obtain ⟨i, hi, hslug⟩ := List.getElem_of_mem hmem
  have hzip : (s.slugs[i], s.made[i]) ∈ s.slugs.zip s.made := by
    rw [List.mem_iff_getElem]
    exact ⟨i, by rw [List.length_zip]; omega, List.getElem_zip⟩
  rw [hslug] at hzip
  have hentry : (pathOf (fontDirectory, g.filename), Content.bytes g.data)
      ∈ fontEntries s.equipment.shipped := List.mem_map.mpr ⟨g, hg, rfl⟩
  have hlies : (pathOf (fontDirectory, g.filename), Content.bytes g.data)
      ∈ windowEntries o s.several fontDirectory s.made[i] := by
    rw [← hstanding _ hzip, List.mem_filter, hs]
    exact ⟨hfonts _ hentry,
      (liesIn_pathOf slash_not_mem_fontDirectory slash_not_mem_fontDirectory).mpr rfl⟩
  have hkey : pathOf (fontDirectory, g.filename)
      ∈ Keyed.keys (windowEntries o s.several fontDirectory s.made[i]) :=
    List.mem_map.mpr ⟨_, hlies, rfl⟩
  rw [keys_windowEntries, hs] at hkey
  obtain ⟨name, hname, hpath⟩ := List.mem_map.mp hkey
  have hsame : (fontDirectory, name) = (fontDirectory, g.filename) :=
    pathOf_inj slash_not_mem_fontDirectory slash_not_mem_fontDirectory hpath
  exact hapart hmem g hg ((Prod.mk.inj hsame).2 ▸ hname)

end Reached

/-! ## §4. When every file is kept. -/

/-- **A bundle keeps every file** unless, with several windows, the name of one spells out the
suffix of a repeated one, or one is named like the directory of the fonts and fonts are shipped.
All files are there, if not in a directory of their own, as long as no such font is named like a
file of a window. -/
theorem keepsEveryFile_iff {p : Project} {o : ExportOptions} {windowId : Option String}
    {a : Assembly} (h : assemble p o windowId = .ok a) :
    ∃ s, Reached p o windowId s
      ∧ (KeepsEveryFile o s a.files
          ↔ (1 < s.windows.length →
              ¬ Name.SpellsSuffix Name.defaultSlug s.names
                ∧ (fontDirectory ∈ Name.bases Name.defaultSlug s.names →
                    s.equipment.shipped = [])))
      ∧ (a.files.length = 4 * s.windows.length + s.equipment.shipped.length + 1
          ↔ (1 < s.windows.length →
              ¬ Name.SpellsSuffix Name.defaultSlug s.names
                ∧ (fontDirectory ∈ Name.bases Name.defaultSlug s.names →
                    ∀ f ∈ s.equipment.shipped, f.filename ∉ fileNames))) := by
  obtain ⟨s, hs, text, hfiles⟩ := stages_of_assemble h
  have hspelled := Name.nodup_slugs_iff Name.defaultSlug s.names
  have hfont : fontDirectory ∈ s.slugs ↔ fontDirectory ∈ Name.bases Name.defaultSlug s.names :=
    Name.mem_slugs_of_no_hyphen (by decide)
  refine ⟨s, hs, ?_, ?_⟩
  · rw [← hspelled, ← hfont]
    constructor
    · -- the count tells that no path comes twice, the directories that the fonts have none of them
      intro hkeeps hseveral
      have hnodup := (hs.count_iff text).mp (hfiles ▸ hkeeps.count)
      obtain ⟨hslugs, hapart⟩ := hs.nodup_keys_iff.mp hnodup hseveral
      refine ⟨hslugs, fun hmem => ?_⟩
      refine hs.shipped_eq_nil (decide_eq_true hseveral) hmem hapart ?_ hkeeps.standing
      rw [hfiles, hs.ofList_eq hnodup]
      simp +contextual [Stages.entries]
    · -- where no fonts are shipped, none can be named like a file of a window
      intro hapart
      have hnodup : (Keyed.keys (s.entries o)).Nodup := by
        refine hs.nodup_keys_iff.mpr fun hseveral => ⟨(hapart hseveral).1, ?_⟩
        intro hmem f hf
        rw [(hapart hseveral).2 hmem] at hf
        exact absurd hf List.not_mem_nil
      refine ⟨hfiles ▸ (hs.count_iff text).mpr hnodup, ?_, ?_⟩
      · cases hs' : s.several with
        | true => exact nodup_directories (hapart (of_decide_eq_true hs')).1
        | false =>
          obtain ⟨slug, hslug⟩ := hs.slugs_alone hs'
          rw [hslug]
          exact List.nodup_singleton _
      · rw [hfiles, hs.ofList_eq hnodup]
        exact hs.standing text hapart
  · rw [hfiles, hs.count_iff, hs.nodup_keys_iff, ← hspelled, ← hfont]
    rfl

/-! ## §5. Windows without elements. -/

/-- A window that shows nothing. -/
def emptyWindow (name : String) : Window :=
  { id := name, name := .text name, kind := .text "release", width := 4, height := 3
    backgroundColor := .text "#000", backgroundType := .text "color", gradient := none
    elementIds := [] }

/-- A project of windows that show nothing. -/
def emptyProject (names : List String) : Project :=
  { name := .text "Synth", elements := [], windows := names.map emptyWindow, layers := []
    fonts := [] }

/-- An export of the plainest kind. -/
def plainOptions : ExportOptions :=
  { optimizeAssets := false, responsive := false, customScrollbars := false }

theorem select_empty (names : List String) :
    select (emptyProject names) plainOptions none = .ok (names.map emptyWindow) := by
  have hall : ∀ w ∈ names.map emptyWindow,
      (w.exportedByDefault || plainOptions.developerWindows) = true := by
    intro w hw
    obtain ⟨name, _, rfl⟩ := List.mem_map.mp hw
    rfl
  rw [select]
  exact congrArg Except.ok (List.filter_eq_self.mpr hall)

theorem names_empty (names : List String) :
    (names.map emptyWindow).mapM (fun w => w.name.string) = .ok names := by
  rw [Outcome.mapM_eq_ok_iff, List.forall₂_map_left_iff, List.forall₂_same]
  intro name _
  rfl

/-- Nothing is found in windows that show nothing. -/
theorem inspect_empty (names known : List String) (several : Bool)
    (given : List (String × String)) :
    inspect (emptyProject names) known several (given.map fun e => (emptyWindow e.1, e.2))
      = .ok ⟨given.map fun e => ⟨emptyWindow e.1, e.2, [], [], []⟩, [], []⟩ := by
  induction given with
  | nil => rfl
  | cons e rest ih =>
    have hresolve : Layout.resolve (emptyProject names).elements (emptyWindow e.1) = [] := by
      simp [Layout.resolve, emptyProject, emptyWindow, Layout.visit]
    rw [List.map_cons, inspect, Layout.shownBy_of_hasKeys rfl, hresolve, ih]
    rfl

/-- Windows that show nothing can be prepared. -/
theorem prepare_empty (names : List String) :
    prepare (emptyProject names) (names.map emptyWindow)
      = .ok ((names.zip (Name.slugs names Name.defaultSlug)).map
          fun e => ⟨emptyWindow e.1, e.2, [], [], []⟩, []) := by
  have hzip : (names.map emptyWindow).zip (Name.slugs names Name.defaultSlug)
      = (names.zip (Name.slugs names Name.defaultSlug)).map fun e => (emptyWindow e.1, e.2) :=
    List.zip_map_left ..
  rw [prepare, withSlugs, names_empty]
  show (inspect _ _ _ ((names.map emptyWindow).zip (Name.slugs names Name.defaultSlug)) >>= _) = _
  rw [hzip, inspect_empty]
  rfl

/-- A bundle of windows that show nothing has their names. -/
theorem stages_empty {names : List String}
    (h : (assemble (emptyProject names) plainOptions none).isOk = true) :
    ∃ a, assemble (emptyProject names) plainOptions none = .ok a
      ∧ ∀ s, Reached (emptyProject names) plainOptions none s →
        s.names = names ∧ s.windows.length = names.length := by
  obtain ⟨a, ha⟩ := Outcome.exists_of_isOk h
  refine ⟨a, ha, fun s hs => ?_⟩
  have hwindows : names.map emptyWindow = s.windows :=
    Except.ok.inj ((select_empty names).symm.trans hs.selected)
  have hnames : names = s.names := by
    refine Except.ok.inj ((names_empty names).symm.trans ?_)
    rw [hwindows]
    exact hs.named
  exact ⟨hnames.symm, by rw [← hwindows, List.length_map]⟩

/-- A second window of one name can be exported, and so can a third one that spells its suffix. -/
theorem isOk_repeated {names : List String}
    (h : names = ["Main", "Main"] ∨ names = ["Main", "Main", "Main 2"]) :
    (assemble (emptyProject names) plainOptions none).isOk = true := by
  -- resolving elements does not compute, so what is prepared is put in before the rest is run
  rw [assemble, select_empty]
  rcases h with rfl | rfl
  · show (Except.isOk (prepare _ _ >>= _)) = true
    rw [prepare_empty]
    decide +kernel
  · show (Except.isOk (prepare _ _ >>= _)) = true
    rw [prepare_empty]
    decide +kernel

/-- Two windows of one name keep all their files. -/
theorem repeated_keepsEveryFile :
    ∃ a s, assemble (emptyProject ["Main", "Main"]) plainOptions none = .ok a
      ∧ Reached (emptyProject ["Main", "Main"]) plainOptions none s
      ∧ KeepsEveryFile plainOptions s a.files := by
  obtain ⟨a, ha, hnames⟩ := stages_empty (isOk_repeated (Or.inl rfl))
  obtain ⟨s, hs, hkeeps, _⟩ := keepsEveryFile_iff ha
  refine ⟨a, s, ha, hs, hkeeps.mpr fun _ => ?_⟩
  rw [(hnames s hs).1, ← Name.nodup_slugs_iff]
  refine ⟨by decide, fun hmem => ?_⟩
  exact absurd hmem (by decide)

/-- A third window that is named like the second one's directory takes its files away. -/
theorem spelled_loses_files :
    ∃ a s, assemble (emptyProject ["Main", "Main", "Main 2"]) plainOptions none = .ok a
      ∧ Reached (emptyProject ["Main", "Main", "Main 2"]) plainOptions none s
      ∧ a.files.length ≠ 4 * s.windows.length + s.equipment.shipped.length + 1
      ∧ ¬ KeepsEveryFile plainOptions s a.files := by
  obtain ⟨a, ha, hnames⟩ := stages_empty (isOk_repeated (Or.inr rfl))
  obtain ⟨s, hs, text, hfiles⟩ := stages_of_assemble ha
  obtain ⟨hnames, hlength⟩ := hnames s hs
  have hcount : a.files.length ≠ 4 * s.windows.length + s.equipment.shipped.length + 1 := by
    intro hcount
    rw [hfiles, hs.count_iff, hs.nodup_keys_iff, hlength, Stages.slugs, hnames] at hcount
    exact absurd (hcount (by decide)).1 (by decide)
  exact ⟨a, s, ha, hs, hcount, fun hkeeps => hcount hkeeps.count⟩

end ControlSurface.Bundle
