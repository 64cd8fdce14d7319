/-
  ControlSurface.Proofs.Bundle.Paths
  ──────────────────────────────────
  The paths of a bundle.  With several windows every path is a place, a directory and a name in it
  (`keys_entries`), and two paths are one only if their places are (`pathOf_inj`).  So no path comes
  twice iff directories differ and no font is named like a file of a window beside it
  (`nodup_places_iff`), and what lies in a directory are the files of its window
  (`filter_windows`).
-/
import ControlSurface.Proofs.Bundle.Stages

namespace ControlSurface.Bundle

/-! ## §1. Paths. -/

/-- The names of the files that every window has. -/
def fileNames : List String := ["index.html", "style.css", "components.js", "bindings.js"]

/-- The directory of the fonts. -/
def fontDirectory : String := "fonts"

/-- The path of a file in a directory. -/
def pathOf (place : String × String) : String := place.1 ++ "/" ++ place.2

/-- The first slash of a path ends its directory. -/
theorem pathOf_inj {a b : String × String} (ha : '/' ∉ a.1.toList) (hb : '/' ∉ b.1.toList)
    (h : pathOf a = pathOf b) : a = b := by
  have hl := congrArg String.toList h
  simp only [pathOf, String.toList_append, List.append_assoc] at hl
  obtain ⟨h1, h2⟩ := Text.append_mark_inj ha hb hl
  exact Prod.ext (String.toList_inj.mp h1) (String.toList_inj.mp h2)

theorem slash_not_mem_fontDirectory : '/' ∉ fontDirectory.toList := by decide

/-- A path has a slash. -/
theorem slash_mem_pathOf (place : String × String) : '/' ∈ (pathOf place).toList := by
  simp [pathOf]

/-- Where the files of windows in directories of their own stand, and where the fonts do. -/
def Stages.places (s : Stages) : List (String × String) :=
  s.slugs.flatMap (fun slug => fileNames.map fun name => (slug, name))
    ++ s.equipment.shipped.map fun f => (fontDirectory, f.filename)

theorem keys_windowEntries (o : ExportOptions) (several : Bool) (slug : String) (f : WindowFiles) :
    Keyed.keys (windowEntries o several slug f)
      = fileNames.map fun name => directory several slug ++ name := rfl

theorem keys_fontEntries (fonts : List BundledFont) :
    Keyed.keys (fontEntries fonts)
      = fonts.map fun f => pathOf (fontDirectory, f.filename) := by
  rw [Keyed.keys, fontEntries, List.map_map]
  rfl

theorem keys_windows (o : ExportOptions) (several : Bool) (slugs : List String)
    (made : List WindowFiles) (h : made.length = slugs.length) :
    Keyed.keys (List.zipWith (windowEntries o several) slugs made).flatten
      = slugs.flatMap fun slug => fileNames.map fun name => directory several slug ++ name := by
  induction slugs generalizing made with
  | nil => rfl
  | cons slug slugs ih =>
    cases made with
    | nil => simp at h
    | cons f made =>
      rw [List.zipWith_cons_cons, List.flatten_cons, Keyed.keys_append, keys_windowEntries,
        ih made (by simpa using h), List.flatMap_cons]

/-- With several windows, every file has a place. -/
theorem keys_entries (o : ExportOptions) (s : Stages) (hs : s.several = true)
    (hlength : s.made.length = s.slugs.length) :
    Keyed.keys (s.entries o) = s.places.map pathOf := by
  rw [Stages.entries, Keyed.keys_append, keys_windows o s.several _ _ hlength, keys_fontEntries,
    hs, Stages.places, List.map_append, List.map_flatMap, List.map_map]
  refine congrArg₂ (· ++ ·) ?_ rfl
  refine congrArg (fun f => List.flatMap f s.slugs) (funext fun slug => ?_)
  rw [List.map_map]
  rfl

/-- No font is named like a file of a window in the directory of the fonts. -/
def Stages.FontsApart (s : Stages) : Prop :=
  fontDirectory ∈ s.slugs → ∀ f ∈ s.equipment.shipped, f.filename ∉ fileNames

/-- Places are all different iff the directories of the windows are and the fonts are apart from
them. -/
theorem nodup_places_iff (s : Stages)
    (hfonts : (s.equipment.shipped.map BundledFont.filename).Nodup) :
    s.places.Nodup ↔ s.slugs.Nodup ∧ s.FontsApart := by
  -- the four files of one window differ in name, those of two windows in directory
  have hwindows : (s.slugs.flatMap fun slug => fileNames.map fun name => (slug, name)).Nodup
      ↔ s.slugs.Nodup := by
    rw [List.nodup_flatMap]
    constructor
    · rintro ⟨_, hpair⟩
      refine hpair.imp ?_
      rintro a b hdisjoint rfl
      have hmem : (a, "index.html") ∈ fileNames.map fun name => (a, name) := by simp [fileNames]
      exact hdisjoint hmem hmem
    · intro h
      refine ⟨fun slug _ => ?_, h.imp ?_⟩
      · exact List.Nodup.map (fun x y hxy => congrArg Prod.snd hxy) (by decide)
      · rintro a b hab ⟨d, name⟩ ha hb
        obtain ⟨_, _, ha⟩ := List.mem_map.mp ha
        obtain ⟨_, _, hb⟩ := List.mem_map.mp hb
        exact hab ((congrArg Prod.fst ha).trans (congrArg Prod.fst hb).symm)
  have hshipped : (s.equipment.shipped.map fun f => (fontDirectory, f.filename)).Nodup := by
    have h := hfonts.map (f := fun name : String => (fontDirectory, name))
      (fun x y hxy => congrArg Prod.snd hxy)
    rwa [List.map_map] at h
  rw [Stages.places, List.nodup_append, hwindows]
  -- a place of a window is one of a font only in the directory of the fonts
  constructor
  · rintro ⟨hslugs, _, hdisjoint⟩
    refine ⟨hslugs, fun hmem f hf hname => ?_⟩
    refine hdisjoint (fontDirectory, f.filename) ?_ (fontDirectory, f.filename) ?_ rfl
    · exact List.mem_flatMap.mpr ⟨_, hmem, List.mem_map.mpr ⟨_, hname, rfl⟩⟩
    · exact List.mem_map.mpr ⟨f, hf, rfl⟩
  · rintro ⟨hslugs, hapart⟩
    refine ⟨hslugs, hshipped, ?_⟩
    rintro a ha b hb rfl
    obtain ⟨slug, hslug, ha⟩ := List.mem_flatMap.mp ha
    obtain ⟨name, hname, rfl⟩ := List.mem_map.mp ha
    obtain ⟨f, hf, hb⟩ := List.mem_map.mp hb
    obtain ⟨hdir, hfile⟩ := Prod.mk.inj hb
    subst hdir hfile
    exact hapart hslug f hf hname

/-! ## §2. What stands in a directory. -/

/-- Whether a path lies in the directory of a window.  A window alone has the root of the bundle,
where the guide lies too. -/
def liesIn (several : Bool) (slug path : String) : Bool :=
  if several then (slug ++ "/").toList.isPrefixOf path.toList
  else !path.toList.contains '/' && path != Guide.file

/-- With several windows, what lies in the directory of one is what has its place there. -/
theorem liesIn_pathOf {slug : String} {place : String × String} (hs : '/' ∉ slug.toList)
    (hp : '/' ∉ place.1.toList) :
    liesIn true slug (pathOf place) = true ↔ place.1 = slug := by
  rw [liesIn, if_pos rfl, List.isPrefixOf_iff_prefix]
  constructor
  · rintro ⟨rest, hrest⟩
    have hl : slug.toList ++ '/' :: rest = place.1.toList ++ '/' :: place.2.toList := by
      simpa [pathOf, String.toList_append] using hrest
    exact (String.toList_inj.mp (Text.append_mark_inj hs hp hl).1).symm
  · rintro rfl
    refine ⟨place.2.toList, ?_⟩
    simp [pathOf, String.toList_append]

/-- What lies in a directory has a slash in its path; what lies at the root has none. -/
theorem slash_mem_of_liesIn {several : Bool} {slug path : String}
    (h : liesIn several slug path = true) : '/' ∈ path.toList ↔ several = true := by
  cases several with
  | true =>
    rw [liesIn, if_pos rfl, List.isPrefixOf_iff_prefix] at h
    have hslash : '/' ∈ (slug ++ "/").toList := by simp
    simpa using h.subset hslash
  | false =>
    simp only [liesIn, Bool.false_eq_true, if_false, Bool.and_eq_true, Bool.not_eq_true',
      List.contains_eq_mem, decide_eq_false_iff_not] at h
    simpa using h.1

/-- Entries whose paths have a place in other directories do not lie in the one of a window. -/
theorem filter_liesIn_eq_nil {slug : String} {entries : Files} (hs : '/' ∉ slug.toList)
    (h : ∀ path ∈ Keyed.keys entries,
      ∃ place : String × String, '/' ∉ place.1.toList ∧ place.1 ≠ slug ∧ path = pathOf place) :
    entries.filter (fun file => liesIn true slug file.1) = [] := by
  rw [List.filter_eq_nil_iff]
  intro file hfile hlies
  obtain ⟨place, hplace, hne, hpath⟩ := h file.1 (Keyed.mem_keys hfile)
  rw [hpath, liesIn_pathOf hs hplace] at hlies
  exact hne hlies

/-- Slugs that differ make directories that differ. -/
theorem nodup_directories {slugs : List String} (h : slugs.Nodup) :
    (slugs.map (directory true)).Nodup := by
  refine h.map ?_
  intro a b hab
  have hl := congrArg String.toList hab
  simp only [directory, if_true, String.toList_append] at hl
  exact String.toList_inj.mp (List.append_cancel_right hl)

/-- The files of a window lie in its directory. -/
theorem filter_windowEntries (o : ExportOptions) (slug : String) (f : WindowFiles)
    (hs : '/' ∉ slug.toList) :
    (windowEntries o true slug f).filter (fun file => liesIn true slug file.1)
      = windowEntries o true slug f := by
  rw [List.filter_eq_self]
  intro file hfile
  have hkey := Keyed.mem_keys hfile
  rw [keys_windowEntries] at hkey
  obtain ⟨name, _, hname⟩ := List.mem_map.mp hkey
  rw [← hname]
  have hplace : '/' ∉ (slug, name).1.toList := hs
  exact (liesIn_pathOf hs hplace).mpr rfl

/-- Among the files of windows whose directories differ, those of one lie in its directory. -/
theorem filter_windows (o : ExportOptions) (slugs : List String) (made : List WindowFiles)
    (hlength : made.length = slugs.length) (hslash : ∀ slug ∈ slugs, '/' ∉ slug.toList)
    (hdistinct : slugs.Nodup) (e : String × WindowFiles) (he : e ∈ slugs.zip made) :
    (List.zipWith (windowEntries o true) slugs made).flatten.filter
        (fun file => liesIn true e.1 file.1)
      = windowEntries o true e.1 e.2 := by
  induction slugs generalizing made with
  | nil => simp at he
  | cons slug slugs ih =>
    cases made with
    | nil => simp at he
    | cons f made =>
      have hlength : made.length = slugs.length := by simpa using hlength
      have hrest := fun d hd => hslash d (List.mem_cons_of_mem slug hd)
      obtain ⟨hnew, hdistinct⟩ := List.nodup_cons.mp hdistinct
      rw [List.zipWith_cons_cons, List.flatten_cons, List.filter_append]
      rw [List.zip_cons_cons, List.mem_cons] at he
      rcases he with rfl | he
      · -- the first window: nothing of the others lies in its directory
        have hs := hslash slug (List.mem_cons_self ..)
        rw [filter_windowEntries o slug f hs, filter_liesIn_eq_nil hs ?_, List.append_nil]
        intro path hpath
        rw [keys_windows o true slugs made hlength] at hpath
        obtain ⟨d, hd, hpath⟩ := List.mem_flatMap.mp hpath
        obtain ⟨name, _, rfl⟩ := List.mem_map.mp hpath
        exact ⟨(d, name), hrest d hd, fun h => hnew (h ▸ hd), rfl⟩
      · -- a later window: nothing of the first one lies in its directory
        have hmem : e.1 ∈ slugs := (List.of_mem_zip he).1
        rw [ih made hlength hrest hdistinct he, filter_liesIn_eq_nil (hrest e.1 hmem) ?_,
          List.nil_append]
        intro path hpath
        rw [keys_windowEntries] at hpath
        obtain ⟨name, _, rfl⟩ := List.mem_map.mp hpath
        exact ⟨(slug, name), hslash slug (List.mem_cons_self ..),
          fun h => hnew ((show slug = e.1 from h) ▸ hmem), rfl⟩

/-- The guide lies in no directory, and not among the files of a window alone. -/
theorem liesIn_guide (several : Bool) (slug : String) : liesIn several slug Guide.file = false := by
  rw [Bool.eq_false_iff]
  intro h
  cases several with
  | true => exact absurd ((slash_mem_of_liesIn h).mpr rfl) (by decide)
  | false => simp [liesIn] at h

/-- The fonts lie in the directory of a window iff it is theirs. -/
theorem filter_fontEntries (several : Bool) (slug : String) (fonts : List BundledFont)
    (hs : '/' ∉ slug.toList) (h : several = true → slug = fontDirectory → fonts = []) :
    (fontEntries fonts).filter (fun file => liesIn several slug file.1) = [] := by
  rw [List.filter_eq_nil_iff]
  intro file hfile hlies
  have hkey := Keyed.mem_keys hfile
  rw [keys_fontEntries] at hkey
  obtain ⟨f, hf, hpath⟩ := List.mem_map.mp hkey
  rw [← hpath] at hlies
  -- a path with a slash lies in no window that stands alone
  have hseveral : several = true := (slash_mem_of_liesIn hlies).mp (slash_mem_pathOf _)
  subst hseveral
  have hslug : fontDirectory = slug := (liesIn_pathOf hs slash_not_mem_fontDirectory).mp hlies
  rw [h rfl hslug.symm] at hf
  exact absurd hf List.not_mem_nil

/-- The files of a window alone lie at the root. -/
theorem filter_alone (o : ExportOptions) (slug : String) (f : WindowFiles) :
    (windowEntries o false slug f).filter (fun file => liesIn false slug file.1)
      = windowEntries o false slug f := by
  rw [List.filter_eq_self]
  intro file hfile
  have hkey := Keyed.mem_keys hfile
  rw [keys_windowEntries] at hkey
  obtain ⟨name, hname, hpath⟩ := List.mem_map.mp hkey
  have hplain : ∀ name ∈ fileNames, '/' ∉ name.toList ∧ name ≠ Guide.file := by decide
  rw [← hpath]
  simpa [liesIn, directory] using hplain name hname

end ControlSurface.Bundle
