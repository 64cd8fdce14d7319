/-
  ControlSurface.Proofs.Delivery.AllOrNothing
  ───────────────────────────────────────────
  A bundle is delivered as one unit.  The paths of a bundle begin with a slug, with the directory of
  the fonts or with a plain file name, so none of them leads to the stage; and as long as different
  paths lead to different places, a delivery that fails leaves every file as it was.

  Main results:
    * `folder_all_or_nothing` — for every bundle that can be assembled, every disk and every call of
      staging or moving that fails.
    * `lastMove_restored` — a page that stood in the way is back after the very last move failed.
    * `spelledTwice_stays` — two fonts whose paths lead to one place: the second move fails, and the
      first font is left behind.
-/
import ControlSurface.Proofs.Bundle.Keeping
import ControlSurface.Proofs.Delivery.Restoring
import ControlSurface.Proofs.Layout.Preorder
import ControlSurface.Proofs.Text.Search
import Mathlib.Data.List.Sort
import Mathlib.Data.String.Basic

namespace ControlSurface.Delivery

open Disk FileSystem Rehearsal

/-! ## §1. Paths of a bundle. -/

/-- A path that begins with a directory of a plain name begins with that name. -/
theorem head?_parts {directory file : String} (hslash : '/' ∉ directory.toList)
    (hdot : '.' ∉ directory.toList) (hne : directory ≠ "") :
    (parts (Bundle.pathOf (directory, file))).head? = some directory := by
  have hsplit : Text.split (Bundle.pathOf (directory, file)) "/"
      = directory :: (Text.splitAt ['/'] file.toList).map String.ofList := by
    have hchars : (Bundle.pathOf (directory, file)).toList
        = directory.toList ++ '/' :: file.toList := by
      simp [Bundle.pathOf, String.toList_append]
    show (Text.splitAt ['/'] (Bundle.pathOf (directory, file)).toList).map String.ofList = _
    rw [hchars, Text.splitAt_mark hslash, List.map_cons, String.ofList_toList]
  have hkeep : decide (directory ≠ "" ∧ directory ≠ ".") = true := by
    refine decide_eq_true ⟨hne, ?_⟩
    rintro rfl
    exact hdot (by decide)
  unfold parts Path.ofString
  simp only
  rw [hsplit]
  simp only [ne_eq, Bool.decide_and] at hkeep ⊢
  rw [List.filter_cons_of_pos (by simpa using hkeep)]
  rfl

/-- A path whose first name is not hidden. -/
def BeginsShown (name : String) : Prop :=
  ∃ n, (parts name).head? = some n ∧ n.toList.head? ≠ some '.'

theorem beginsShown_pathOf {directory file : String} (hslash : '/' ∉ directory.toList)
    (hdot : '.' ∉ directory.toList) (hne : directory ≠ "") :
    BeginsShown (Bundle.pathOf (directory, file)) := by
  refine ⟨directory, head?_parts hslash hdot hne, fun hhead => ?_⟩
  exact hdot (List.mem_of_head? hhead)

/-- The paths of files at the root of a bundle are plain names. -/
theorem beginsShown_at_root {name : String} (h : name ∈ Bundle.Guide.file :: Bundle.fileNames) :
    BeginsShown name := by
  have hall : ∀ name ∈ Bundle.Guide.file :: Bundle.fileNames,
      parts name = [name] ∧ name.toList.head? ≠ some '.' := by decide
  obtain ⟨hparts, hhead⟩ := hall name h
  exact ⟨name, by rw [hparts]; rfl, hhead⟩

/-- **The paths of a bundle** begin with a name that is not hidden. -/
theorem beginsShown_of_assemble {p : Project} {o : ExportOptions} {windowId : Option String}
    {a : Bundle.Assembly} (h : Bundle.assemble p o windowId = .ok a) {name : String}
    (hname : name ∈ Keyed.keys a.files) : BeginsShown name := by
  obtain ⟨s, hs, text, hfiles⟩ := Bundle.stages_of_assemble h
  have hfont : ∀ file, BeginsShown (Bundle.pathOf (Bundle.fontDirectory, file)) := fun file =>
    beginsShown_pathOf (by decide) (by decide) (by decide)
  rw [hfiles] at hname
  have hname := Keyed.mem_keys_ofList hname
  rw [Keyed.keys_append, List.mem_append] at hname
  rcases hname with hname | hname
  · cases hseveral : s.several with
    | true =>
      rw [Bundle.keys_entries o s hseveral hs.length_made] at hname
      obtain ⟨place, hplace, rfl⟩ := List.mem_map.mp hname
      rcases List.mem_append.mp hplace with hplace | hplace
      · -- a file of a window, in the directory of its slug
        obtain ⟨slug, hslug, hplace⟩ := List.mem_flatMap.mp hplace
        obtain ⟨file, _, rfl⟩ := List.mem_map.mp hplace
        have hchars := Name.slugs_chars (by decide) hslug
        refine beginsShown_pathOf (Name.slash_not_mem_slugs (by decide) hslug) ?_
          (Name.ne_empty_of_mem_slugs (by decide) hslug)
        intro hdot
        exact absurd (List.all_eq_true.mp hchars '.' hdot) (by decide)
      · obtain ⟨f, _, rfl⟩ := List.mem_map.mp hplace
        exact hfont f.filename
    | false =>
      rw [hs.keys_alone hseveral, List.mem_append] at hname
      rcases hname with hname | hname
      · exact beginsShown_at_root (List.mem_cons_of_mem _ hname)
      · obtain ⟨f, _, rfl⟩ := List.mem_map.mp hname
        exact hfont f.filename
  · have hname : name = Bundle.Guide.file := by simpa [Keyed.keys] using hname
    rw [hname]
    exact beginsShown_at_root (List.mem_cons_self ..)

/-- No path of a bundle is empty, and none begins with a hidden name. -/
theorem shown_of_assemble {p : Project} {o : ExportOptions} {windowId : Option String}
    {a : Bundle.Assembly} (h : Bundle.assemble p o windowId = .ok a) :
    (∀ name ∈ Keyed.keys a.files, parts name ≠ []) ∧ NothingHidden a.files := by
  refine ⟨fun name hname hnil => ?_, fun name hname n hn => ?_⟩
  · obtain ⟨n, hn, _⟩ := beginsShown_of_assemble h hname
    rw [hnil] at hn
    cases hn
  · obtain ⟨n', hn', hshown⟩ := beginsShown_of_assemble h hname
    rw [hn] at hn'
    cases hn'
    exact hshown

/-- A directory whose path leads down only stands clear of every bundle. -/
theorem standsClear_of_assemble {p : Project} {o : ExportOptions} {windowId : Option String}
    {a : Bundle.Assembly} (h : Bundle.assemble p o windowId = .ok a) {d : Disk} {root : Path}
    (hroot : ".." ∉ root.names) : StandsClear d root a.files :=
  standsClear_of_down hroot (shown_of_assemble h).1

/-! ## §2. One unit. -/

/-- **A bundle is delivered as one unit.**  If a call of staging or moving fails, and none while the
delivery is undone, the delivery fails; afterwards every file on the disk is as before, and nothing
is left of the stage.  Different paths of the bundle must lead to different places, and the way to
the directory must not lead through one of them. -/
theorem folder_all_or_nothing {p : Project} {o : ExportOptions} {windowId : Option String}
    {a : Bundle.Assembly} (h : Bundle.assemble p o windowId = .ok a)
    {r r₁ r₂ : Rehearsal} {root stage : Path} {outcome : Except Fault Unit} {moves : Moves}
    (htree : r.disk.IsTree) (hpaths : PathsDiffer a.files)
    (hclear : StandsClear r.disk root a.files)
    (hprepare : (prepareStage root : ExceptT Fault Run Path).run r = (.ok stage, r₁))
    (hrun : (transfer a.files root stage : Run _) r₁ = ((outcome, moves), r₂))
    (hfailed : CallFailed r₁ outcome r₂) (hcalm : r₂.failsAfter = none) :
    ∃ r₃, (writeFolder a.files root : ExceptT Fault Run Path).run r
        = (.error (.deliveryFailed root.toString), r₃)
      ∧ (∀ q, r₃.disk.content? q = r.disk.content? q)
      ∧ ∀ q, r₁.disk.reachOf stage <+: q → r₃.disk.at? q = none := by
  refine writeFolder_restores htree hpaths ?_ hclear hprepare hrun hfailed hcalm
  intro name hname n hn
  obtain ⟨n', hn', hshown⟩ := beginsShown_of_assemble h hname
  rw [hn] at hn'
  cases hn'
  exact hshown

/-- A directory for a bundle. -/
def out : Path := ⟨"/", ["out"]⟩

/-- A machine with an old page in that directory, on which the call after some fails. -/
def withOldPage (calls : Nat) : Rehearsal :=
  { disk := { entries := [(["out"], .directory), (["out", "index.html"], .file (.text "old"))]
              here := [] }
    failsAfter := some calls }

/-- The first stage that is made there. -/
def firstStage : Path := below out [".faceplate-staging-0"]

instance (files : Bundle.Files) : Decidable (PathsDiffer files) :=
  inferInstanceAs (Decidable (List.Nodup _))

theorem isTree_withOldPage (calls : Nat) : (withOldPage calls).disk.IsTree :=
  isTree_of_entries (d := (withOldPage 0).disk) (by decide)

/-- After the stage is made, 26 of 28 calls are left. -/
theorem prepareStage_withOldPage {r₁ : Rehearsal}
    (h : r₁ = ((prepareStage out : ExceptT Fault Run Path).run (withOldPage 28)).2) :
    (prepareStage out : ExceptT Fault Run Path).run (withOldPage 28) = (.ok firstStage, r₁)
      ∧ r₁.failsAfter = some 26 := by
  subst h
  exact ⟨Prod.ext (by decide : _ = Except.ok firstStage) rfl, by decide⟩

/-- The call that is made to fail is one of those that stage or move a bundle of one window. -/
theorem lastMove_withOldPage :
    (Bundle.assemble (Bundle.emptyProject ["Main"]) Bundle.plainOptions none >>= fun a =>
      .ok (decide (PathsDiffer a.files) && (transfer (m := Run) a.files out firstStage
        ((prepareStage out : ExceptT Fault Run Path).run (withOldPage 28)).2).2.failsAfter.isNone))
      = .ok true := by
  -- resolving elements does not compute, so what is prepared is put in before the rest is run
  rw [Bundle.assemble, Bundle.select_empty]
  show ((Bundle.prepare _ _ >>= _) >>= _) = _
  rw [Bundle.prepare_empty]
  decide +kernel

/-- **A page that stood in the way is back**, and nothing is left of the stage, after the last move
of a bundle of one window failed. -/
theorem lastMove_restored :
    ∃ a r₁ r₃, Bundle.assemble (Bundle.emptyProject ["Main"]) Bundle.plainOptions none = .ok a
      ∧ (prepareStage out : ExceptT Fault Run Path).run (withOldPage 28) = (.ok firstStage, r₁)
      ∧ (withOldPage 28).disk.IsTree ∧ PathsDiffer a.files
      ∧ StandsClear (withOldPage 28).disk out a.files
      ∧ (writeFolder a.files out : ExceptT Fault Run Path).run (withOldPage 28)
        = (.error (.deliveryFailed out.toString), r₃)
      ∧ r₃.disk.content? ["out", "index.html"] = some (.text "old")
      ∧ ∀ q, r₁.disk.reachOf firstStage <+: q → r₃.disk.at? q = none := by
  obtain ⟨a, ha, hrest⟩ := (Outcome.bind_eq_ok_iff _ _ _).mp lastMove_withOldPage
  obtain ⟨hpaths, hspent⟩ := Bool.and_eq_true_iff.mp (Except.ok.inj hrest)
  have hpaths := of_decide_eq_true hpaths
  obtain ⟨hprepare, hleft⟩ := prepareStage_withOldPage rfl
  have hclear : StandsClear (withOldPage 28).disk out a.files :=
    standsClear_of_assemble ha (by decide)
  have hcalm := Option.isNone_iff_eq_none.mp hspent
  have hset : ((prepareStage out : ExceptT Fault Run Path).run (withOldPage 28)).2.failsAfter
      ≠ none := by
    rw [hleft]
    exact Option.some_ne_none 26
  obtain ⟨r₃, hresult, hsame, hgone⟩ := folder_all_or_nothing ha (isTree_withOldPage 28) hpaths
    hclear hprepare rfl (Or.inl ⟨hset, hcalm⟩) hcalm
  refine ⟨a, _, r₃, ha, hprepare, isTree_withOldPage 28, hpaths, hclear, hresult, ?_, hgone⟩
  rw [hsame]
  decide

/-! ## §3. Two names of one place. -/

/-- Strings are sorted as by insertion, which computes. -/
theorem sortedOnce_eq_insertionSort (names : List String) :
    Font.sortedOnce names = (names.insertionSort (· ≤ ·)).eraseDups := by
  rw [Font.sortedOnce]
  exact congrArg List.eraseDups (List.mergeSort_eq_insertionSort _ _)

/-- A label in a font. -/
def labelIn (family id : String) : Element :=
  ⟨.label, Element.assign .label
    [("id", .text id), ("name", .text id), ("font_family", .text family)]⟩

theorem used_labelIn {family id : String} (h : family ≠ "") :
    Font.used [labelIn family id] = [family] := by
  have hfield : (labelIn family id).kind.fontField? = some "font_family" := rfl
  have hfamily : (labelIn family id).get "font_family" = .text family := rfl
  have htruthy : (Value.text family).truthy = true := by simpa [Value.truthy] using h
  rw [Font.used, List.filterMap_cons, hfield]
  simp [hfamily, htruthy, Value.toText, Font.sortedOnce, List.eraseDups_cons]

/-- Two windows that list an element each. -/
def firstWindow : Window := Layout.listing ["a"]

@[inherit_doc firstWindow]
def secondWindow : Window :=
  { Layout.listing ["b"] with id := "other", name := .text "Other" }

/-- Labels of two windows in fonts whose names lead to one file. -/
def spelledTwice : Project :=
  { name := .text "Synth", elements := [labelIn "Foo" "a", labelIn "./Foo" "b"]
    windows := [firstWindow, secondWindow], layers := []
    fonts := [⟨.text "Foo", .null, .text "b25l"⟩, ⟨.text "./Foo", .null, .text "dHdv"⟩] }

/-- The fonts that are shipped for them. -/
def fontOnce : BundledFont := ⟨"Foo", "Foo.woff2", [111, 110, 101]⟩

@[inherit_doc fontOnce]
def fontAgain : BundledFont := ⟨"./Foo", "./Foo.woff2", [116, 119, 111]⟩

/-- The windows as they are prepared, with some fonts. -/
def exported (first second : List BundledFont) : List ExportWindow :=
  [⟨firstWindow, "main", [labelIn "Foo" "a"], [], first⟩,
    ⟨secondWindow, "other", [labelIn "./Foo" "b"], [], second⟩]

theorem namedByText_spelledTwice : Layout.NamedByText spelledTwice.elements := by
  intro e he
  rcases List.mem_cons.mp he with rfl | he
  · exact ⟨"a", rfl⟩
  · rw [List.mem_singleton.mp he]
    exact ⟨"b", rfl⟩

theorem prepare_spelledTwice :
    Bundle.prepare spelledTwice [firstWindow, secondWindow] = .ok (exported [] [], []) := by
  have hslugs : Name.slugs ["Main", "Other"] Name.defaultSlug = ["main", "other"] := by
    decide
  have hslugged : Bundle.withSlugs [firstWindow, secondWindow]
      = .ok [(firstWindow, "main"), (secondWindow, "other")] := by
    show Except.ok (List.zip _ (Name.slugs ["Main", "Other"] Name.defaultSlug)) = _
    rw [hslugs]
    rfl
  have hfirst : Layout.resolve spelledTwice.elements firstWindow = [labelIn "Foo" "a"] :=
    Layout.resolve_alone namedByText_spelledTwice rfl rfl (by decide)
  have hsecond : Layout.resolve spelledTwice.elements secondWindow = [labelIn "./Foo" "b"] :=
    Layout.resolve_alone namedByText_spelledTwice rfl rfl (by decide)
  rw [Bundle.prepare, hslugged]
  show (Bundle.inspect _ _ _ [(_, _), (_, _)] >>= _) = _
  rw [Bundle.inspect, Bundle.inspect, Bundle.inspect, Layout.shownBy_of_hasKeys rfl,
    Layout.shownBy_of_hasKeys rfl, hfirst, hsecond]
  rfl

theorem equip_spelledTwice :
    Bundle.equip spelledTwice Bundle.plainOptions (exported [] [])
      = .ok ⟨exported [fontOnce] [fontAgain], [fontAgain, fontOnce], [], []⟩ := by
  have hfamilies : Bundle.usedFamilies (exported [] []) = ["./Foo", "Foo"] := by
    show Font.sortedOnce (Font.used [_] ++ (Font.used [_] ++ [])) = _
    rw [used_labelIn (by decide), used_labelIn (by decide), sortedOnce_eq_insertionSort]
    decide
  have hexported : exported [fontOnce] [fontAgain]
      = exported (Bundle.fontsOf [fontAgain, fontOnce] [labelIn "Foo" "a"])
        (Bundle.fontsOf [fontAgain, fontOnce] [labelIn "./Foo" "b"]) := by
    rw [Bundle.fontsOf, Bundle.fontsOf, used_labelIn (by decide), used_labelIn (by decide)]
    rfl
  rw [Bundle.equip, hfamilies, hexported]
  rfl

/-- A machine with an empty directory for a bundle. -/
def emptyOut : Rehearsal := { disk := Disk.empty ["out"] }

/-- Where the font goes. -/
def fontOut : Place := ["out", "fonts", "Foo.woff2"]

/-- Whether an outcome is a fault of the file system. -/
def isFailedCall : Except Fault Unit → Bool
  | .ok _ => false
  | .error e => e.isFileFault

theorem exists_of_isFailedCall {outcome : Except Fault Unit} (h : isFailedCall outcome = true) :
    ∃ e, outcome = .error e ∧ e.isFileFault = true := by
  cases outcome with
  | ok _ => cases h
  | error e => exact ⟨e, rfl, h⟩

/-- Whether staging or moving fails for files that go into that directory, and a font is left. -/
def leavesFont (files : Bundle.Files) : Bool :=
  let r₁ := ((prepareStage out : ExceptT Fault Run Path).run emptyOut).2
  let done := (transfer files out firstStage : Run _) r₁
  let r₃ := ((writeFolder files out : ExceptT Fault Run Path).run emptyOut).2
  isFailedCall done.1.1 && done.2.failsAfter.isNone
    && decide (r₃.disk.content? fontOut = some (.bytes fontOnce.data))

theorem leavesFont_spelledTwice :
    (Bundle.assemble spelledTwice Bundle.plainOptions none >>= fun a => .ok (leavesFont a.files))
      = .ok true := by
  have hselected : Bundle.select spelledTwice Bundle.plainOptions none
      = .ok [firstWindow, secondWindow] := rfl
  rw [Bundle.assemble, hselected]
  show ((Bundle.prepare _ _ >>= _) >>= _) = _
  rw [prepare_spelledTwice]
  show ((Bundle.equip _ _ _ >>= _) >>= _) = _
  rw [equip_spelledTwice]
  decide +kernel

/-- **A font is left behind** if two fonts of a bundle have names that lead to one place: the second
move finds no file on the stage, and undoing it puts the first font back. -/
theorem spelledTwice_stays :
    ∃ a r₁ r₂ outcome moves, Bundle.assemble spelledTwice Bundle.plainOptions none = .ok a
      ∧ emptyOut.disk.IsTree ∧ StandsClear emptyOut.disk out a.files
      ∧ (prepareStage out : ExceptT Fault Run Path).run emptyOut = (.ok firstStage, r₁)
      ∧ (transfer a.files out firstStage : Run _) r₁ = ((outcome, moves), r₂)
      ∧ CallFailed r₁ outcome r₂ ∧ r₂.failsAfter = none
      ∧ emptyOut.disk.content? fontOut = none
      ∧ ((writeFolder a.files out : ExceptT Fault Run Path).run emptyOut).2.disk.content? fontOut
        = some (.bytes fontOnce.data) := by
  obtain ⟨a, ha, hrest⟩ := (Outcome.bind_eq_ok_iff _ _ _).mp leavesFont_spelledTwice
  obtain ⟨hdone, hleft⟩ := Bool.and_eq_true_iff.mp (Except.ok.inj hrest)
  obtain ⟨hfailed, hcalm⟩ := Bool.and_eq_true_iff.mp hdone
  have hprepare : (prepareStage out : ExceptT Fault Run Path).run emptyOut
      = (.ok firstStage, ((prepareStage out : ExceptT Fault Run Path).run emptyOut).2) :=
    Prod.ext (by decide : _ = Except.ok firstStage) rfl
  exact ⟨a, _, _, _, _, ha, isTree_of_entries (by decide), standsClear_of_assemble ha (by decide),
    hprepare, rfl, Or.inr (exists_of_isFailedCall hfailed), Option.isNone_iff_eq_none.mp hcalm,
    by decide, of_decide_eq_true hleft⟩

end ControlSurface.Delivery
