/-
  ControlSurface.Proofs.CommandLine.Agreement
  ───────────────────────────────────────────
  The check of a project against the check that an export makes.  Both look through the selected
  windows and collect one report for each; the check tells the reports, the export gathers them and
  stops at errors (`inspect_agrees`).  They differ on what else stops an export: a selection without
  windows, and the name of a window that is no text (`validate_agrees`).
-/
import ControlSurface.Proofs.Bundle.Navigation
import ControlSurface.Proofs.Bundle.Stages
import ControlSurface.Proofs.CommandLine.Commands

namespace ControlSurface.Bundle

open ControlSurface.Outcome

/-! ## §1. An export up to its checks. -/

/-- What an export does before it makes anything: windows are selected, and all of them are resolved
and checked. -/
def admission (p : Project) (o : ExportOptions) (windowId : Option String) :
    Except Fault (List ExportWindow × List String) := do
  let selected ← select p o windowId
  if selected.isEmpty then throw .nothingToExport
  prepare p selected

/-- What an export makes of windows that were admitted. -/
def complete (p : Project) (o : ExportOptions) (admitted : List ExportWindow × List String) :
    Except Fault Assembly := do
  let several := decide (1 < admitted.1.length)
  let e ← equip p o admitted.1
  let linked := links several e.windows
  let perWindow ← e.windows.mapM fun w => do
    let made ← windowFiles (setting p o linked (fontPlace several) w) w.elements
    .ok (windowEntries o several w.slug made)
  let files := Keyed.ofList (perWindow.flatten ++ fontEntries e.shipped)
  let g ← guide p o linked (Keyed.keys files ++ [Guide.file]) e.windows
  .ok { files := Keyed.put Guide.file (.text g.text) files
        windows := e.windows.map fun w => w.window.name
        warnings := admitted.2 ++ e.warnings
        savings := savings e.results }

/-- An export admits its windows and then makes their files. -/
theorem assemble_eq (p : Project) (o : ExportOptions) (windowId : Option String) :
    assemble p o windowId = admission p o windowId >>= complete p o := by
  rw [assemble, admission]
  cases select p o windowId with
  | error e => rfl
  | ok windows =>
    rw [ok_bind, ok_bind]
    split
    · rfl
    · rfl

/-- The name of every window is a text. -/
def Named (windows : List Window) : Prop := ∀ w ∈ windows, ∃ t, w.name.string = .ok t

/-- Windows get their slugs if their names are texts. -/
theorem exists_withSlugs_iff {windows : List Window} :
    (∃ slugged, withSlugs windows = .ok slugged) ↔ Named windows := by
  refine exists_map_iff.trans ⟨fun ⟨names, hnames⟩ w hw => exists_of_mapM hnames hw, fun h => ?_⟩
  obtain ⟨names, hnames⟩ := exists_forall₂ h
  exact ⟨names, (mapM_eq_ok_iff _ _ _).mpr hnames⟩

theorem fst_of_withSlugs {windows : List Window} {slugged : List (Window × String)}
    (h : withSlugs windows = .ok slugged) : slugged.map Prod.fst = windows := by
  obtain ⟨names, hnames, h⟩ := (bind_eq_ok_iff _ _ _).mp h
  cases h
  refine List.map_fst_zip (Nat.le_of_eq ?_)
  rw [Name.length_slugs]
  exact ((mapM_eq_ok_iff _ _ _).mp hnames).length_eq

end ControlSurface.Bundle

namespace ControlSurface.CommandLine

open ControlSurface.Outcome ControlSurface.Bundle

/-! ## §2. Reports of windows. -/

/-- A preparation gathers the reports of windows: their errors, and their warnings as they are
reported, in the order of the windows. -/
structure Gathers (several : Bool) (reports : List (Window × Check.Report)) (found : Preparation) :
    Prop where
  windows : found.windows.map ExportWindow.window = reports.map Prod.fst
  errors : found.errors = reports.flatMap fun x => x.2.errors
  warnings : found.warnings = reports.flatMap fun x => x.2.warnings.map (warningText several x.1)

/-- **The check and the export find the same**, window by window, or fail with the same fault. -/
theorem inspect_agrees (p : Project) (windows : List Window) (several : Bool)
    (given : List (Window × String)) :
    Agree (Gathers several) ((given.map Prod.fst).mapM (checkWindow p windows))
      (inspect p (windows.map Window.id) several given) := by
  induction given with
  | nil => exact .both ⟨rfl, rfl, rfl⟩
  | cons x rest ih =>
    obtain ⟨w, slug⟩ := x
    rw [List.map_cons, List.mapM_cons, inspect, checkWindow, bind_assoc]
    -- both resolve the window and then check it, so that a fault of either step is one of both
    refine agree_bind_same _ fun elements => ?_
    rw [bind_assoc]
    refine agree_bind_same _ fun report => ?_
    rw [ok_bind]
    refine ih.bind fun reports found h => .both ⟨?_, ?_, ?_⟩
    · exact congrArg (w :: ·) h.windows
    · exact congrArg (report.errors ++ ·) h.errors
    · exact congrArg (report.warnings.map (warningText several w) ++ ·) h.warnings

/-- The same for all windows of a selection, with their slugs. -/
theorem agree_of_withSlugs (p : Project) {windows : List Window} {slugged : List (Window × String)}
    (h : withSlugs windows = .ok slugged) :
    Agree (Gathers (decide (1 < windows.length))) (windows.mapM (checkWindow p windows))
      (inspect p (windows.map Window.id) (decide (1 < windows.length)) slugged) := by
  have hagree := inspect_agrees p windows (decide (1 < windows.length)) slugged
  rwa [fst_of_withSlugs h] at hagree

/-- A window in which a check finds no errors. -/
def Sound (p : Project) (windows : List Window) (w : Window) : Prop :=
  ∃ report, checkWindow p windows w = .ok (w, report) ∧ report.valid = true

theorem fst_of_checkWindow {p : Project} {windows : List Window} {w : Window}
    {x : Window × Check.Report} (h : checkWindow p windows w = .ok x) : x.1 = w := by
  obtain ⟨elements, -, h⟩ := (bind_eq_ok_iff _ _ _).mp h
  obtain ⟨report, -, h⟩ := (bind_eq_ok_iff _ _ _).mp h
  cases h
  rfl

/-- Windows are sound if they have reports, all of them without errors. -/
theorem sound_iff {p : Project} {all windows : List Window} :
    (∀ w ∈ windows, Sound p all w) ↔ ∃ reports, windows.mapM (checkWindow p all) = .ok reports
      ∧ (reports.all fun x => x.2.valid) = true := by
  constructor
  · intro h
    have hread : ∀ w ∈ windows, ∃ x, checkWindow p all w = .ok x := by
      intro w hw
      obtain ⟨report, hreport, -⟩ := h w hw
      exact ⟨_, hreport⟩
    obtain ⟨reports, hall⟩ := exists_forall₂ hread
    have hreports := (mapM_eq_ok_iff _ _ _).mpr hall
    refine ⟨reports, hreports, List.all_eq_true.mpr fun x hx => ?_⟩
    obtain ⟨w, hw, hread⟩ := (mem_mapM_iff hreports x).mp hx
    obtain ⟨report, hreport, hvalid⟩ := h w hw
    cases hread.symm.trans hreport
    exact hvalid
  · intro h w hw
    obtain ⟨reports, hreports, hvalid⟩ := h
    obtain ⟨x, hx⟩ := exists_of_mapM hreports hw
    have hmem : x ∈ reports := (mem_mapM_iff hreports x).mpr ⟨w, hw, hx⟩
    refine ⟨x.2, ?_, List.all_eq_true.mp hvalid x hmem⟩
    rw [hx, ← fst_of_checkWindow hx]

/-- There are no errors in all reports together if there are none in each. -/
theorem isEmpty_errors {reports : List (Window × Check.Report)} :
    (reports.flatMap fun x => x.2.errors).isEmpty = reports.all fun x => x.2.valid := by
  induction reports with
  | nil => rfl
  | cons x reports ih =>
    rw [List.flatMap_cons, List.all_cons, ← ih, Check.Report.valid]
    cases x.2.errors <;> rfl

/-! ## §3. When a check passes, and when an export is admitted. -/

/-- The check of a project ends well. -/
def Passes (p : Project) (o : ExportOptions) (windowId : Option String) : Prop :=
  ∃ out, validate p o windowId = .ok out ∧ out.code = okCode

/-- An export gets through the selection and the checks of its windows. -/
def Admits (p : Project) (o : ExportOptions) (windowId : Option String) : Prop :=
  ∃ admitted, admission p o windowId = .ok admitted

section Verdicts

variable {p : Project} {o : ExportOptions} {windowId : Option String}

/-- A check passes if all selected windows are sound. -/
theorem passes_iff : Passes p o windowId
    ↔ ∃ windows, select p o windowId = .ok windows ∧ ∀ w ∈ windows, Sound p windows w := by
  simp only [sound_iff]
  constructor
  · intro hpasses
    obtain ⟨out, hout, hcode⟩ := hpasses
    rw [validate_eq] at hout
    obtain ⟨windows, hselect, hout⟩ := (bind_eq_ok_iff _ _ _).mp hout
    obtain ⟨reports, hreports, hout⟩ := (bind_eq_ok_iff _ _ _).mp hout
    cases hout
    refine ⟨windows, hselect, reports, hreports, ?_⟩
    by_contra hinvalid
    rw [if_neg hinvalid] at hcode
    cases hcode
  · intro h
    obtain ⟨windows, hselect, reports, hreports, hvalid⟩ := h
    refine ⟨.finished okCode (reports.flatMap fun x => checkLines x.1 x.2) none, ?_, rfl⟩
    rw [validate_eq, hselect, ok_bind, hreports, ok_bind, if_pos hvalid]

/-- A preparation finds no errors if the windows are sound, whatever their slugs are. -/
theorem exists_inspect_iff {windows : List Window} {slugged : List (Window × String)}
    (hslugged : withSlugs windows = .ok slugged) :
    (∃ found, inspect p (windows.map Window.id) (decide (1 < windows.length)) slugged = .ok found
        ∧ found.errors.isEmpty = true)
      ↔ ∀ w ∈ windows, Sound p windows w := by
  rw [sound_iff]
  obtain ⟨e, hreports, hfound⟩ | ⟨reports, found, hreports, hfound, h⟩ :=
    (agree_of_withSlugs p hslugged).fault_or_both
  · rw [hreports, hfound]
    exact iff_of_false (fun ⟨_, hok, _⟩ => nomatch hok) fun ⟨_, hok, _⟩ => nomatch hok
  · rw [hreports, hfound]
    simp only [Except.ok.injEq, exists_eq_left', h.errors, isEmpty_errors]

/-- Windows are prepared if their names are texts and they are sound. -/
theorem exists_prepare_iff {windows : List Window} : (∃ prepared, prepare p windows = .ok prepared)
    ↔ Named windows ∧ ∀ w ∈ windows, Sound p windows w := by
  rw [← exists_withSlugs_iff]
  constructor
  · intro hprepared
    obtain ⟨prepared, h⟩ := hprepared
    rw [prepare] at h
    obtain ⟨slugged, hslugged, h⟩ := (bind_eq_ok_iff _ _ _).mp h
    obtain ⟨found, hfound, h⟩ := (bind_eq_ok_iff _ _ _).mp h
    split at h
    next hempty =>
      exact ⟨⟨slugged, hslugged⟩, (exists_inspect_iff hslugged).mp ⟨found, hfound, hempty⟩⟩
    next => cases h
  · intro h
    obtain ⟨⟨slugged, hslugged⟩, hsound⟩ := h
    obtain ⟨found, hfound, hempty⟩ := (exists_inspect_iff hslugged).mpr hsound
    refine ⟨(found.windows, found.warnings), ?_⟩
    rw [prepare, hslugged, ok_bind, hfound, ok_bind, if_pos hempty]

/-- An export is admitted if there are windows, all of them named and sound. -/
theorem admits_iff : Admits p o windowId
    ↔ ∃ windows, select p o windowId = .ok windows ∧ windows ≠ [] ∧ Named windows
      ∧ ∀ w ∈ windows, Sound p windows w := by
  rw [Admits, admission]
  cases select p o windowId with
  | error e => exact iff_of_false (fun ⟨_, hok⟩ => nomatch hok) fun ⟨_, hok, _⟩ => nomatch hok
  | ok windows =>
    simp only [ok_bind, Except.ok.injEq, exists_eq_left', ← exists_prepare_iff]
    cases windows with
    | nil => exact iff_of_false (fun ⟨_, hok⟩ => nomatch hok) fun ⟨hne, _⟩ => hne rfl
    | cons w rest => exact (and_iff_right (List.cons_ne_nil w rest)).symm

end Verdicts

/-! ## §4. Agreement. -/

/-- An outcome tells the findings of a preparation: window by window, the errors and warnings that
it gathered, and a failure if there are errors. -/
def Tells (windows : List Window) (out : Outcome) (found : Preparation) : Prop :=
  ∃ reports, reports.map Prod.fst = windows
    ∧ Gathers (decide (1 < windows.length)) reports found
    ∧ out = .finished (if found.errors.isEmpty then okCode else failedCode)
        (reports.flatMap fun x => checkLines x.1 x.2) none

/-- **A check agrees with the export but for what it does not look at.**  Of the selected windows it
tells the errors and warnings that an export gathers, in the same order.  It passes exactly if the
export is admitted, unless it passes a selection without windows or windows whose names are no
texts; these stop an export. -/
theorem validate_agrees (p : Project) (o : ExportOptions) (windowId : Option String) :
    (∀ windows slugged, select p o windowId = .ok windows → withSlugs windows = .ok slugged →
        Agree (Tells windows) (validate p o windowId)
          (inspect p (windows.map Window.id) (decide (1 < windows.length)) slugged))
      ∧ ((Passes p o windowId ↔ Admits p o windowId)
        ↔ ∀ windows, select p o windowId = .ok windows → (∀ w ∈ windows, Sound p windows w) →
          windows ≠ [] ∧ Named windows) := by
  refine ⟨fun windows slugged hselect hslugged => ?_, ?_⟩
  · rw [validate_eq, hselect, ok_bind]
    obtain ⟨e, hreports, hfound⟩ | ⟨reports, found, hreports, hfound, h⟩ :=
      (agree_of_withSlugs p hslugged).fault_or_both
    · rw [hreports, hfound]
      exact .fault e
    · have hkeeps : found.windows.map ExportWindow.window = windows := by
        rw [← fst_of_withSlugs hslugged, ← inspect_keeps hfound, List.map_map]
        rfl
      rw [hreports, hfound, ok_bind]
      refine .both ⟨reports, h.windows.symm.trans hkeeps, h, ?_⟩
      rw [h.errors, isEmpty_errors]
  · rw [passes_iff, admits_iff]
    constructor
    · intro h windows hselect hsound
      obtain ⟨windows', hselect', hne, hnamed, -⟩ := h.mp ⟨windows, hselect, hsound⟩
      cases hselect.symm.trans hselect'
      exact ⟨hne, hnamed⟩
    · intro h
      constructor
      · intro hpasses
        obtain ⟨windows, hselect, hsound⟩ := hpasses
        obtain ⟨hne, hnamed⟩ := h windows hselect hsound
        exact ⟨windows, hselect, hne, hnamed, hsound⟩
      · intro hadmits
        obtain ⟨windows, hselect, -, -, hsound⟩ := hadmits
        exact ⟨windows, hselect, hsound⟩

theorem debugProject_agrees :
    Passes debugProject plainOptions none ∧ Admits debugProject plainOptions none := by
  have hadmits : Admits debugProject plainOptions none := by
    refine admits_iff.mpr ⟨_, select_debug, List.cons_ne_nil _ _, exists_prepare_iff.mp ?_⟩
    exact ⟨_, prepare_debug⟩
  have hsame := (validate_agrees debugProject plainOptions none).2.mpr fun windows hselect _ => by
    cases select_debug.symm.trans hselect
    refine ⟨List.cons_ne_nil _ _, fun w hw => ⟨"Main", ?_⟩⟩
    rw [List.mem_singleton.mp hw]
    rfl
  exact ⟨hsame.mpr hadmits, hadmits⟩

/-- A project with a window for developers only. -/
def developerProject : Project :=
  { name := .text "Synth", elements := [], windows := [debugWindow], layers := [], fonts := [] }

/-- A check of no windows passes, and nothing is exported. -/
theorem no_window_passes :
    Passes developerProject {} none
      ∧ admission developerProject {} none = .error .nothingToExport
      ∧ assemble developerProject {} none = .error .nothingToExport := by
  have hselect : select developerProject {} none = .ok [] := by
    have hdebug : (debugWindow.exportedByDefault || false) = false := by decide
    show Except.ok (List.filter _ [debugWindow]) = _
    rw [List.filter_cons, hdebug]
    rfl
  have hadmit : admission developerProject {} none = .error .nothingToExport := by
    rw [admission, hselect]
    rfl
  refine ⟨passes_iff.mpr ⟨[], hselect, by simp⟩, hadmit, ?_⟩
  rw [assemble_eq, hadmit]
  rfl

end ControlSurface.CommandLine
