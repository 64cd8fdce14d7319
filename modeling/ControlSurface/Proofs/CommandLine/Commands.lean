/-
  ControlSurface.Proofs.CommandLine.Commands
  ──────────────────────────────────────────
  When commands end.  A check reads identities, names, parents, parameters, sizes and targets of the
  elements that are shown, and nothing takes care of one that cannot be read.  Whatever fails while a
  bundle is made and delivered is told as the outcome of the export; what comes before and after it
  is not: the name of the project for an archive, and the note in the settings about where the bundle
  went.
-/
import ControlSurface.CommandLine.Run
import ControlSurface.Proofs.Check.Gate
import ControlSurface.Proofs.Layout.Identity
import ControlSurface.Proofs.Machine.Running
import ControlSurface.Proofs.Project.Loading

namespace ControlSurface.CommandLine

open ControlSurface.Outcome Rehearsal

/-! ## §1. Faults of the checks. -/

theorem foreign_string (v : Value) : FailsWith Foreign v.string := by
  unfold Value.string
  split
  · exact failsWith_ok _
  · split
    · exact failsWith_error rfl
    · exact failsWith_ok _

theorem foreign_isFlat (length : Value) : FailsWith Foreign (Check.isFlat length) :=
  failsWith_bind ((Value.failsWith_num length).imp fun _ h => h ▸ rfl) fun _ => failsWith_ok _

theorem foreign_nameErrors (before : List Element) (e : Element) :
    FailsWith Foreign (Check.nameErrors before e) := by
  refine failsWith_bind (failsWith_bind (foreign_string _) fun _ => failsWith_ok _) fun named => ?_
  split
  · exact failsWith_ok _
  · refine failsWith_bind (failsWith_bind (foreign_string _) fun _ => failsWith_ok _) fun domId => ?_
    split <;> exact failsWith_ok _

theorem foreign_parentErrors (all : List Element) (e : Element) :
    FailsWith Foreign (Check.parentErrors all e) := by
  unfold Check.parentErrors
  split
  · exact failsWith_ok _
  · dsimp only
    split
    · show FailsWith Foreign (.error .wrongType)
      exact failsWith_error rfl
    · split <;> exact failsWith_ok _

theorem foreign_parameterWarnings (e : Element) :
    FailsWith Foreign (Check.parameterWarnings e) := by
  unfold Check.parameterWarnings
  split
  · exact failsWith_ok _
  · refine failsWith_bind (foreign_string _) fun s => ?_
    split <;> exact failsWith_ok _

theorem foreign_sizeWarnings (e : Element) : FailsWith Foreign (Check.sizeWarnings e) := by
  refine failsWith_bind (foreign_isFlat _) fun flat => ?_
  split
  · exact failsWith_ok _
  · refine failsWith_bind (foreign_isFlat _) fun low => ?_
    split <;> exact failsWith_ok _

theorem foreign_targetWarnings (windows : Option (List String)) (e : Element) :
    FailsWith Foreign (Check.targetWarnings windows e) := by
  unfold Check.targetWarnings
  split
  · exact failsWith_ok _
  · split
    · exact failsWith_ok _
    · dsimp only
      split
      · show FailsWith Foreign (.error .wrongType)
        exact failsWith_error rfl
      · split <;> exact failsWith_ok _

/-- No check of an element fails with a fault of the program's own. -/
theorem foreign_checkElement (windows : Option (List String)) (all before : List Element)
    (e : Element) : FailsWith Foreign (Check.checkElement windows all before e) :=
  failsWith_bind (foreign_nameErrors before e) fun _ =>
    failsWith_bind (foreign_parentErrors all e) fun _ =>
      failsWith_bind (foreign_parameterWarnings e) fun _ =>
        failsWith_bind (foreign_sizeWarnings e) fun _ =>
          failsWith_bind (foreign_targetWarnings windows e) fun _ => failsWith_ok _

theorem foreign_checkFrom (windows : Option (List String)) (all before elements : List Element) :
    FailsWith Foreign (Check.checkFrom windows all before elements) := by
  induction elements generalizing before with
  | nil => exact failsWith_ok _
  | cons e rest ih =>
    exact failsWith_bind (foreign_checkElement windows all before e) fun _ =>
      failsWith_bind (ih _) fun _ => failsWith_ok _

theorem foreign_check (windows : Option (List String)) (elements : List Element) :
    FailsWith Foreign (Check.check windows elements) := by
  rw [Check.check]
  split
  · exact foreign_checkFrom windows elements [] elements
  · exact failsWith_error rfl

theorem foreign_shownBy (elements : List Element) (w : Window) :
    FailsWith Foreign (Layout.shownBy elements w) := by
  rw [Layout.shownBy]
  split
  · exact failsWith_ok _
  · exact failsWith_error rfl

/-! ## §2. When a check ends. -/

/-- What a check reads of the elements of a window can be read: the identities that elements are
looked up by, and the fields that the checks look at. -/
structure Readable (p : Project) (windows : List Window) (w : Window) : Prop where
  keys : Layout.hasKeys p.elements = true
  elements : ∀ e ∈ Layout.resolve p.elements w, Check.Checkable (some (windows.map Window.id)) e

/-- The check of one window. -/
def checkWindow (p : Project) (windows : List Window) (w : Window) :
    Except Fault (Window × Check.Report) := do
  .ok (w, ← Check.check (some (windows.map Window.id)) (← Layout.shownBy p.elements w))

theorem exists_checkWindow_iff {p : Project} {windows : List Window} {w : Window} :
    (∃ x, checkWindow p windows w = .ok x) ↔ Readable p windows w := by
  constructor
  · rintro ⟨x, hx⟩
    obtain ⟨shown, hshown, hx⟩ := (bind_eq_ok_iff _ _ _).mp hx
    obtain ⟨report, hreport, _⟩ := (bind_eq_ok_iff _ _ _).mp hx
    obtain ⟨hkeys, rfl⟩ := Layout.of_shownBy hshown
    exact ⟨hkeys, Check.check_ok_iff.mp ⟨_, hreport⟩⟩
  · intro h
    obtain ⟨report, hreport⟩ := Check.check_ok_iff.mpr h.elements
    rw [checkWindow, Layout.shownBy_of_hasKeys h.keys, ok_bind, hreport]
    exact ⟨_, rfl⟩

/-- Windows are selected, or the one asked for is not there. -/
theorem own_select (p : Project) (o : ExportOptions) (windowId : Option String) :
    FailsWith (fun e => e.isOwn = true) (Bundle.select p o windowId) := by
  unfold Bundle.select
  split
  · split
    · exact failsWith_ok _
    · exact failsWith_error rfl
  · exact failsWith_ok _

/-- The check tells the reports of the selected windows. -/
theorem validate_eq (p : Project) (o : ExportOptions) (windowId : Option String) :
    validate p o windowId = (do
      let windows ← Bundle.select p o windowId
      let reports ← windows.mapM (checkWindow p windows)
      .ok (.finished (if reports.all fun x => x.2.valid then okCode else failedCode)
        (reports.flatMap fun x => checkLines x.1 x.2) none)) := rfl

/-- **A check ends iff what it reads can be read.**  A window that the project does not have is a
fault of the program's own. -/
theorem validate_ends_iff {p : Project} {o : ExportOptions} {windowId : Option String} :
    FailsWith (fun e => e.isOwn = true) (validate p o windowId)
      ↔ ∀ windows, Bundle.select p o windowId = .ok windows →
        ∀ w ∈ windows, Readable p windows w := by
  have hwindow : ∀ windows w, FailsWith Foreign (checkWindow p windows w) := fun windows w =>
    failsWith_bind (foreign_shownBy p.elements w) fun _ =>
      failsWith_bind (foreign_check _ _) fun _ => failsWith_ok _
  rw [validate_eq]
  cases hselect : Bundle.select p o windowId with
  | error e =>
    refine iff_of_true ?_ fun _ h => nomatch h
    exact failsWith_error (own_select p o windowId e hselect)
  | ok windows =>
    rw [ok_bind]
    cases hreports : windows.mapM (checkWindow p windows) with
    | error e =>
      obtain ⟨w, hw, hfault⟩ := exists_of_mapM_error hreports
      refine iff_of_false (fun h => ?_) fun h => ?_
      · exact Bool.false_ne_true ((hwindow windows w e hfault).symm.trans (h e rfl))
      · obtain ⟨x, hx⟩ := exists_checkWindow_iff.mpr (h windows rfl w hw)
        cases hfault.symm.trans hx
    | ok reports =>
      refine iff_of_true (failsWith_ok _) ?_
      intro windows' hsame w hw
      cases hsame
      exact exists_checkWindow_iff.mp (exists_of_mapM hreports hw)

/-! ## §3. After the export. -/

/-- Settings that cannot be written have no fault of the program's own. -/
theorem foreign_change (s : Settings) (key : String) (v : Value) (r : Rehearsal) :
    FailsWith Foreign ((s.change key v : ExceptT Fault Run Unit).run r).1 := by
  have hmake : ∀ r : Rehearsal, FailsWith Foreign
      (onDisk (.makeDirectories (s.put key v).file.parent) r).1 := by
    refine foreign_onDisk fun d e he => ?_
    have he : (d.makeDirectories (s.put key v).file.parent).1 = .error e := he
    rw [Disk.makeDirectories] at he
    split at he
    · cases he
      rfl
    · exact foreign_of_isFileFault (Disk.fault_makeBelow he)
  have hwrite : ∀ c (r : Rehearsal), FailsWith Foreign
      (onDisk (.write (s.put key v).file c) r).1 := by
    refine fun c => foreign_onDisk fun d => foreign_settle ?_
    refine failsWith_bind (foreign_place d _) fun q => ?_
    split
    · exact failsWith_error rfl
    · exact failsWith_ok _
  exact failsWith_run_bind (hmake r) fun _ r' => hwrite _ r'

/-- The directory that an export went to can be noted in the settings. -/
def Remembers (s : Settings) (x : ExportOutcome) (r : Rehearsal) : Prop :=
  ∀ e path, x = .done e → e.directory = some path →
    Ends (s.change Settings.lastDirectory (.text path.toString)) r

/-- **An export is told iff its directory can be noted.** -/
theorem concludeExport_ends_iff {s : Settings} {x : ExportOutcome} {r : Rehearsal} :
    Ends (concludeExport s x) r ↔ Remembers s x r := by
  cases x with
  | cancelled => exact iff_of_true ⟨_, rfl⟩ fun _ _ h => nomatch h
  | failed cause warnings => exact iff_of_true ⟨_, rfl⟩ fun _ _ h => nomatch h
  | done e =>
    cases hdirectory : e.directory with
    | none =>
      refine iff_of_true ?_ ?_
      · rw [concludeExport, hdirectory]
        exact ⟨_, rfl⟩
      · intro e' path he hpath
        cases he
        cases hdirectory.symm.trans hpath
    | some path =>
      rw [concludeExport, hdirectory, ends_bind_iff]
      constructor
      · rintro ⟨_, r', hrun, _⟩ e' path' he hpath
        cases he
        cases hdirectory.symm.trans hpath
        exact ⟨(), by rw [hrun]⟩
      · intro h
        obtain ⟨_, hrun⟩ := h e path rfl hdirectory
        exact ⟨(), _, Prod.ext hrun rfl, ⟨_, rfl⟩⟩

theorem foreign_concludeExport (s : Settings) (x : ExportOutcome) (r : Rehearsal) :
    FailsWith Foreign ((concludeExport s x : ExceptT Fault Run Outcome).run r).1 := by
  cases x with
  | cancelled => exact failsWith_ok _
  | failed cause warnings => exact failsWith_ok _
  | done e =>
    cases hdirectory : e.directory with
    | none =>
      rw [concludeExport, hdirectory]
      exact failsWith_ok _
    | some path =>
      rw [concludeExport, hdirectory]
      exact failsWith_run_bind (foreign_change s _ _ r) fun _ _ => failsWith_ok _

/-! ## §4. Before the export. -/

/-- What an export comes to, before it is told. -/
def exporting (a : Arguments) (p : Project) (o : ExportOptions) (s : Settings) :
    ExceptT Fault Run ExportOutcome :=
  match o.delivery with
  | .folder =>
    ExceptT.lift (Export.run p o (a.value? .window) (directorySource a s) none)
  | .archive => do
    let chosen ← chosenPlace a p
    if chosen.isNone && a.has .pickFolder then return .cancelled
    let place ← archivePlace p chosen
    ExceptT.lift (Export.run p o (a.value? .window) .unavailable (some place))

/-- An export is made and then told. -/
theorem exportProject_eq (a : Arguments) (p : Project) (o : ExportOptions) (s : Settings) :
    (exportProject a p o s : ExceptT Fault Run Outcome)
      = exporting a p o s >>= concludeExport s := by
  unfold exportProject exporting
  cases o.delivery with
  | folder => rfl
  | archive =>
    simp only [bind_assoc]
    refine bind_congr fun chosen => ?_
    split
    · rfl
    · rw [bind_assoc]

/-- An archive is to get the name of its project: no file is named for it. -/
def NamesArchive (a : Arguments) (r : Rehearsal) : Prop :=
  ∀ path, a.value? .output = some path → r.disk.look (Path.ofString path) = some .directory

theorem exists_archiveName_iff {p : Project} :
    (∃ name, Bundle.archiveName p = .ok name) ↔ ∃ s, p.name.string = .ok s :=
  exists_map_iff

theorem foreign_archiveName (p : Project) : FailsWith Foreign (Bundle.archiveName p) :=
  failsWith_bind (foreign_string _) fun _ => failsWith_ok _

theorem foreign_chosenPlace (a : Arguments) (p : Project) (r : Rehearsal) :
    FailsWith Foreign ((chosenPlace a p : ExceptT Fault Run (Option Path)).run r).1 := by
  unfold chosenPlace
  split
  · exact failsWith_ok _
  · split
    · exact failsWith_ok _
    · exact failsWith_run_bind (foreign_archiveName p) fun _ _ => failsWith_ok _

theorem foreign_archivePlace (p : Project) (chosen : Option Path) (r : Rehearsal) :
    FailsWith Foreign ((archivePlace p chosen : ExceptT Fault Run Path).run r).1 := by
  have hlook : ∀ path (r : Rehearsal), FailsWith Foreign (onDisk (.look path) r).1 := fun path r =>
    foreign_onDisk (fun _ => failsWith_ok _) r
  unfold archivePlace
  split
  · exact failsWith_run_bind (failsWith_ok _) fun _ _ =>
      failsWith_run_bind (foreign_archiveName p) fun _ _ => failsWith_ok _
  · refine failsWith_run_bind (hlook _ r) fun found _ => ?_
    split
    · exact failsWith_run_bind (foreign_archiveName p) fun _ _ => failsWith_ok _
    · exact failsWith_ok _

theorem foreign_exporting (a : Arguments) (p : Project) (o : ExportOptions) (s : Settings)
    (r : Rehearsal) : FailsWith Foreign ((exporting a p o s).run r).1 := by
  unfold exporting
  split
  · exact failsWith_ok _
  · refine failsWith_run_bind (foreign_chosenPlace a p r) fun chosen r' => ?_
    split
    · exact failsWith_ok _
    · exact failsWith_run_bind (foreign_archivePlace p chosen r') fun _ _ => failsWith_ok _

/-- In a directory, or where no place is chosen, an archive needs a name. -/
theorem archivePlace_ends_iff {p : Project} {chosen : Option Path} {r : Rehearsal}
    (h : r.failsAfter = none) :
    Ends (archivePlace p chosen) r
      ↔ ((∀ path, chosen = some path → r.disk.look path = some .directory) →
        ∃ t, p.name.string = .ok t) := by
  have hname : ∀ (here : Path) (r : Rehearsal), Ends (do
      return here.join ⟨"", [← ExceptT.mk (pure (Bundle.archiveName p))]⟩ :
        ExceptT Fault Run Path) r ↔ ∃ t, p.name.string = .ok t := by
    intro here r
    rw [← exists_archiveName_iff, ends_bind_iff]
    constructor
    · rintro ⟨name, r', hrun, _⟩
      exact ⟨name, congrArg Prod.fst hrun⟩
    · rintro ⟨name, hname⟩
      exact ⟨name, r, by rw [hname]; rfl, ⟨_, rfl⟩⟩
  unfold archivePlace
  cases chosen with
  | none =>
    rw [ends_bind_iff]
    constructor
    · rintro ⟨here, r', _, hends⟩ _
      exact (hname here r').mp hends
    · intro hneeds
      exact ⟨_, _, rfl, (hname _ _).mpr (hneeds fun _ hnone => nomatch hnone)⟩
  | some path =>
    have hlook : (FileSystem.ask (.look path) : ExceptT Fault Run (Option ItemKind)).run r
        = (.ok (r.disk.look path), (onDisk (.look path) r).2) :=
      Prod.ext (onDisk_of_none (.look path) h).1 rfl
    rw [Ends, run_bind_ok hlook]
    split
    next hdirectory =>
      refine (hname path _).trans ⟨fun htext _ => htext, fun hneeds => hneeds ?_⟩
      intro path' hsame
      cases hsame
      exact hdirectory
    next hother =>
      refine iff_of_true ⟨_, rfl⟩ fun hneeds => ?_
      exact absurd (hneeds path rfl) hother

/-- Once a place was chosen, only the place of the archive is left to find. -/
theorem exporting_archive_ends_iff {a : Arguments} {p : Project} {o : ExportOptions} {s : Settings}
    {r r' : Rehearsal} {chosen : Option Path} (hdelivery : o.delivery = .archive)
    (hchosen : (chosenPlace a p : ExceptT Fault Run (Option Path)).run r = (.ok chosen, r')) :
    Ends (exporting a p o s) r
      ↔ ((chosen.isNone && a.has .pickFolder) = true ∨ Ends (archivePlace p chosen) r') := by
  unfold exporting
  rw [hdelivery]
  dsimp only
  rw [Ends, run_bind_ok hchosen]
  split
  next hcancelled => exact iff_of_true ⟨_, rfl⟩ (Or.inl hcancelled)
  next hgoes =>
    rw [or_iff_right hgoes]
    refine ends_bind_iff.trans ⟨?_, ?_⟩
    · rintro ⟨place, after, hrun, _⟩
      exact ⟨place, by rw [hrun]⟩
    · rintro ⟨place, hrun⟩
      exact ⟨place, _, Prod.ext hrun rfl, ⟨_, rfl⟩⟩

/-- An archive whose place the user picks needs a name, which the user is shown. -/
theorem exporting_picked_ends_iff {a : Arguments} {p : Project} {o : ExportOptions} {s : Settings}
    {r : Rehearsal} (h : r.failsAfter = none) (hdelivery : o.delivery = .archive)
    (houtput : a.value? .output = none) (hpick : a.has .pickFolder = true) :
    Ends (exporting a p o s) r ↔ ∃ t, p.name.string = .ok t := by
  rw [← exists_archiveName_iff]
  cases hname : Bundle.archiveName p with
  | error e =>
    have hfails : (chosenPlace a p : ExceptT Fault Run (Option Path)).run r = (.error e, r) := by
      simp only [chosenPlace, houtput, hpick, hname]
      rfl
    refine iff_of_false ?_ fun ⟨_, hok⟩ => nomatch hok
    rintro ⟨x, hx⟩
    unfold exporting at hx
    rw [hdelivery] at hx
    dsimp only at hx
    rw [run_bind_error hfails] at hx
    cases hx
  | ok name =>
    have htext := exists_archiveName_iff.mp ⟨name, hname⟩
    have hchosen : (chosenPlace a p : ExceptT Fault Run (Option Path)).run r
        = (.ok r.archiveChoice, note (.archive name) r) := by
      simp only [chosenPlace, houtput, hpick, hname]
      rfl
    have hplace : Ends (archivePlace p r.archiveChoice) (note (.archive name) r) :=
      (archivePlace_ends_iff (r := note (.archive name) r) h).mpr fun _ => htext
    exact iff_of_true ((exporting_archive_ends_iff hdelivery hchosen).mpr (Or.inr hplace)) ⟨name, rfl⟩

/-- **An export comes to an end unless its archive needs the name of the project**, and this is no
text. -/
theorem exporting_ends_iff {a : Arguments} {p : Project} {o : ExportOptions} {s : Settings}
    {r : Rehearsal} (h : r.failsAfter = none) :
    Ends (exporting a p o s) r
      ↔ (o.delivery = .archive → NamesArchive a r → ∃ t, p.name.string = .ok t) := by
  cases hdelivery : o.delivery with
  | folder =>
    unfold exporting
    rw [hdelivery]
    exact iff_of_true ⟨_, rfl⟩ fun harchive => nomatch harchive
  | archive =>
    simp only [forall_const]
    cases houtput : a.value? .output with
    | some path =>
      have hchosen : (chosenPlace a p : ExceptT Fault Run (Option Path)).run r
          = (.ok (some (Path.ofString path)), r) := by
        rw [chosenPlace, houtput]
        rfl
      rw [exporting_archive_ends_iff hdelivery hchosen, archivePlace_ends_iff h]
      simp [NamesArchive, houtput]
    | none =>
      have hnames : NamesArchive a r := fun _ hsome => nomatch houtput.symm.trans hsome
      simp only [hnames, forall_const]
      cases hpick : a.has .pickFolder with
      | true => exact exporting_picked_ends_iff h hdelivery houtput hpick
      | false =>
        have hchosen : (chosenPlace a p : ExceptT Fault Run (Option Path)).run r
            = (.ok none, r) := by
          simp only [chosenPlace, houtput, hpick]
          rfl
        rw [exporting_archive_ends_iff hdelivery hchosen, archivePlace_ends_iff h]
        simp [hpick]

end ControlSurface.CommandLine
