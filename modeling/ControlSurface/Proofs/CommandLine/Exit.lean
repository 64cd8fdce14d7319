/-
  ControlSurface.Proofs.CommandLine.Exit
  ──────────────────────────────────────
  How a run of the program ends.  A run on a project file ends with an exit code, or with a fault
  that nothing takes care of.  `run_ends_iff` says which it is, for every content of the file that
  escapes no half of a surrogate pair: the file must not fail to load in one of three ways, and the
  command must be able to read what it reads of the project itself.  Exports and previews take care
  of whatever fails in them.
-/
import ControlSurface.Proofs.CommandLine.Commands

namespace ControlSurface

open Outcome Rehearsal

/-! ## §1. Before the command. -/

namespace Journal

theorem staysCalm_setUp (level : Int) (file : Option String) :
    StaysCalm (setUp level file : ExceptT Fault Run Journal) := by
  unfold setUp
  split
  · exact staysCalm_of_still fun _ => rfl
  · exact staysCalm_of_still fun _ => rfl
  · exact staysCalm_bind (staysCalm_ask _) fun _ => staysCalm_of_still fun _ => rfl

end Journal

namespace Settings

theorem staysCalm_locate : StaysCalm (locate : ExceptT Fault Run Path) :=
  staysCalm_bind (staysCalm_of_still fun _ => rfl) fun _ =>
    staysCalm_bind (staysCalm_of_still fun _ => rfl) fun _ =>
      staysCalm_bind (staysCalm_ask _) fun _ => staysCalm_of_still fun _ => rfl

theorem staysCalm_save (s : Settings) : StaysCalm (s.save : ExceptT Fault Run Unit) :=
  staysCalm_bind (staysCalm_ask _) fun _ => staysCalm_ask _

theorem staysCalm_readFile (p : Path) : StaysCalm (readFile p : ExceptT Fault Run Fields) := by
  have hpresent : StaysCalm (FileSystem.present p : ExceptT Fault Run Bool) :=
    staysCalm_bind (staysCalm_ask _) fun _ => staysCalm_of_still fun _ => rfl
  refine staysCalm_bind hpresent fun found => ?_
  split
  · exact staysCalm_of_still fun _ => rfl
  · exact staysCalm_bind (staysCalm_ask _) fun _ => staysCalm_of_still fun _ => rfl

theorem staysCalm_load (p : Path) : StaysCalm (load p : ExceptT Fault Run Settings) := by
  refine staysCalm_bind ?_ fun values => ?_
  · refine staysCalm_tryCatch (staysCalm_readFile p) fun e => ?_
    split <;> exact staysCalm_of_still fun _ => rfl
  · dsimp only
    split
    · exact staysCalm_of_still fun _ => rfl
    · refine staysCalm_bind (staysCalm_tryCatch (staysCalm_save _) fun e => ?_) fun _ =>
        staysCalm_of_still fun _ => rfl
      split <;> exact staysCalm_of_still fun _ => rfl

end Settings

namespace CommandLine

/-- The part of a run that does not look at the project: the machine once the journal is set up,
and the settings with the machine once they were read. -/
structure Beginning where
  begun : Rehearsal
  settings : Settings
  choices : Settings.ForExport
  ready : Rehearsal

/-- The journal is set up and the settings are read and understood, on a machine whose disk makes no
call fail by itself.  The project file, if there is one, escapes no half of a surrogate pair, which
would leave its strings with what is no text and cannot be shown. -/
structure Begins (a : Arguments) (r : Rehearsal) (b : Beginning) : Prop where
  calm : r.failsAfter = none
  journal : ∃ j, (Journal.setUp (if a.has .verbose then Journal.debugLevel else Journal.warningLevel)
    (a.value? .logFile) : ExceptT Fault Run Journal).run r = (.ok j, b.begun)
  settings : (do Settings.load (← Settings.locate) : ExceptT Fault Run Settings).run b.begun
    = (.ok b.settings, b.ready)
  choices : b.settings.forExport = .ok b.choices
  whole : ∀ content text, b.begun.disk.read a.path = .ok content → content.string = .ok text →
    Json.escapesHalf false text.toList = false

/-- The options of a run. -/
def Beginning.options (b : Beginning) (a : Arguments) : ExportOptions := a.adjust b.choices.options

namespace Begins

variable {a : Arguments} {r : Rehearsal} {b : Beginning}

theorem calm_begun (h : Begins a r b) : b.begun.failsAfter = none := by
  obtain ⟨j, hj⟩ := h.journal
  have hcalm := Journal.staysCalm_setUp
    (if a.has .verbose then Journal.debugLevel else Journal.warningLevel) (a.value? .logFile) r
    h.calm
  rwa [hj] at hcalm

theorem calm_ready (h : Begins a r b) : b.ready.failsAfter = none := by
  have hcalm := staysCalm_bind Settings.staysCalm_locate Settings.staysCalm_load b.begun h.calm_begun
  rwa [h.settings] at hcalm

end Begins

/-! ## §2. The project file. -/

/-- The project in a file of a disk. -/
def projectOn (d : Disk) (file : Path) : Except Fault Project := do
  Project.load (← (← d.read file).string)

/-- Loading looks at the disk and leaves it alone. -/
theorem run_loadProject {r : Rehearsal} (h : r.failsAfter = none) (file : Path) :
    (loadProject file : ExceptT Fault Run Project).run r = (projectOn r.disk file, r) := by
  have hread : (FileSystem.ask (.read file) : ExceptT Fault Run Content).run r
      = (r.disk.read file, r) := by
    show r.onDisk (.read file) = _
    obtain ⟨disk, failsAfter⟩ := r
    cases h
    rfl
  unfold projectOn
  cases hcontent : r.disk.read file with
  | ok content =>
    rw [hcontent] at hread
    exact run_bind_ok hread
  | error e =>
    rw [hcontent] at hread
    exact run_bind_error hread

theorem failsWith_string (c : Content) : FailsWith (· = .badValue) c.string := by
  cases c with
  | text s => exact failsWith_ok _
  | bytes data =>
    rw [Content.string]
    split
    · exact failsWith_ok _
    · exact failsWith_error rfl

theorem failsWith_read (d : Disk) (p : Path) :
    FailsWith (fun e => e.isFileFault = true ∨ e = .badValue) (d.read p) := by
  refine failsWith_bind ?_ fun q => ?_
  · intro e he
    cases hnul : Disk.hasNul p with
    | true =>
      rw [Disk.place, hnul, if_pos rfl] at he
      cases he
      exact Or.inr rfl
    | false => exact Or.inl (Disk.fault_place hnul he)
  · split
    · exact failsWith_ok _
    · exact failsWith_error (Or.inl rfl)
    · exact failsWith_error (Or.inl rfl)

/-- The faults of loading that a run does not take care of. -/
def strayFaults : List Fault := [.wrongType, .tooLarge, .noSuchPart]

/-- **A project file that cannot be loaded is reported, unless its fault is a stray one.** -/
theorem isLoadFault_iff {d : Disk} {file : Path} {e : Fault} (h : projectOn d file = .error e) :
    isLoadFault e = true ↔ e ∉ strayFaults := by
  have hfault : (e.isFileFault = true ∨ e = .badValue) ∨ LoadingFault e := by
    have hall : FailsWith (fun e => (e.isFileFault = true ∨ e = .badValue) ∨ LoadingFault e)
        (projectOn d file) := by
      refine failsWith_bind ((failsWith_read d file).imp fun _ => Or.inl) fun content => ?_
      refine failsWith_bind ((failsWith_string content).imp fun _ h => Or.inl (Or.inr h)) ?_
      exact fun text => (Project.failsWith_load text).imp fun _ => Or.inr
    exact hall e h
  rcases hfault with (hfile | rfl) | hload
  · refine iff_of_true (by simp [isLoadFault, hfile]) ?_
    intro hstray
    simp only [strayFaults, List.mem_cons, List.not_mem_nil, or_false] at hstray
    rcases hstray with rfl | rfl | rfl <;> cases hfile
  · exact iff_of_true rfl (by decide)
  · cases hload with
    | badJson => exact iff_of_true rfl (by decide)
    | noObject => exact iff_of_false (by decide) (by decide)
    | reading hread =>
      cases hread with
      | badValue => exact iff_of_true rfl (by decide)
      | wrongType => exact iff_of_false (by decide) (by decide)
      | tooLarge => exact iff_of_false (by decide) (by decide)
      | unknownKind kind elementId => exact iff_of_true rfl (by simp [strayFaults])

/-! ## §3. Commands. -/

/-- What a command needs of a project to end: a check can read what it reads, an export can name its
archive and note where it went, and a preview needs nothing. -/
def Feasible (a : Arguments) (p : Project) (b : Beginning) : Prop :=
  match a.command with
  | .validate => ∀ windows, Bundle.select p (b.options a) (a.value? .window) = .ok windows →
      ∀ w ∈ windows, Readable p windows w
  | .deliver =>
    ((b.options a).delivery = .archive → NamesArchive a b.ready → ∃ t, p.name.string = .ok t)
      ∧ ∀ x r, (exporting a p (b.options a) b.settings).run b.ready = (.ok x, r) →
          Remembers b.settings x r
  | .preview => True

/-- **A command ends, or fails with a fault of the program's own, iff it is feasible.** -/
theorem perform_ends_iff {a : Arguments} {p : Project} {b : Beginning}
    (h : b.ready.failsAfter = none) :
    FailsWith (fun e => e.isOwn = true)
        ((perform a p (b.options a) b.settings : ExceptT Fault Run Outcome).run b.ready).1
      ↔ Feasible a p b := by
  unfold perform Feasible
  cases a.command with
  | validate => exact validate_ends_iff
  | preview => exact iff_of_true (failsWith_ok _) trivial
  | deliver =>
    dsimp only
    have hforeign : FailsWith Foreign ((exportProject a p (b.options a) b.settings :
        ExceptT Fault Run Outcome).run b.ready).1 := by
      rw [exportProject_eq]
      exact failsWith_run_bind (foreign_exporting a p _ _ _) fun x r =>
        foreign_concludeExport b.settings x r
    rw [own_iff_of_foreign hforeign, exportProject_eq, ← exporting_ends_iff (s := b.settings) h]
    refine ends_bind_iff.trans ⟨?_, ?_⟩
    · rintro ⟨x, r', hrun, hends⟩
      refine ⟨⟨x, by rw [hrun]⟩, fun x' r'' hrun' => ?_⟩
      cases hrun.symm.trans hrun'
      exact concludeExport_ends_iff.mp hends
    · rintro ⟨⟨x, hx⟩, hremembers⟩
      have hrun : (exporting a p (b.options a) b.settings).run b.ready
          = (.ok x, ((exporting a p (b.options a) b.settings).run b.ready).2) := Prod.ext hx rfl
      exact ⟨x, _, hrun, concludeExport_ends_iff.mpr (hremembers x _ hrun)⟩

theorem code_validate (p : Project) (o : ExportOptions) (windowId : Option String) :
    Ensures (fun out => out.code = okCode ∨ out.code = failedCode) (validate p o windowId) := by
  refine ensures_after fun windows => ensures_after fun reports => ensures_ok ?_
  show (if _ then okCode else failedCode) = _ ∨ _
  split
  · exact Or.inl rfl
  · exact Or.inr rfl

theorem code_concludeExport (s : Settings) (x : ExportOutcome) (r : Rehearsal) :
    Ensures (fun out => out.code = okCode ∨ out.code = failedCode)
      ((concludeExport s x : ExceptT Fault Run Outcome).run r).1 := by
  cases x with
  | cancelled => exact ensures_ok (Or.inr rfl)
  | failed cause warnings => exact ensures_ok (Or.inr rfl)
  | done e =>
    cases hdirectory : e.directory with
    | none =>
      rw [concludeExport, hdirectory]
      exact ensures_ok (Or.inl rfl)
    | some path =>
      rw [concludeExport, hdirectory]
      exact ensures_run_bind fun _ _ => ensures_ok (Or.inl rfl)

theorem code_previewProject (a : Arguments) (p : Project) (o : ExportOptions) (r : Rehearsal) :
    ((previewProject a p o : Run Outcome) r).1.code = okCode
      ∨ ((previewProject a p o : Run Outcome) r).1.code = failedCode := by
  unfold previewProject
  generalize (Preview.run p o _ _ none : Run PreviewOutcome) = showing
  obtain ⟨shown, r', hrun⟩ : ∃ shown r', showing r = (shown, r') := ⟨_, _, rfl⟩
  simp only [bind, StateT.bind, hrun]
  cases shown with
  | shown => exact Or.inl rfl
  | failed => exact Or.inr rfl

/-- A command that ends did what it was asked for, or failed. -/
theorem code_perform (a : Arguments) (p : Project) (o : ExportOptions) (s : Settings)
    (r : Rehearsal) : Ensures (fun out => out.code = okCode ∨ out.code = failedCode)
      ((perform a p o s : ExceptT Fault Run Outcome).run r).1 := by
  unfold perform
  split
  · exact code_validate p o _
  · rw [exportProject_eq]
    exact ensures_run_bind fun x r' => code_concludeExport s x r'
  · exact ensures_ok (code_previewProject a p o r)

/-! ## §4. Runs. -/

/-- What a run does with a project that was loaded. -/
def performed (a : Arguments) (p : Project) (b : Beginning) : Except Fault Outcome :=
  ((tryCatch (perform a p (b.options a) b.settings) fun cause =>
    if cause.isOwn then return .finished failedCode [] (some (.refused cause)) else throw cause :
      ExceptT Fault Run Outcome).run b.ready).1

theorem run_eq {words : List String} {a : Arguments} {r : Rehearsal} {b : Beginning}
    (hwords : readArguments words = .ok a) (h : Begins a r b) :
    ((run words : ExceptT Fault Run Outcome).run r).1
      = match projectOn b.begun.disk a.path with
        | .ok p => performed a p b
        | .error e =>
          if isLoadFault e then .ok (.finished usageCode [] (some (.notLoaded a.path.toString e)))
          else .error e := by
  obtain ⟨j, hjournal⟩ := h.journal
  have hloading : (ExceptT.lift (loadProject a.path : ExceptT Fault Run Project).run :
      ExceptT Fault Run (Except Fault Project)).run b.begun
      = (.ok (projectOn b.begun.disk a.path), b.begun) := by
    rw [run_lift]
    exact congrArg (fun x => (Except.ok x.1, x.2)) (run_loadProject h.calm_begun a.path)
  rw [run, hwords]
  dsimp only
  unfold runArguments
  dsimp only
  rw [run_bind_ok hjournal, run_bind_ok hloading]
  cases projectOn b.begun.disk a.path with
  | ok p =>
    dsimp only
    unfold withProject
    rw [← bind_assoc, run_bind_ok h.settings]
    have hchoices : (ExceptT.mk (pure b.settings.forExport) : ExceptT Fault Run _).run b.ready
        = (.ok b.choices, b.ready) := by
      rw [h.choices]
      rfl
    rw [run_bind_ok hchoices]
    rfl
  | error e =>
    dsimp only
    split <;> rfl

/-- A command that was begun ends iff it is feasible: its own faults are reported. -/
theorem performed_ends_iff {a : Arguments} {p : Project} {b : Beginning}
    (h : b.ready.failsAfter = none) :
    (∃ out, performed a p b = .ok out) ↔ Feasible a p b := by
  rw [← perform_ends_iff h]
  unfold performed
  rw [run_tryCatch]
  obtain ⟨outcome, r', hrun⟩ : ∃ outcome r', (perform a p (b.options a) b.settings :
      ExceptT Fault Run Outcome).run b.ready = (outcome, r') := ⟨_, _, rfl⟩
  rw [hrun]
  cases outcome with
  | ok out => exact iff_of_true ⟨out, rfl⟩ (failsWith_ok _)
  | error e =>
    dsimp only
    cases hown : e.isOwn with
    | true => exact iff_of_true ⟨_, rfl⟩ (failsWith_error hown)
    | false =>
      refine iff_of_false (fun ⟨_, hok⟩ => nomatch hok) fun hfails => ?_
      exact Bool.false_ne_true (hown.symm.trans (hfails e rfl))

theorem code_performed (a : Arguments) (p : Project) (b : Beginning) :
    Ensures (fun out => out.code = okCode ∨ out.code = failedCode) (performed a p b) := by
  have hcode := code_perform a p (b.options a) b.settings b.ready
  unfold performed
  rw [run_tryCatch]
  obtain ⟨outcome, r', hrun⟩ : ∃ outcome r', (perform a p (b.options a) b.settings :
      ExceptT Fault Run Outcome).run b.ready = (outcome, r') := ⟨_, _, rfl⟩
  rw [hrun] at hcode ⊢
  cases outcome with
  | ok out => exact hcode
  | error e =>
    dsimp only
    split
    · exact ensures_ok (Or.inr rfl)
    · exact fun _ hok => nomatch hok

/-- **A run ends with an exit code iff its project file does not fail to load with a stray fault and
its command is feasible for the project.**  It ends with 2 exactly for a file that cannot be
loaded, and with 0 or 1 for all others. -/
theorem run_ends_iff {words : List String} {a : Arguments} {r : Rehearsal} {b : Beginning}
    (hwords : readArguments words = .ok a) (h : Begins a r b) :
    (Ends (run words : ExceptT Fault Run Outcome) r
        ↔ (∀ e, projectOn b.begun.disk a.path = .error e → e ∉ strayFaults)
          ∧ ∀ p, projectOn b.begun.disk a.path = .ok p → Feasible a p b)
      ∧ ∀ out, ((run words : ExceptT Fault Run Outcome).run r).1 = .ok out →
          (out.code = 0 ∨ out.code = 1 ∨ out.code = 2)
            ∧ (out.code = 2 ↔ ∃ e, projectOn b.begun.disk a.path = .error e) := by
  unfold Ends
  rw [run_eq hwords h]
  cases hfound : projectOn b.begun.disk a.path with
  | ok p =>
    simp only [reduceCtorEq, false_imp_iff, implies_true, true_and, Except.ok.injEq, forall_eq',
      exists_false, iff_false]
    refine ⟨performed_ends_iff h.calm_ready, fun out hout => ?_⟩
    rcases code_performed a p b out hout with hcode | hcode
    · rw [hcode]
      exact ⟨Or.inl rfl, by decide⟩
    · rw [hcode]
      exact ⟨Or.inr (Or.inl rfl), by decide⟩
  | error e =>
    simp only [Except.error.injEq, forall_eq', reduceCtorEq, false_imp_iff, implies_true, and_true,
      exists_eq', iff_true, ← isLoadFault_iff hfound]
    cases hload : isLoadFault e with
    | true =>
      refine ⟨iff_of_true ⟨_, rfl⟩ rfl, fun out hout => ?_⟩
      cases hout
      exact ⟨Or.inr (Or.inr rfl), rfl⟩
    | false => exact ⟨iff_of_false (fun ⟨_, hok⟩ => nomatch hok) Bool.false_ne_true, fun _ hok => nomatch hok⟩

/-- A machine with a project file. -/
def machineWith (text : String) : Rehearsal :=
  { disk := ⟨[(["home"], .directory), (["p.json"], .file (.text text))], []⟩ }

/-- The project file of a window without elements. -/
def windowText : String :=
  "\x7b\"windows\": [\x7b\"id\": \"w\", \"name\": \"Main\"\x7d]\x7d"

/-- The check of a window without elements ends. -/
theorem window_checked :
    ∃ b, readArguments ["validate", "p.json"] = .ok ⟨.validate, "p.json", []⟩
      ∧ Begins ⟨.validate, "p.json", []⟩ (machineWith windowText) b
      ∧ Ends (run ["validate", "p.json"] : ExceptT Fault Run Outcome) (machineWith windowText) := by
  have hwords : readArguments ["validate", "p.json"] = .ok ⟨.validate, "p.json", []⟩ := by
    decide +kernel
  have hchoices : ((do Settings.load (← Settings.locate) : ExceptT Fault Run Settings).run
      (machineWith windowText)).1.toOption.any (fun s => s.forExport.isOk) = true := by
    decide
  have hwhole : ∀ content text,
      (machineWith windowText).disk.read (Path.ofString "p.json") = .ok content →
        content.string = .ok text → Json.escapesHalf false text.toList = false := by
    have hread : (machineWith windowText).disk.read (Path.ofString "p.json")
        = .ok (.text windowText) := by decide +kernel
    intro content text hcontent htext
    cases hread.symm.trans hcontent
    cases htext
    decide +kernel
  obtain ⟨s, hs, hforExport⟩ := exists_of_any hchoices
  obtain ⟨c, hc⟩ := exists_of_isOk hforExport
  have hbegins : Begins ⟨.validate, "p.json", []⟩ (machineWith windowText)
      ⟨machineWith windowText, s, c, ((do Settings.load (← Settings.locate) :
        ExceptT Fault Run Settings).run (machineWith windowText)).2⟩ :=
    ⟨rfl, ⟨_, rfl⟩, Prod.ext hs rfl, hc, hwhole⟩
  have hproject : (projectOn (machineWith windowText).disk (Path.ofString "p.json")).toOption.any
      (fun p => p.elements.isEmpty && p.windows.all fun w => w.elementIds.isEmpty) = true := by
    decide +kernel
  obtain ⟨p, hp, hempty⟩ := exists_of_any hproject
  obtain ⟨helements, hwindows⟩ := Bool.and_eq_true_iff.mp hempty
  refine ⟨_, hwords, hbegins, (run_ends_iff hwords hbegins).1.mpr ⟨fun e he => ?_, fun p' hp' => ?_⟩⟩
  · cases hp.symm.trans he
  · cases hp.symm.trans hp'
    intro windows hselect w hw
    cases hselect
    have hnone : w.elementIds = [] :=
      List.isEmpty_iff.mp (List.all_eq_true.mp hwindows w (List.mem_of_mem_filter hw))
    refine ⟨by rw [List.isEmpty_iff.mp helements]; rfl, fun e he => ?_⟩
    rw [Layout.resolve, hnone, Layout.visit] at he
    cases he

/-- A project file that holds a list and no object ends a run with a fault. -/
theorem listFile_escapes :
    readArguments ["validate", "p.json"] = .ok ⟨.validate, "p.json", []⟩
      ∧ ¬ Ends (run ["validate", "p.json"] : ExceptT Fault Run Outcome) (machineWith "[]") := by
  refine ⟨by decide +kernel, fun ⟨out, hout⟩ => ?_⟩
  have hfault : ((run ["validate", "p.json"] : ExceptT Fault Run Outcome).run (machineWith "[]")).1
      = .error .noSuchPart := by decide +kernel
  cases hfault.symm.trans hout

end CommandLine

end ControlSurface
