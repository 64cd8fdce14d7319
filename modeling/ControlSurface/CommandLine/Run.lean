/-
  ControlSurface.CommandLine.Run
  ──────────────────────────────
  The program: reads its command line, loads the project and the settings, and checks, exports or
  shows the project.  What it prints and how it ends is its outcome.
-/
import ControlSurface.CommandLine.Arguments
import ControlSurface.Export
import ControlSurface.Journal
import ControlSurface.Preview.Document
import ControlSurface.Project.Reader
import ControlSurface.Settings

namespace ControlSurface.CommandLine

/-! ## §1. Outcomes. -/

/-- What is printed about a failure. -/
inductive Complaint where
  | notLoaded (file : String) (cause : Fault)
  | notExported (cause : Fault)
  | notShown (cause : Fault)
  | refused (cause : Fault)
  deriving Repr, DecidableEq, Inhabited

/-- How a run ended. -/
inductive Outcome where
  /-- The command line was not understood. -/
  | usage
  /-- Help was asked for. -/
  | help
  | finished (code : Nat) (lines : List String) (complaint : Option Complaint)
  deriving Repr, DecidableEq, Inhabited

/-- The exit code of a run that did what it was asked for. -/
def okCode : Nat := 0

/-- The exit code of a run that failed. -/
def failedCode : Nat := 1

/-- The exit code of a run that could not begin. -/
def usageCode : Nat := 2

/-- The exit code of an outcome. -/
def Outcome.code : Outcome → Nat
  | usage => usageCode
  | help => okCode
  | finished code _ _ => code

/-- A failure of an activity as it is reported: what the program does not foresee is named after
the activity. -/
def reported (activity : String) (cause : Fault) : String :=
  if cause.isOwn then cause.describe else s!"{activity}: {cause.describe}"

/-- The text of a complaint. -/
def Complaint.text : Complaint → String
  | notLoaded file cause => s!"Cannot load {file}: {cause.describe}"
  | notExported cause => "Export failed: " ++ reported "Export failed" cause
  | notShown cause => "Preview failed: " ++ reported "Preview failed" cause
  | refused cause => cause.describe

variable {m : Type → Type} [Monad m] [FileSystem m] [Desktop m]

/-! ## §2. Checking. -/

/-- The lines about the check of a window. -/
def checkLines (w : Window) (r : Check.Report) : List String :=
  let status := if r.valid then "ok" else "invalid"
  [s!"{w.name.toText}: {status}"]
    ++ r.errors.map (fun f => s!"  error: {f.item}")
    ++ r.warnings.map (fun f => s!"  warning: {f.describe}")

/-- Checks the selected windows of a project. -/
def validate (p : Project) (o : ExportOptions) (windowId : Option String) :
    Except Fault Outcome := do
  let windows ← Bundle.select p o windowId
  let known := windows.map Window.id
  let reports ← windows.mapM fun w => do
    .ok (w, ← Check.check (some known) (← Layout.shownBy p.elements w))
  let code := if reports.all fun (_, r) => r.valid then okCode else failedCode
  .ok (.finished code (reports.flatMap fun (w, r) => checkLines w r) none)

/-! ## §3. Exporting. -/

/-- Where the directory of an export comes from. -/
def directorySource (a : Arguments) (s : Settings) : DirectorySource :=
  match a.value? .output with
  | some path => .fixed (Path.ofString path)
  | none =>
    if a.has .pickFolder then .asked (s.get Settings.lastDirectory (.text "")) else .unavailable

/-- The place that the user chooses for an archive, where one is to be asked for. -/
def chosenPlace (a : Arguments) (p : Project) : ExceptT Fault m (Option Path) := do
  match a.value? .output with
  | some path => return some (Path.ofString path)
  | none =>
    if !a.has .pickFolder then return none
    let name ← ExceptT.mk (pure (Bundle.archiveName p))
    ExceptT.lift (Desktop.chooseArchive name)

/-- The place of an archive: in a directory it gets its own name. -/
def archivePlace (p : Project) (chosen : Option Path) : ExceptT Fault m Path := do
  match chosen with
  | none =>
    let here ← ExceptT.lift Desktop.workingDirectory
    return here.join ⟨"", [← ExceptT.mk (pure (Bundle.archiveName p))]⟩
  | some path =>
    if (← FileSystem.ask (.look path)) = some .directory then
      return path.join ⟨"", [← ExceptT.mk (pure (Bundle.archiveName p))]⟩
    else return path

/-- What is printed when the user goes back. -/
def cancelled : Outcome := .finished failedCode ["Export cancelled."] none

/-- The lines about warnings. -/
def warningLines (warnings : List String) : List String := warnings.map fun w => s!"warning: {w}"

/-- The last lines about an export. -/
def resultLines (x : Exported) : List String :=
  let names := ", ".intercalate (x.windows.map Value.toText)
  let place := ((x.directory.map Path.toString).getD (Value.toText .null))
  [s!"Exported {x.files.length} file(s) for {names} to {place}"]
    ++ match x.savings with
      | some saved => [s!"SVG savings: {String.ofList (Number.fixed 1 saved.percent)}%"]
      | none => []

/-- Prints how an export ended, and remembers where it went. -/
def concludeExport (s : Settings) : ExportOutcome → ExceptT Fault m Outcome
  | .cancelled => return cancelled
  | .failed cause warnings =>
    return .finished failedCode (warningLines warnings) (some (.notExported cause))
  | .done x => do
    match x.directory with
    | some path => s.change Settings.lastDirectory (.text path.toString)
    | none => pure ()
    return .finished okCode (warningLines x.warnings ++ resultLines x) none

/-- Exports the selected windows of a project. -/
def exportProject (a : Arguments) (p : Project) (o : ExportOptions) (s : Settings) :
    ExceptT Fault m Outcome := do
  let windowId := a.value? .window
  match o.delivery with
  | .folder =>
    concludeExport s (← ExceptT.lift (Export.run p o windowId (directorySource a s) none))
  | .archive =>
    let chosen ← chosenPlace a p
    if chosen.isNone && a.has .pickFolder then return cancelled
    let place ← archivePlace p chosen
    concludeExport s (← ExceptT.lift (Export.run p o windowId .unavailable (some place)))

/-! ## §4. Showing. -/

/-- Shows the preview of a window, or of all windows if none is named. -/
def previewProject (a : Arguments) (p : Project) (o : ExportOptions) : m Outcome := do
  let windowId := (a.value? .window).filter (· ≠ "")
  let browser := if a.has .desktop then Browser.desktop else Browser.web
  match ← Preview.run p o windowId browser none with
  | .shown url _ warnings =>
    return .finished okCode (warningLines warnings ++ [s!"Preview opened: {url}"]) none
  | .failed cause warnings =>
    return .finished failedCode (warningLines warnings) (some (.notShown cause))

/-! ## §5. The program. -/

/-- Loads a project file. -/
def loadProject (file : Path) : ExceptT Fault m Project := do
  let content ← FileSystem.ask (.read file)
  ExceptT.mk (pure (do Project.load (← content.string)))

/-- Whether a failure to load a project is reported. -/
def isLoadFault (e : Fault) : Bool := e.isFileFault || e.isValueFault || e.isOwn

/-- Does what a command asks for. -/
def perform (a : Arguments) (p : Project) (o : ExportOptions) (s : Settings) :
    ExceptT Fault m Outcome :=
  match a.command with
  | .validate => ExceptT.mk (pure (validate p o (a.value? .window)))
  | .deliver => exportProject a p o s
  | .preview => ExceptT.lift (previewProject a p o)

/-- Does what a command asks for with a project that was loaded. -/
def withProject (a : Arguments) (p : Project) : ExceptT Fault m Outcome := do
  let s ← Settings.load (← Settings.locate)
  let choices ← ExceptT.mk (pure s.forExport)
  tryCatch (perform a p (a.adjust choices.options) s) fun cause =>
    if cause.isOwn then return .finished failedCode [] (some (.refused cause)) else throw cause

/-- The program on some arguments. -/
def runArguments (a : Arguments) : ExceptT Fault m Outcome := do
  let level := if a.has .verbose then Journal.debugLevel else Journal.warningLevel
  let _ ← Journal.setUp level (a.value? .logFile)
  match ← ExceptT.lift (loadProject a.path).run with
  | .ok p => withProject a p
  | .error cause =>
    if isLoadFault cause then
      return .finished usageCode [] (some (.notLoaded a.path.toString cause))
    else throw cause

/-- The program on the words of its command line. -/
def run (words : List String) : ExceptT Fault m Outcome :=
  match readArguments words with
  | .ok a => runArguments a
  | .error .help => return .help
  | .error .usage => return .usage

end ControlSurface.CommandLine
