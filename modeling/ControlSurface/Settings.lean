/-
  ControlSurface.Settings
  ───────────────────────
  What the user's choices for exports are kept in: a small JSON file of texts.  A file that cannot
  be read counts as empty, and missing choices are filled in with their defaults.
-/
import ControlSurface.Bundle.Window
import ControlSurface.Json.Printer
import ControlSurface.Json.Reader
import ControlSurface.Machine.FileSystem
import ControlSurface.Text.Character
import ControlSurface.Text.LowerCase

namespace ControlSurface

/-- The choices of a user, and the file that they are kept in. -/
structure Settings where
  file : Path
  values : Fields
  deriving Inhabited

namespace Settings

variable {m : Type → Type} [Monad m] [FileSystem m] [Desktop m]

/-! ## §1. The values. -/

/-- The directory that was last exported to. -/
def lastDirectory : String := "last_export_dir"

/-- The choices that every file holds, unless they are empty. -/
def defaults : List (String × String) :=
  [("optimize_assets", "1"), ("responsive_scaling", "1"), ("include_developer_windows", "0"),
   ("custom_scrollbars", "1"), ("delivery", "archive"), ("target", "host"), (lastDirectory, "")]

/-- The value of a choice. -/
def get (s : Settings) (key : String) (default : Value) : Value :=
  (Value.find? s.values key).getD default

/-- Whether a choice is missing or empty. -/
def isMissing (values : Fields) (key : String) : Bool :=
  ((Value.find? values key).getD (.text "")).same (.text "")

/-- The defaults that are missing in a file. -/
def missing (values : Fields) : Fields :=
  (defaults.filter fun d => isMissing values d.1 && d.2 ≠ "").map fun d => (d.1, .text d.2)

/-! ## §2. The file. -/

/-- How settings are written. -/
def fileStyle : Json.Style := { indent := some 2, sorted := false, ascii := true }

/-- Writes the settings, and makes the directories above their file. -/
def save (s : Settings) : ExceptT Fault m Unit := do
  FileSystem.ask (.makeDirectories s.file.parent)
  FileSystem.ask (.write s.file (.text (Json.print fileStyle (.object s.values))))

/-- The values in the text of a file; only an object has any. -/
def ofText (text : String) : Except Fault Fields := do
  match ← Json.read text with
  | .object fields => .ok (Keyed.ofList fields)
  | _ => .ok []

/-- The values in a file. -/
def readFile (p : Path) : ExceptT Fault m Fields := do
  if !(← FileSystem.present p) then return []
  let content ← FileSystem.ask (.read p)
  ExceptT.mk (pure (do ofText (← content.string)))

/-- Whether a failure to read settings is passed over. -/
def isPassedOver (e : Fault) : Bool := e.isFileFault || e.isValueFault

/-- Reads settings, fills in the missing ones and writes them back if there were any. -/
def load (p : Path) : ExceptT Fault m Settings := do
  let values ← tryCatch (readFile p) fun e => if isPassedOver e then pure [] else throw e
  let added := missing values
  if added.isEmpty then return ⟨p, values⟩
  let s : Settings := ⟨p, Keyed.putAll values added⟩
  tryCatch s.save fun e => if e.isFileFault then pure () else throw e
  return s

/-! ## §3. Changes. -/

/-- Settings with a choice changed. -/
def put (s : Settings) (key : String) (v : Value) : Settings :=
  { s with values := Value.put key v s.values }

/-- Changes a choice and writes the settings. -/
def change (s : Settings) (key : String) (v : Value) : ExceptT Fault m Unit := (s.put key v).save

/-- The text that a choice is kept as. -/
def keptText : Value → String
  | .bool b => if b then "1" else "0"
  | v => v.toText

/-- The choices about exports, with what holds where nothing is said. -/
def exportDefaults : Fields :=
  [("optimize_assets", .bool true), ("responsive_scaling", .bool true),
   ("include_developer_windows", .bool false), ("custom_scrollbars", .bool true),
   ("delivery", .text DeliveryForm.archive.name), ("target", .text BundleTarget.host.name),
   (lastDirectory, .text "")]

/-- Settings with all choices about exports as given; there are no others to give. -/
def withExport (s : Settings) (given : Fields) : Except Fault Settings :=
  if given.any fun g => (Value.find? exportDefaults g.1).isNone then .error .wrongType
  else .ok (exportDefaults.foldl (fun s (key, v) =>
    s.put key (.text (keptText ((Value.find? given key).getD v)))) s)

/-! ## §4. Choices about exports. -/

/-- The words for yes. -/
def yesWords : List String := ["1", "true", "yes", "on"]

/-- Whether a choice says yes; one that is empty leaves the default. -/
def flag (s : Settings) (key : String) (default : Bool) : Except Fault Bool :=
  match s.get key (.text "") with
  | .text "" => .ok default
  | .text t => .ok (yesWords.contains (String.ofList (Text.lower (Text.trim t.toList))))
  | _ => .error .noSuchPart

/-- The text of a choice, if it is text. -/
def word (s : Settings) (key : String) : String :=
  match s.get key (.text "") with
  | .text t => t
  | _ => ""

/-- The choices about exports. -/
structure ForExport where
  optimizeAssets : Bool
  responsive : Bool
  developerWindows : Bool
  customScrollbars : Bool
  delivery : DeliveryForm
  target : BundleTarget
  lastDirectory : Value
  deriving Inhabited

/-- The choices about exports in settings; what is not known is an archive for a host. -/
def forExport (s : Settings) : Except Fault ForExport := do
  let optimizeAssets ← s.flag "optimize_assets" true
  let responsive ← s.flag "responsive_scaling" true
  let developerWindows ← s.flag "include_developer_windows" false
  let customScrollbars ← s.flag "custom_scrollbars" true
  .ok { optimizeAssets, responsive, developerWindows, customScrollbars
        delivery := (DeliveryForm.ofName? (s.word "delivery")).getD .archive
        target := (BundleTarget.ofName? (s.word "target")).getD .host
        lastDirectory := s.get Settings.lastDirectory (.text "") }

/-- The options that choices stand for. -/
def ForExport.options (c : ForExport) : ExportOptions :=
  { optimizeAssets := c.optimizeAssets
    responsive := c.responsive
    developerWindows := c.developerWindows
    customScrollbars := c.customScrollbars
    delivery := c.delivery
    target := c.target }

/-! ## §5. Where the file lies. -/

/-- The name of the directory for the data of this program. -/
def directoryName : String := "Faceplate"

/-- The directory for the data of this program: the one that the user names, or one below the home
directory. -/
def directory (named : Option String) (home : Path) : Path :=
  match named with
  | some "" | none => home.join ⟨"", [".local", "share", directoryName]⟩
  | some name => Path.ofString name

/-- The file of the settings; its directory is made. -/
def locate : ExceptT Fault m Path := do
  let named ← ExceptT.lift Desktop.dataDirectory
  let home ← ExceptT.lift (m := m) Desktop.home
  let place := directory named home
  FileSystem.ask (.makeDirectories place)
  return place.join ⟨"", ["settings.json"]⟩

end Settings

end ControlSurface
