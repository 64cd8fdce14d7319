/-
  ControlSurface.Bundle.Files
  ───────────────────────────
  All files of a bundle, in memory: four for each window, in its own directory if there are
  several windows, then the fonts, then the guide.
-/
import ControlSurface.Bundle.Guide
import ControlSurface.Machine.Disk

namespace ControlSurface

namespace Bundle

/-- Files by their path in the bundle, in the order in which they are written. -/
abbrev Files := List (String × Content)

/-! ## §1. The parts of a bundle. -/

/-- The directory of a window, with the slash after it. -/
def directory (several : Bool) (slug : String) : String := if several then slug ++ "/" else ""

/-- Where the fonts of a bundle lie, seen from the stylesheet of a window. -/
def fontPlace (several : Bool) : String := if several then "../fonts/" else "./fonts/"

/-- The binding script of a bundle: after a relay of its own where there is no host. -/
def bindingsFor (target : BundleTarget) (script : String) : String :=
  match target with
  | .standalone => Script.ofLines Script.mockRelay ++ "\n" ++ script
  | .host => script

/-- The files of a window under their paths. -/
def windowEntries (o : ExportOptions) (several : Bool) (slug : String) (f : WindowFiles) : Files :=
  let base := directory several slug
  [(base ++ "index.html", .text f.page), (base ++ "style.css", .text f.stylesheet),
   (base ++ "components.js", .text f.components),
   (base ++ "bindings.js", .text (bindingsFor o.target f.bindings))]

/-- The files of shipped fonts under their paths. -/
def fontEntries (fonts : List BundledFont) : Files :=
  fonts.map fun f => ("fonts/" ++ f.filename, .bytes f.data)

/-! ## §2. The bundle. -/

/-- Sizes of all graphics together, before and after they were optimized. -/
structure Savings where
  givenBytes : Nat
  optimizedBytes : Nat
  percent : Float
  deriving Inhabited

/-- A bundle with what is told about it. -/
structure Assembly where
  files : Files
  windows : List Value
  warnings : List String
  savings : Option Savings
  deriving Inhabited

/-- What optimizing saved, if anything was optimized. -/
def savings (results : List Svg.Optimized) : Option Savings :=
  if results.isEmpty then none
  else
    let b := Svg.combine results
    some ⟨b.givenBytes, b.optimizedBytes, b.percent⟩

/-- Makes the files of the selected windows of a project. -/
def assemble (p : Project) (o : ExportOptions) (windowId : Option String) :
    Except Fault Assembly := do
  let selected ← select p o windowId
  if selected.isEmpty then throw .nothingToExport
  let (prepared, warnings) ← prepare p selected
  let several := decide (1 < prepared.length)
  let e ← equip p o prepared
  let linked := links several e.windows
  let perWindow ← e.windows.mapM fun w => do
    let made ← windowFiles (setting p o linked (fontPlace several) w) w.elements
    .ok (windowEntries o several w.slug made)
  -- a file under a path that is taken replaces what stood there
  let files := Keyed.ofList (perWindow.flatten ++ fontEntries e.shipped)
  -- the guide lists itself
  let names := Keyed.keys files ++ [Guide.file]
  let g ← guide p o linked names e.windows
  .ok { files := Keyed.put Guide.file (.text g.text) files
        windows := e.windows.map fun w => w.window.name
        warnings := warnings ++ e.warnings
        savings := savings e.results }

/-- The name of the archive of a project. -/
def archiveName (p : Project) : Except Fault String := do
  .ok (Name.slugOr "faceplate" (← p.name.string) ++ "-bundle.zip")

end Bundle

end ControlSurface
