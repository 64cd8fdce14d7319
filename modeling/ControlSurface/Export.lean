/-
  ControlSurface.Export
  ─────────────────────
  An export from the project to the disk: the bundle is made, then saved as an archive or written
  to a directory.  Whatever fails on the way is reported and leaves the program running.
-/
import ControlSurface.Delivery.Folder
import ControlSurface.Delivery.Archive
import ControlSurface.Machine.FileSystem

namespace ControlSurface

/-! ## §1. Outcomes. -/

/-- What an export gave. -/
structure Exported where
  files : List String
  windows : List Value
  warnings : List String
  savings : Option Bundle.Savings
  /-- The archive and its name, unless the bundle went to a directory. -/
  archive : Option (String × Delivery.Archive)
  /-- The directory that the bundle or the archive lies in, if it was saved. -/
  directory : Option Path
  deriving Inhabited

/-- How an export ended. -/
inductive ExportOutcome where
  | done (result : Exported)
  | cancelled
  | failed (cause : Fault) (warnings : List String)
  deriving Inhabited

/-- Where a directory to write to comes from. -/
inductive DirectorySource where
  /-- Nobody can give one. -/
  | unavailable
  | fixed (p : Path)
  /-- The user is asked, beginning at the directory that was last used. -/
  | asked (start : Value)
  deriving Inhabited

namespace Export

open ControlSurface.Bundle ControlSurface.Delivery

variable {m : Type → Type} [Monad m] [FileSystem m] [Desktop m]

/-! ## §2. Delivery. -/

/-- The result of a bundle before it is delivered. -/
def undelivered (a : Assembly) : Exported :=
  { files := Keyed.keys a.files, windows := a.windows, warnings := a.warnings
    savings := a.savings, archive := none, directory := none }

/-- The directory that a source gives; nothing if the user gives none. -/
def directory (source : DirectorySource) : ExceptT Fault m (Option Path) :=
  match source with
  | .unavailable => throw .noDirectory
  | .fixed p => return some p
  | .asked start => ExceptT.lift (Desktop.chooseDirectory start)

/-- Writes a bundle to a directory; nothing if the user gives none. -/
def toFolder (a : Assembly) (source : DirectorySource) : ExceptT Fault m (Option Exported) := do
  match ← directory source with
  | none => return none
  | some p =>
    let root ← writeFolder a.files p
    return some { undelivered a with directory := some root }

/-- Makes the archive of a bundle, and saves it where a place for it is given. -/
def toArchive (p : Project) (a : Assembly) (target : Option Path) : ExceptT Fault m Exported := do
  let packed ← ExceptT.mk (pure (archive a.files))
  let name ← ExceptT.mk (pure (archiveName p))
  let result := { undelivered a with archive := some (name, packed) }
  match target with
  | none => return result
  | some place =>
    let saved ← saveArchive (.bytes (Zip.encode packed)) place
    return { result with directory := some saved.parent }

/-- Delivers a bundle in the form that is asked for. -/
def deliver (p : Project) (o : ExportOptions) (a : Assembly) (source : DirectorySource)
    (target : Option Path) : ExceptT Fault m (Option Exported) :=
  match o.delivery with
  | .folder => toFolder a source
  | .archive => some <$> toArchive p a target

/-! ## §3. The export. -/

/-- Exports the selected windows of a project. -/
def run (p : Project) (o : ExportOptions) (windowId : Option String) (source : DirectorySource)
    (target : Option Path) : m ExportOutcome := do
  match assemble p o windowId with
  | .error cause => return .failed cause []
  | .ok a =>
    match ← (deliver p o a source target).run with
    | .error cause => return .failed cause a.warnings
    | .ok none => return .cancelled
    | .ok (some result) => return .done result

end Export

end ControlSurface
