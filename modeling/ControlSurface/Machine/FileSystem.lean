/-
  ControlSurface.Machine.FileSystem
  ─────────────────────────────────
  Programs that work on files.  `FileCall` lists what can be asked of a file system; a program is
  written over any monad that answers, and `Disk.run` is the answer of a disk that is a value.
  `Desktop` is what a program can ask of the desktop that it runs on, beside its files.
-/
import ControlSurface.Machine.Disk
import ControlSurface.Value.Basic

namespace ControlSurface

/-- What can be asked of a file system, with the type of the answer. -/
inductive FileCall : Type → Type where
  /-- The kind of item at a path, if there is any. -/
  | look (p : Path) : FileCall (Option ItemKind)
  /-- The content of a file. -/
  | read (p : Path) : FileCall Content
  /-- Writes a file, new or in place of an old one. -/
  | write (p : Path) (c : Content) : FileCall Unit
  /-- Makes a directory and the ones above it, as far as they are missing. -/
  | makeDirectories (p : Path) : FileCall Unit
  /-- Makes a directory of a new name that begins as given. -/
  | makeFreshDirectory (parent : Path) (stem : String) : FileCall Path
  /-- Writes a file of a new name that begins and ends as given; without a directory it lies where
  the machine keeps what is not kept. -/
  | writeFresh (parent : Option Path) (stem suffix : String) (c : Content) : FileCall Path
  /-- Moves a file or a directory over what is there. -/
  | move (source target : Path) : FileCall Unit
  /-- Removes a file. -/
  | remove (p : Path) : FileCall Unit
  /-- Removes a directory with all that is in it. -/
  | removeTree (p : Path) : FileCall Unit

/-- A monad in which files can be worked on. -/
class FileSystem (m : Type → Type) where
  call : {α : Type} → FileCall α → m (Except Fault α)

namespace Disk

/-- The directory for files that are not kept. -/
def scratch : Path := ⟨"/", ["tmp"]⟩

/-- The answer of a change that either happens or fails. -/
def settle (d : Disk) : Except Fault Disk → Except Fault Unit × Disk
  | .ok changed => (.ok (), changed)
  | .error e => (.error e, d)

/-- The answer of a disk, and the disk after it. -/
def run (d : Disk) : {α : Type} → FileCall α → Except Fault α × Disk
  | _, .look p => (.ok (d.look p), d)
  | _, .read p => (d.read p, d)
  | _, .write p c => d.settle (d.write p c)
  | _, .makeDirectories p => d.makeDirectories p
  | _, .makeFreshDirectory parent stem =>
    match d.freshPath parent stem "" with
    | .error e => (.error e, d)
    | .ok p => match d.makeDirectories p with
      | (.ok _, changed) => (.ok p, changed)
      | (.error e, changed) => (.error e, changed)
  | _, .writeFresh parent stem suffix c =>
    match d.freshPath (parent.getD scratch) stem suffix with
    | .error e => (.error e, d)
    | .ok p => match d.write p c with
      | .ok changed => (.ok p, changed)
      | .error e => (.error e, d)
  | _, .move source target => d.settle (d.move source target)
  | _, .remove p => d.settle (d.remove p)
  | _, .removeTree p => d.settle (d.removeTree p)

end Disk

namespace FileSystem

variable {m : Type → Type} [Monad m] [FileSystem m]

/-- A call that ends the program if it fails. -/
def ask {α : Type} (c : FileCall α) : ExceptT Fault m α := ExceptT.mk (call c)

/-- A call whose failure is passed over. -/
def attempt {α : Type} (c : FileCall α) : m Unit := do let _ ← call c

/-- Whether anything stands at a path. -/
def present (p : Path) : ExceptT Fault m Bool := do
  let found ← ask (.look p)
  return found.isSome

end FileSystem

/-- A way to open a page. -/
inductive Browser where
  /-- The web browser of the machine. -/
  | web
  /-- Whatever the desktop opens pages with. -/
  | desktop
  deriving Repr, DecidableEq, Inhabited

/-- A monad in which the desktop can be asked. -/
class Desktop (m : Type → Type) where
  /-- The directory where relative paths begin. -/
  workingDirectory : m Path
  /-- The home directory of the user. -/
  home : m Path
  /-- The directory for the data of this program, where the user names one. -/
  dataDirectory : m (Option String)
  /-- Opens a page; tells whether it did. -/
  openPage : Browser → String → m (Except Fault Bool)
  /-- Lets the user choose a directory, beginning at the one that was last used. -/
  chooseDirectory : Value → m (Option Path)
  /-- Lets the user choose where an archive goes, given a name for it. -/
  chooseArchive : String → m (Option Path)
  /-- Removes a file after some seconds. -/
  removeLater : Float → Path → m Unit

end ControlSurface
