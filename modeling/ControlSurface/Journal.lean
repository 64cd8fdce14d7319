/-
  ControlSurface.Journal
  ──────────────────────
  Where the program tells what it does while it runs: on the console, and in a file if one is
  named.  Setting the journal up again replaces it.
-/
import ControlSurface.Machine.FileSystem

namespace ControlSurface

/-- A place where the journal is written. -/
inductive JournalTarget where
  | console
  | file (p : Path)
  deriving Repr, DecidableEq, Inhabited

/-- A journal: what matters less than its level is left out. -/
structure Journal where
  level : Int
  targets : List JournalTarget
  deriving Repr, DecidableEq, Inhabited

namespace Journal

/-- The name of the journal. -/
def name : String := "faceplate"

/-- The level of what only helps to find mistakes. -/
def debugLevel : Int := 10

/-- The level of warnings. -/
def warningLevel : Int := 30

variable {m : Type → Type} [Monad m] [FileSystem m]

/-- Sets the journal up.  Its file is begun anew; an empty name stands for none. -/
def setUp (level : Int) (file : Option String) : ExceptT Fault m Journal := do
  match file with
  | none | some "" => return ⟨level, [.console]⟩
  | some name =>
    let p := (Path.ofString name).collapsed
    FileSystem.ask (.write p (.text ""))
    return ⟨level, [.console, .file p]⟩

end Journal

end ControlSurface
