/-
  ControlSurface.Delivery.Folder
  ──────────────────────────────
  A bundle as files below a directory, written as one unit.  All files are staged in a fresh
  directory there and then moved into place; what stood in their places is kept until all are
  moved.  If a step fails, the moves are undone in reverse order and the stage is removed.
-/
import ControlSurface.Delivery.Archive

namespace ControlSurface.Delivery

open FileSystem

variable {m : Type → Type} [Monad m] [FileSystem m]

/-! ## §1. Staging. -/

/-- How the name of the stage begins. -/
def stageStem : String := ".faceplate-staging-"

/-- Where the files that were in the way are kept during a delivery. -/
def backups (stage : Path) : Path := stage.join ⟨"", [".backup"]⟩

/-- Writes all files on the stage. -/
def stageFiles (stage : Path) : Bundle.Files → ExceptT Fault m Unit
  | [] => pure ()
  | (name, content) :: rest => do
    let relative ← ExceptT.mk (pure (safePath name))
    let staged := stage.join relative
    ask (.makeDirectories staged.parent)
    ask (.write staged content)
    stageFiles stage rest

/-! ## §2. Moving. -/

/-- The final places of moved files, each with the place where the old file is kept. -/
abbrev Moves := List (Path × Option Path)

/-- A program that keeps a record of its moves, also when it fails. -/
abbrev Moving (m : Type → Type) := ExceptT Fault (StateT Moves m)

/-- A call during which the record is kept. -/
def askMoving {α : Type} (c : FileCall α) : Moving m α := ExceptT.mk (StateT.lift (call c))

/-- Puts aside what stands at a final place, if there is anything. -/
def putAside (stage final relative : Path) : Moving m (Option Path) := do
  match ← askMoving (.look final) with
  | none => return none
  | some _ =>
    let backup := (backups stage).join relative
    askMoving (.makeDirectories backup.parent)
    askMoving (.move final backup)
    return some backup

/-- Moves one file from the stage to its final place. -/
def moveFile (root stage : Path) (name : String) : Moving m Unit := do
  let relative ← ExceptT.mk (pure (safePath name))
  let final := root.join relative
  askMoving (.makeDirectories final.parent)
  let backup ← putAside stage final relative
  -- recorded before the file is moved, so that a failing move is undone as well
  modify (Keyed.put final backup)
  askMoving (.move (stage.join relative) final)

/-- Moves files from the stage to their final places. -/
def moveFiles (root stage : Path) : List String → Moving m Unit
  | [] => pure ()
  | name :: rest => do
    moveFile root stage name
    moveFiles root stage rest

/-! ## §3. Undoing. -/

/-- Undoes one move. -/
def undoMove (move : Path × Option Path) : ExceptT Fault m Unit := do
  if ← present move.1 then ask (.remove move.1)
  match move.2 with
  | none => pure ()
  | some backup => if ← present backup then ask (.move backup move.1)

/-- Undoes moves, the last one first; one that cannot be undone does not stop the others. -/
def undo (moves : Moves) : m Unit :=
  moves.reverse.forM fun move => do let _ ← (undoMove move).run

/-! ## §4. The whole. -/

/-- Stages and moves; gives the outcome and the record of the moves. -/
def transfer (files : Bundle.Files) (root stage : Path) : m (Except Fault Unit × Moves) := do
  match ← (stageFiles stage files).run with
  | .error e => return (.error e, [])
  | .ok _ => ((moveFiles root stage (Keyed.keys files)).run).run []

/-- Whether a failed delivery is undone: one that ended in the file system, or at a name that
leaves the bundle. -/
def isUndone (e : Fault) : Bool := e.isFileFault || e.isOwn

/-- The failure of a delivery. -/
def deliveryFault (root : Path) (e : Fault) : Fault :=
  if e.isFileFault then .deliveryFailed root.toString else e

/-- Makes the directory of a delivery and the stage in it. -/
def prepareStage (root : Path) : ExceptT Fault m Path :=
  orElseFault (.rootUnusable root.toString) do
    ask (.makeDirectories root)
    ask (.makeFreshDirectory root stageStem)

/-- Writes files below a directory as one unit. -/
def writeFolder (files : Bundle.Files) (root : Path) : ExceptT Fault m Path := do
  let stage ← prepareStage root
  let (outcome, moves) ← (transfer files root stage : m _)
  match outcome with
  | .ok _ =>
    -- the old files go with the stage; that it stays behind is no failure
    attempt (.removeTree stage) (m := m)
    return root
  | .error e =>
    if isUndone e then
      undo moves (m := m)
      attempt (.removeTree stage) (m := m)
    throw (deliveryFault root e)

end ControlSurface.Delivery
