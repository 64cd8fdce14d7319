/-
  ControlSurface.Machine.Rehearsal
  ────────────────────────────────
  A machine as a value: its disk, what its user would choose and what was asked of it.  Programs
  over `FileSystem` and `Desktop` run on it without any effect outside.  One call on the disk can
  be made to fail, at once or half-way, so what a program does in that case can be seen too.
-/
import ControlSurface.Machine.FileSystem

namespace ControlSurface

/-- Something that was asked of the desktop. -/
inductive Request where
  | directory (start : Value)
  | archive (name : String)
  | page (browser : Browser) (url : String)
  deriving Inhabited

/-- A machine as a value. -/
structure Rehearsal where
  disk : Disk
  /-- How many calls on the disk still go well before one fails; without a number none fails. -/
  failsAfter : Option Nat := none
  /-- What a write that is made to fail leaves in its file, if it comes as far as that. -/
  torn : Content → Option Content := fun _ => none
  /-- How many names of its path a making of directories has come along when it is made to fail. -/
  reached : Nat := 0
  home : Path := ⟨"/", ["home"]⟩
  dataDirectory : Option String := none
  /-- What opening a page gives and does to the disk. -/
  opens : Browser → String → Disk → Except Fault Bool × Disk := fun _ _ d => (.ok true, d)
  directoryChoice : Option Path := none
  archiveChoice : Option Path := none
  /-- What was asked, in order. -/
  asked : List Request := []
  /-- Files that are to be removed, each with the delay in seconds. -/
  removals : List (Float × Path) := []

namespace Rehearsal

/-- The fault of a call that is made to fail. -/
def injected : Fault := .badFileName

/-- The disk after a call that is made to fail.  Of a write a part may stand, and of directories
the first ones; everything else happens as a whole or not at all. -/
def cutShort (r : Rehearsal) : {α : Type} → FileCall α → Disk
  | _, .write p c =>
    match r.torn c with
    | some part => (r.disk.run (.write p part)).2
    | none => r.disk
  | _, .makeDirectories p => (r.disk.makeDirectories ⟨p.root, p.names.take r.reached⟩).2
  | _, _ => r.disk

/-- A call on the disk of a machine. -/
def onDisk {α : Type} (c : FileCall α) (r : Rehearsal) : Except Fault α × Rehearsal :=
  match r.failsAfter with
  | some 0 => (.error injected, { r with disk := r.cutShort c, failsAfter := none })
  | left =>
    let (answer, disk) := r.disk.run c
    (answer, { r with disk := disk, failsAfter := left.map (· - 1) })

/-- Programs that run on a machine that is a value. -/
abbrev Run := StateM Rehearsal

instance : FileSystem Run where
  call c := fun r => onDisk c r

/-- Notes that something was asked. -/
def note (q : Request) (r : Rehearsal) : Rehearsal := { r with asked := r.asked ++ [q] }

instance : Desktop Run where
  workingDirectory := fun r => (⟨"/", r.disk.here⟩, r)
  home := fun r => (r.home, r)
  dataDirectory := fun r => (r.dataDirectory, r)
  openPage browser url := fun r =>
    let (answer, disk) := r.opens browser url r.disk
    (answer, note (.page browser url) { r with disk := disk })
  chooseDirectory start := fun r => (r.directoryChoice, note (.directory start) r)
  chooseArchive name := fun r => (r.archiveChoice, note (.archive name) r)
  removeLater delay p := fun r => ((), { r with removals := r.removals ++ [(delay, p)] })

/-- Removes the files that are to be removed, as far as they can be. -/
def settleRemovals (r : Rehearsal) : Rehearsal :=
  let disk := r.removals.foldl (fun d (_, p) => (d.run (.remove p)).2) r.disk
  { r with disk := disk, removals := [] }

end Rehearsal

end ControlSurface
