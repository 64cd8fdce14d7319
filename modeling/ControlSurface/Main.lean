/-
  ControlSurface.Main
  ───────────────────
  The program on a real machine.  Here alone is anything done outside: every call of
  `FileSystem` and `Desktop` is carried out, and the outcome of the run is printed.
-/
import ControlSurface.CommandLine.Run

namespace ControlSurface

/-! ## §1. Files. -/

/-- Programs that run on a real machine; they keep the files that are to be removed later. -/
abbrev Live := StateT (List (Float × Path)) IO

/-- The failure that an error of the machine stands for. -/
def faultOf : IO.Error → Fault
  | .noFileOrDirectory _ _ _ => .fileNotFound
  | .alreadyExists _ _ _ => .fileExists
  | .inappropriateType _ _ _ => .notADirectory
  | _ => .badFileName

/-- An action whose error is a failure. -/
def guarded {α : Type} (act : IO α) : Live (Except Fault α) := do
  try return .ok (← act) catch e => return .error (faultOf e)

/-- The kind of item at a path, if there is any. -/
def kindAt (p : Path) : IO (Option ItemKind) := do
  try
    let real ← IO.FS.realPath p.toString
    if ← real.isDir then return some .directory
    if ← real.pathExists then return some .file
    return none
  catch _ => return none

/-- The content of a file. -/
def readContent (p : Path) : IO Content := do
  let data ← IO.FS.readBinFile p.toString
  match String.fromUTF8? data with
  | some s => return .text s
  | none => return .bytes data.toList

/-- Writes the content of a file. -/
def writeContent (p : Path) (c : Content) : IO Unit :=
  match c with
  | .text s => IO.FS.writeFile p.toString s
  | .bytes data => IO.FS.writeBinFile p.toString ⟨data.toArray⟩

/-- How many names are tried for something new. -/
def attempts : Nat := 100

/-- Makes something of a new name; a name that is taken is followed by another one. -/
def withFreshName (parent : Path) (stem suffix : String) (make : Path → IO Unit) :
    Nat → IO Path
  | 0 => throw (.userError "no free name")
  | left + 1 => do
    let p := parent.join ⟨"", [s!"{stem}{← IO.rand 0 999999999}{suffix}"]⟩
    if (← kindAt p).isSome then withFreshName parent stem suffix make left
    else
      make p
      return p

/-- The directory for files that are not kept. -/
def scratchDirectory : IO Path := do
  return Path.ofString ((← IO.getEnv "TMPDIR").getD Disk.scratch.toString)

/-- Carries out a call. -/
def perform {α : Type} : FileCall α → IO α
  | .look p => kindAt p
  | .read p => readContent p
  | .write p c => writeContent p c
  | .makeDirectories p => IO.FS.createDirAll p.toString
  | .makeFreshDirectory parent stem =>
    withFreshName parent stem "" (fun p => IO.FS.createDir p.toString) attempts
  | .writeFresh parent stem suffix c => do
    let place ← match parent with
      | some p => pure p
      | none => scratchDirectory
    withFreshName place stem suffix (fun p => writeContent p c) attempts
  | .move source target => IO.FS.rename source.toString target.toString
  | .remove p => IO.FS.removeFile p.toString
  | .removeTree p => IO.FS.removeDirAll p.toString

instance : FileSystem Live where
  call c := guarded (perform c)

/-! ## §2. The desktop. -/

/-- The environment variable that names the directory for the data of this program. -/
def dataVariable : String := "FACEPLATE_HOME"

/-- Asks the user for a path on the console; an empty answer is none. -/
def askPath (question : String) : IO (Option Path) := do
  (← IO.getStderr).putStrLn question
  let answer := Text.trimmed (← (← IO.getStdin).getLine)
  return if answer = "" then none else some (Path.ofString answer)

instance : Desktop Live where
  workingDirectory := do return Path.ofString (← IO.currentDir).toString
  home := do return Path.ofString ((← IO.getEnv "HOME").getD "/")
  dataDirectory := IO.getEnv dataVariable
  openPage _ url := do
    (← IO.getStderr).putStrLn s!"Open {url} in a browser."
    return .ok true
  chooseDirectory start := askPath s!"Directory for the bundle (last: {start.toText})?"
  chooseArchive name := askPath s!"File for the archive ({name})?"
  removeLater delay p := modify (· ++ [(delay, p)])

/-! ## §3. The program. -/

/-- How the program is called. -/
def usageText : String :=
  "usage: faceplate [-h] [-v] [--log-file FILE] validate|export|preview SNAPSHOT [options]"

/-- Prints an outcome. -/
def report : CommandLine.Outcome → IO Unit
  | .usage => do (← IO.getStderr).putStrLn usageText
  | .help => IO.println usageText
  | .finished _ lines complaint => do
    lines.forM IO.println
    match complaint with
    | some c => (← IO.getStderr).putStrLn c.text
    | none => pure ()

/-- Waits and removes the files that are to be removed. -/
def removeFiles (removals : List (Float × Path)) : IO Unit :=
  removals.forM fun (delay, p) => do
    IO.sleep (delay * 1000).toUInt32
    try IO.FS.removeFile p.toString catch _ => pure ()

end ControlSurface

open ControlSurface in
/-- The program. -/
def main (words : List String) : IO UInt32 := do
  let program : ExceptT Fault Live CommandLine.Outcome := CommandLine.run words
  let (outcome, removals) ← program.run.run []
  match outcome with
  | .ok outcome =>
    report outcome
    removeFiles removals
    return outcome.code.toUInt32
  | .error cause =>
    (← IO.getStderr).putStrLn cause.describe
    return CommandLine.failedCode.toUInt32
