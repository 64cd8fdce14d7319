/-
  ControlSurface.Path
  ───────────────────
  File paths as text.  A path is a root and the names under it; repeated slashes and single dots
  mean nothing, two dots are kept.
-/
import ControlSurface.Text.Search

namespace ControlSurface

/-- A path: how it begins, and its names. -/
structure Path where
  /-- Empty for a relative path, else one slash, or two where a path begins with exactly two. -/
  root : String
  names : List String
  deriving Repr, DecidableEq, Inhabited

namespace Path

/-! ## §1. Reading and writing. -/

/-- How a path begins. -/
def rootOf (cs : List Char) : String :=
  match cs with
  | '/' :: '/' :: '/' :: _ => "/"
  | '/' :: '/' :: _ => "//"
  | '/' :: _ => "/"
  | _ => ""

/-- Reads a path. -/
def ofString (s : String) : Path :=
  let names := (Text.split s "/").filter fun n => n ≠ "" && n ≠ "."
  ⟨rootOf s.toList, names⟩

/-- The text of a path; a path without anything is a dot. -/
def toString (p : Path) : String :=
  let body := p.root ++ "/".intercalate p.names
  if body = "" then "." else body

/-- Whether a path begins at the root of the file system. -/
def isAbsolute (p : Path) : Bool := p.root ≠ ""

/-- A path that goes on from another one, unless it begins at the root itself. -/
def join (p q : Path) : Path := if q.isAbsolute then q else ⟨p.root, p.names ++ q.names⟩

/-- The path of the directory that a path lies in. -/
def parent (p : Path) : Path := ⟨p.root, p.names.dropLast⟩

/-- A path without the two dots that a name before them makes needless. -/
def collapsed (p : Path) : Path :=
  let step (done : List String) (name : String) : List String :=
    match done with
    -- two dots that nothing is left to take away stay, except at the root
    | last :: rest => if name = ".." && last ≠ ".." then rest else name :: done
    | [] => if name = ".." && p.isAbsolute then [] else [name]
  ⟨p.root, (p.names.foldl step []).reverse⟩

/-! ## §2. The last name. -/

/-- The last name of a path, empty if there is none. -/
def name (p : Path) : String := p.names.getLast?.getD ""

/-- The place of the dot that begins the suffix of a name: the last one, if it is neither at the
start nor at the end. -/
def suffixStart? (name : List Char) : Option Nat :=
  match Text.cutAtLast? ['.'] name with
  | some (before, after) =>
    if before.isEmpty || after.isEmpty then none else some before.length
  | none => none

/-- The suffix of the last name with its dot, empty if there is none. -/
def suffix (p : Path) : String :=
  let cs := p.name.toList
  match suffixStart? cs with
  | some i => String.ofList (cs.drop i)
  | none => ""

/-- The last name without its suffix. -/
def stem (p : Path) : String :=
  let cs := p.name.toList
  match suffixStart? cs with
  | some i => String.ofList (cs.take i)
  | none => p.name

end Path

end ControlSurface
