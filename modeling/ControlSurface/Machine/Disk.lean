/-
  ControlSurface.Machine.Disk
  ───────────────────────────
  What a file holds, and a disk as a value.  A place is the list of names that leads to it from the
  root; the disk maps places to directories and files.  Every operation says what it changes and
  when it fails, so a program that works on files can be reasoned about.
-/
import ControlSurface.Fault
import ControlSurface.Keyed
import ControlSurface.Path

namespace ControlSurface

/-- What a file holds: text, or any bytes. -/
inductive Content where
  | text (s : String)
  | bytes (data : List UInt8)
  deriving Repr, DecidableEq, Inhabited

namespace Content

/-- The bytes of a file. -/
def data : Content → List UInt8
  | text s => s.toUTF8.toList
  | bytes data => data

/-- How many bytes a file has. -/
def size : Content → Nat
  | text s => s.utf8ByteSize
  | bytes data => data.length

/-- The text of a file, if its bytes are text. -/
def string : Content → Except Fault String
  | text s => .ok s
  | bytes data => match String.fromUTF8? ⟨data.toArray⟩ with
    | some s => .ok s
    | none => .error .badValue

end Content


/-- What stands at a place of a disk. -/
inductive Item where
  | directory
  | file (content : Content)
  deriving Repr, DecidableEq, Inhabited

/-- What kind of item stands at a path. -/
inductive ItemKind where
  | directory
  | file
  deriving Repr, DecidableEq, Inhabited

/-- The kind of an item. -/
def Item.kind : Item → ItemKind
  | directory => .directory
  | file _ => .file

/-- A place on a disk: the names that lead to it from the root. -/
abbrev Place := List String

/-- A disk, and the directory where relative paths begin. -/
structure Disk where
  entries : List (Place × Item)
  here : Place
  deriving Repr, Inhabited

namespace Disk

/-! ## §1. Places. -/

/-- What stands at a place; the root is a directory. -/
def at? (d : Disk) (p : Place) : Option Item :=
  if p.isEmpty then some .directory else Keyed.find? p d.entries

/-- A disk with something put at a place. -/
def set (d : Disk) (p : Place) (i : Item) : Disk := { d with entries := Keyed.put p i d.entries }

/-- A disk without what stands at some places. -/
def without (d : Disk) (gone : Place → Bool) : Disk :=
  { d with entries := d.entries.filter fun e => !gone e.1 }

/-- The longest name in bytes. -/
def longestName : Nat := 255

/-- The place of a name in a directory; two dots lead to the directory above. -/
def enter (d : Disk) (p : Place) (name : String) : Except Fault Place :=
  match d.at? p with
  | none => .error .fileNotFound
  | some (.file _) => .error .notADirectory
  | some .directory =>
    -- the root is its own parent
    if name = ".." then .ok p.dropLast
    else if longestName < name.utf8ByteSize then .error .badFileName
    else .ok (p ++ [name])

/-- Where a path begins. -/
def start (d : Disk) (p : Path) : Place := if p.isAbsolute then [] else d.here

/-- Whether a path holds the character that ends file names. -/
def hasNul (p : Path) : Bool := p.names.any fun name => name.toList.contains '\x00'

/-- The place that a path leads to; all directories on the way must be there. -/
def place (d : Disk) (p : Path) : Except Fault Place :=
  if hasNul p then .error .badValue else p.names.foldlM d.enter (d.start p)

/-! ## §2. Files. -/

/-- The kind of item at a path, if there is any. -/
def look (d : Disk) (p : Path) : Option ItemKind :=
  match d.place p with
  | .ok q => (d.at? q).map Item.kind
  | .error _ => none

/-- The content of a file. -/
def read (d : Disk) (p : Path) : Except Fault Content := do
  match d.at? (← d.place p) with
  | some (.file c) => .ok c
  | some .directory => .error .isADirectory
  | none => .error .fileNotFound

/-- Writes a file, new or in place of an old one. -/
def write (d : Disk) (p : Path) (c : Content) : Except Fault Disk := do
  let q ← d.place p
  match d.at? q with
  | some .directory => .error .isADirectory
  | _ => .ok (d.set q (.file c))

/-- Removes a file. -/
def remove (d : Disk) (p : Path) : Except Fault Disk := do
  let q ← d.place p
  match d.at? q with
  | some (.file _) => .ok (d.without (· == q))
  | some .directory => .error .isADirectory
  | none => .error .fileNotFound

/-! ## §3. Directories. -/

/-- Makes the directories that names lead to, as far as they are missing. -/
def makeBelow (d : Disk) (p : Place) : List String → Except Fault Unit × Disk
  | [] => (.ok (), d)
  | name :: rest =>
    match d.enter p name with
    | .error e => (.error e, d)
    | .ok q =>
      match d.at? q with
      | some .directory => makeBelow d q rest
      | some (.file _) => (.error (if rest.isEmpty then .fileExists else .notADirectory), d)
      | none => makeBelow (d.set q .directory) q rest

/-- Makes a directory and the ones above it, as far as they are missing. -/
def makeDirectories (d : Disk) (p : Path) : Except Fault Unit × Disk :=
  if hasNul p then (.error .badValue, d) else makeBelow d (d.start p) p.names

/-- Whether a place lies in a directory or is the directory. -/
def liesIn (p q : Place) : Bool := p.isPrefixOf q

/-- Removes a directory with all that is in it. -/
def removeTree (d : Disk) (p : Path) : Except Fault Disk := do
  let q ← d.place p
  match d.at? q with
  | some .directory => .ok (d.without (liesIn q))
  | some (.file _) => .error .notADirectory
  | none => .error .fileNotFound

/-- Whether a directory holds anything. -/
def isUsed (d : Disk) (p : Place) : Bool := d.entries.any fun e => liesIn p e.1 && e.1 ≠ p

/-- A place after what stands at one place was moved to another. -/
def moved (source target p : Place) : Place :=
  if liesIn source p then target ++ p.drop source.length else p

/-- Moves a file or a directory.  A file takes the place of a file, a directory that of an empty
directory. -/
def move (d : Disk) (source target : Path) : Except Fault Disk := do
  let s ← d.place source
  let t ← d.place target
  let done : Disk :=
    { d.without (· == t) with
      entries := (d.without (· == t)).entries.map fun (p, i) => (moved s t p, i) }
  match d.at? s, d.at? t with
  | none, _ => .error .fileNotFound
  | some (.file _), some .directory => .error .isADirectory
  | some (.file _), _ => if s = t then .ok d else .ok done
  | some .directory, some (.file _) => .error .notADirectory
  | some .directory, other =>
    if s = t then .ok d
    -- a directory cannot be moved into itself
    else if liesIn s t then .error .badFileName
    else if other.isSome && d.isUsed t then .error .fileExists
    else .ok done

/-! ## §4. Fresh names. -/

/-- The first of some numbered names in a directory that is free.  Among one more names than there
are entries one is free, which bounds the search. -/
def freeFrom (d : Disk) (p : Place) (name : Nat → String) : Nat → Nat → String
  | 0, count => name count
  | left + 1, count =>
    if (d.at? (p ++ [name count])).isNone then name count
    else freeFrom d p name left (count + 1)

/-- A free name in a directory. -/
def freeName (d : Disk) (p : Place) (stem suffix : String) : String :=
  freeFrom d p (fun count => s!"{stem}{count}{suffix}") d.entries.length 0

/-- The place of a new item in a directory. -/
def freshPath (d : Disk) (parent : Path) (stem suffix : String) : Except Fault Path := do
  let q ← d.place parent
  match d.at? q with
  | some .directory => .ok (parent.join ⟨"", [d.freeName q stem suffix]⟩)
  | some (.file _) => .error .notADirectory
  | none => .error .fileNotFound

/-! ## §5. Views. -/

/-- The text of a place below a directory, with a slash after the name of a directory. -/
def placeText (below : Place) (p : Place) (i : Item) : String :=
  let text := "/".intercalate (p.drop below.length)
  match i with
  | .directory => text ++ "/"
  | .file _ => text

/-- All that lies below a directory, sorted by path; a directory has no content. -/
def listing (d : Disk) (below : Place) : List (String × Option Content) :=
  let inside := d.entries.filter fun e => liesIn below e.1 && e.1 ≠ below
  let named := inside.map fun (p, i) => (placeText below p i,
    match i with
    | .file c => some c
    | .directory => none)
  named.mergeSort fun a b => decide (a.1 ≤ b.1)

/-- A disk that is empty but for the directory where relative paths begin. -/
def empty (here : Place) : Disk :=
  { entries := (List.range here.length).map fun n => (here.take (n + 1), .directory), here := here }

end Disk

end ControlSurface
