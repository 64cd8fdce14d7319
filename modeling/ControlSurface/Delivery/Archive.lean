/-
  ControlSurface.Delivery.Archive
  ───────────────────────────────
  A bundle as one archive.  Only names that stay inside the bundle are let in; every entry has the
  same date and permissions, so equal bundles give equal archives.  As bytes an archive is a header
  and the data for each entry, deflated into blocks that hold them as they are, and then the
  directory of all entries.
-/
import ControlSurface.Bundle.Files
import ControlSurface.Machine.FileSystem

namespace ControlSurface.Delivery

/-! ## §1. Names. -/

/-- The path of a bundle file below the place where the bundle is put. -/
def safePath (name : String) : Except Fault Path :=
  let p := Path.ofString name
  if p.isAbsolute || p.names.contains ".." || p.names.isEmpty then .error (.outsideBundle name)
  else .ok p

/-! ## §2. Entries. -/

/-- A date and a time to the second. -/
structure TimeStamp where
  year : Nat
  month : Nat
  day : Nat
  hour : Nat
  minute : Nat
  second : Nat
  deriving Repr, DecidableEq, Inhabited

/-- A file in an archive. -/
structure Entry where
  name : String
  content : Content
  deriving Repr, DecidableEq, Inhabited

namespace Entry

/-- The date of every entry: the earliest that an archive can hold. -/
def stamp : TimeStamp := ⟨1980, 1, 1, 0, 0, 0⟩

/-- The permissions of every entry: all may read, the owner may write. -/
def mode : Nat := 0o644

/-- Whether entries are compressed. -/
def isDeflated : Bool := true

/-- The most bytes of a name: headers tell its length in two bytes. -/
def nameLimit : Nat := 65535

end Entry

/-- The files of an archive in order. -/
abbrev Archive := List Entry

/-- Text up to its first character that ends file names. -/
def beforeNul (s : String) : String :=
  String.ofList (s.toList.takeWhile fun c => c ≠ '\x00')

/-- The entry of a file with its path; a name that no header can hold is refused. -/
def pack (path : Path) (content : Content) : Except Fault Entry :=
  let name := beforeNul path.toString
  if Entry.nameLimit < name.utf8ByteSize then .error .tooLarge else .ok ⟨name, content⟩

/-- The archive of a bundle. -/
def archive (files : Bundle.Files) : Except Fault Archive :=
  files.mapM fun (name, content) => do pack (← safePath name) content

/-! ## §3. Saving. -/

variable {m : Type → Type} [Monad m] [FileSystem m]

/-- The path of an archive file: with the suffix of archives.  A path without a name cannot get
one. -/
def archivePath (p : Path) : Except Fault Path :=
  if Text.lower p.suffix.toList = ".zip".toList then .ok p
  else if p.names.isEmpty then .error .badValue
  else .ok (p.parent.join ⟨"", [p.name ++ ".zip"]⟩)

/-- The failure of a delivery that file faults are turned into. -/
def orElseFault {α : Type} (cause : Fault) (act : ExceptT Fault m α) : ExceptT Fault m α :=
  tryCatch act fun e => throw (if e.isFileFault then cause else e)

/-- Saves the bytes of an archive, and makes the directories above. -/
def saveArchive (data : Content) (p : Path) : ExceptT Fault m Path := do
  let target ← ExceptT.mk (pure (archivePath p))
  orElseFault (.archiveUnsaved target.toString) do
    FileSystem.ask (.makeDirectories target.parent)
    FileSystem.ask (.write target data)
  return target

end ControlSurface.Delivery

namespace ControlSurface.Delivery.Zip

/-! ## §4. Numbers. -/

/-- The lowest bytes of a number, the lowest first. -/
def littleEndian : Nat → Nat → List UInt8
  | 0, _ => []
  | count + 1, n => n.toUInt8 :: littleEndian count (n / 256)

/-- Two bytes. -/
def short (n : Nat) : List UInt8 := littleEndian 2 n

/-- Four bytes. -/
def long (n : Nat) : List UInt8 := littleEndian 4 n

/-! ## §5. Checksum. -/

/-- The divisor of the checksum, its bits reversed. -/
def divisor : UInt32 := 0xEDB88320

/-- One bit of the checksum. -/
def shiftBit (c : UInt32) : UInt32 := if c &&& 1 = 1 then (c >>> 1) ^^^ divisor else c >>> 1

/-- The checksum after one more byte. -/
def checkByte (c : UInt32) (b : UInt8) : UInt32 :=
  let x := c ^^^ b.toUInt32
  shiftBit (shiftBit (shiftBit (shiftBit (shiftBit (shiftBit (shiftBit (shiftBit x)))))))

/-- The cyclic checksum of bytes. -/
def checksum (data : List UInt8) : UInt32 := (data.foldl checkByte 0xFFFFFFFF) ^^^ 0xFFFFFFFF

/-! ## §6. Deflated data. -/

/-- The most bytes that one block holds. -/
def blockSize : Nat := 65535

/-- A block that holds bytes as they are. -/
def block (isLast : Bool) (data : List UInt8) : List UInt8 :=
  (if isLast then 1 else 0) :: short data.length ++ short (blockSize - data.length) ++ data

/-- Data as blocks.  `count` bounds the blocks that are still to come. -/
def blocks : Nat → List UInt8 → List UInt8
  | 0, data => block true data
  | count + 1, data =>
    let rest := data.drop blockSize
    -- only the last block is marked, also where the data fill it exactly
    if rest.isEmpty then block true data
    else block false (data.take blockSize) ++ blocks count rest

/-- Data in deflated form. -/
def deflated (data : List UInt8) : List UInt8 := blocks (data.length / blockSize) data

/-! ## §7. The archive. -/

/-- The time of an entry in the form of archives. -/
def timeField (t : TimeStamp) : Nat := t.hour * 2048 + t.minute * 32 + t.second / 2

/-- The date of an entry in the form of archives. -/
def dateField (t : TimeStamp) : Nat := (t.year - 1980) * 512 + t.month * 32 + t.day

/-- An entry with what its headers tell. -/
structure Part where
  name : List UInt8
  isAscii : Bool
  crc : Nat
  size : Nat
  packed : List UInt8
  deriving Inhabited

/-- The part of an entry. -/
def part (e : Entry) : Part :=
  let data := e.content.data
  { name := e.name.toUTF8.toList, isAscii := e.name.toList.all fun c => c.toNat < 128
    crc := (checksum data).toNat, size := data.length, packed := deflated data }

/-- What both headers of a part tell: version, flags, method, time, checksum and sizes. -/
def common (p : Part) : List UInt8 :=
  short 20 ++ short (if p.isAscii then 0 else 0x800) ++ short 8
    ++ short (timeField Entry.stamp) ++ short (dateField Entry.stamp)
    ++ long p.crc ++ long p.packed.length ++ long p.size ++ short p.name.length

/-- A part with the header before it. -/
def localRecord (p : Part) : List UInt8 :=
  long 0x04034B50 ++ common p ++ short 0 ++ p.name ++ p.packed

/-- The entry of a part in the directory. -/
def directoryRecord (offset : Nat) (p : Part) : List UInt8 :=
  long 0x02014B50 ++ short 0x0314 ++ common p ++ short 0 ++ short 0 ++ short 0 ++ short 0
    ++ long (Entry.mode * 65536) ++ long offset ++ p.name

/-- The directory records of parts that begin at an offset. -/
def directoryRecords (offset : Nat) : List Part → List UInt8
  | [] => []
  | p :: rest =>
    directoryRecord offset p ++ directoryRecords (offset + (localRecord p).length) rest

/-- The bytes of an archive. -/
def encode (a : Archive) : List UInt8 :=
  let parts := a.map part
  let body := parts.flatMap localRecord
  let directory := directoryRecords 0 parts
  body ++ directory ++ long 0x06054B50 ++ short 0 ++ short 0 ++ short parts.length
    ++ short parts.length ++ long directory.length ++ long body.length ++ short 0

end ControlSurface.Delivery.Zip
