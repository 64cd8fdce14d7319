/-
  ControlSurface.CommandLine.Option
  ─────────────────────────────────
  The options of the command line, and how a word of it is read: as an option, in full or
  shortened to a beginning that only one option has, or as a word of its own.
-/
import ControlSurface.Text.Character
import ControlSurface.Text.Search

namespace ControlSurface.CommandLine

open ControlSurface.Text

/-! ## §1. Options. -/

/-- An option of the command line. -/
inductive Flag where
  | help
  | verbose
  | logFile
  | window
  | includeDeveloper
  | delivery
  | target
  | output
  | pickFolder
  | noOptimize
  | noResponsive
  | noScrollbars
  | desktop
  deriving Repr, DecidableEq, Inhabited

namespace Flag

/-- The spellings of an option. -/
def names : Flag → List String
  | help => ["-h", "--help"]
  | verbose => ["-v", "--verbose"]
  | logFile => ["--log-file"]
  | window => ["--window"]
  | includeDeveloper => ["--include-developer"]
  | delivery => ["--delivery"]
  | target => ["--target"]
  | output => ["-o", "--output"]
  | pickFolder => ["--pick-folder"]
  | noOptimize => ["--no-optimize"]
  | noResponsive => ["--no-responsive"]
  | noScrollbars => ["--no-custom-scrollbars"]
  | desktop => ["--qt"]

/-- Whether a value follows an option. -/
def takesValue : Flag → Bool
  | logFile | window | delivery | target | output => true
  | _ => false

/-- The values that an option allows, if it does not allow all. -/
def choices? : Flag → Option (List String)
  | delivery => some ["archive", "folder"]
  | target => some ["host", "standalone"]
  | _ => none

/-- Whether an option allows a value. -/
def allows (f : Flag) (value : String) : Bool :=
  match f.choices? with
  | some values => values.contains value
  | none => true

end Flag

/-- A spelling with its option. -/
abbrev Spelling := String × Flag

/-- All spellings of some options. -/
def spellings (flags : List Flag) : List Spelling :=
  flags.flatMap fun f => f.names.map fun name => (name, f)

/-- The option of a spelling. -/
def spelled? (flags : List Flag) (name : String) : Option Flag :=
  ((spellings flags).find? fun s => s.1 == name).map (·.2)

/-! ## §2. Words. -/

/-- How a word of the command line is read. -/
inductive Word where
  /-- A word of its own. -/
  | plain
  /-- An option, with what stands after it in the same word: its value, or further letters if
  `isCluster`. -/
  | option (f : Flag) (isCluster : Bool) (attached : Option String)
  /-- Something that looks like an option and is none. -/
  | unknown
  /-- A beginning that several options have. -/
  | ambiguous
  deriving Repr, DecidableEq, Inhabited

/-- Whether a word is a number below zero. -/
def isNegativeNumber (cs : List Char) : Bool :=
  match cs with
  | '-' :: rest =>
    let whole := rest.takeWhile isDecimalDigit
    match rest.dropWhile isDecimalDigit with
    | [] => !whole.isEmpty
    | '.' :: part => !part.isEmpty && part.all isDecimalDigit
    | _ => false
  | _ => false

/-- A word before and after its first equals sign. -/
def atEquals (word : String) : String × Option String :=
  match cutAt? ['='] word.toList with
  | some (before, after) => (String.ofList before, some (String.ofList after))
  | none => (word, none)

/-- The options that a word with two hyphens can be short for. -/
def longReadings (flags : List Flag) (word : String) : List Word :=
  let (start, attached) := atEquals word
  ((spellings flags).filter fun s => startsWith start.toList s.1.toList).map fun s =>
    .option s.2 false attached

/-- The options that a word with one hyphen can be: the one of its first letter, the rest being
attached, or one that begins so. -/
def shortReadings (flags : List Flag) (word : String) : List Word :=
  let cs := word.toList
  (spellings flags).filterMap fun s =>
    if s.1.toList = cs.take 2 then some (.option s.2 true (some (String.ofList (cs.drop 2))))
    else if startsWith cs s.1.toList then some (.option s.2 true none)
    else none

/-- How a word that begins with a hyphen, and is no option in full, is read. -/
def readHyphened (flags : List Flag) (word : String) : Word :=
  let readings :=
    if startsWith ['-', '-'] word.toList then longReadings flags word
    else shortReadings flags word
  match readings with
  | [w] => w
  | _ :: _ :: _ => .ambiguous
  | [] =>
    if isNegativeNumber word.toList || word.toList.contains ' ' then .plain else .unknown

/-- How a word is read among some options. -/
def readWord (flags : List Flag) (word : String) : Word :=
  match word.toList with
  | '-' :: _ :: _ =>
    match spelled? flags word with
    | some f => .option f false none
    | none =>
      let (start, attached) := atEquals word
      match attached, spelled? flags start with
      | some _, some f => .option f false attached
      | _, _ => readHyphened flags word
  | _ => .plain

end ControlSurface.CommandLine
