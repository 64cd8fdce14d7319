/-
  ControlSurface.CommandLine.Arguments
  ────────────────────────────────────
  The command line as arguments: a command, a project file and options.  Options of the program
  stand before the command, those of a command after it; two hyphens end the options.
-/
import ControlSurface.Bundle.Window
import ControlSurface.CommandLine.Option

namespace ControlSurface.CommandLine

/-! ## §1. Commands. -/

/-- What the program can be asked to do. -/
inductive Command where
  | validate
  | deliver
  | preview
  deriving Repr, DecidableEq, Inhabited

namespace Command

/-- The word for a command. -/
def name : Command → String
  | validate => "validate"
  | deliver => "export"
  | preview => "preview"

/-- The command of a word. -/
def ofName? (word : String) : Option Command :=
  [validate, deliver, preview].find? fun c => c.name == word

/-- The options of a command. -/
def flags : Command → List Flag
  | validate => [.help, .window, .includeDeveloper]
  | deliver =>
    [.help, .window, .includeDeveloper, .delivery, .target, .output, .pickFolder, .noOptimize,
     .noResponsive, .noScrollbars]
  | preview => [.help, .window, .includeDeveloper, .noOptimize, .noResponsive, .desktop]

end Command

/-- The options of the program. -/
def programFlags : List Flag := [.help, .verbose, .logFile]

/-! ## §2. Reading options. -/

/-- Why the reading of a command line ends early. -/
inductive Stop where
  /-- Help is asked for. -/
  | help
  /-- The words are not a command line of the program. -/
  | usage
  deriving Repr, DecidableEq, Inhabited

/-- What was read so far. -/
structure Reading where
  /-- The options with their values, empty where an option takes none. -/
  given : List (Flag × String)
  /-- Whether there was a word that means nothing. -/
  isStray : Bool
  deriving Repr, DecidableEq, Inhabited

/-- A reading of nothing. -/
def Reading.start : Reading := ⟨[], false⟩

/-- A reading with a word that means nothing. -/
def Reading.stray (r : Reading) : Reading := { r with isStray := true }

/-- Takes an option with its value. -/
def Reading.take (r : Reading) (f : Flag) (value : String) : Except Stop Reading :=
  if f = .help then .error .help
  else if f.allows value then .ok { r with given := r.given ++ [(f, value)] }
  else .error .usage

/-- An option in a word that holds several letters, with the value in the word if there is one. -/
abbrev Lettered := Flag × Option String

/-- The options of the letters of a word; `none` if there are letters that cannot be read.  The
second part tells whether the last letters mean nothing. -/
def letters (flags : List Flag) : Flag → List Char → Option (List Lettered × Bool)
  | f, [] => some ([(f, none)], false)
  | f, c :: rest =>
    if f.takesValue then some ([(f, some (String.ofList (c :: rest)))], false)
    else if c = '-' || c = '=' then none
    else
      match spelled? flags (String.ofList ['-', c]) with
      | none => some ([(f, none)], true)
      | some g =>
        match rest with
        | '=' :: value =>
          if g.takesValue then some ([(f, none), (g, some (String.ofList value))], false) else none
        | _ => (letters flags g rest).map fun (more, stray) => ((f, none) :: more, stray)

/-- The options of a word. -/
def lettered (flags : List Flag) (f : Flag) (isCluster : Bool) (attached : Option String) :
    Option (List Lettered × Bool) :=
  match attached with
  | none => some ([(f, none)], false)
  | some text =>
    if isCluster then letters flags f text.toList
    else if f.takesValue then some ([(f, attached)], false) else none

/-- Takes the options of a word.  `next` is the value of the last one if the word has none. -/
def takeAll (r : Reading) (next : String) : List Lettered → Except Stop Reading
  | [] => .ok r
  | (f, value) :: rest => do
    let v := if f.takesValue then value.getD next else ""
    takeAll (← r.take f v) next rest

/-- Whether the last option of a word still needs a value. -/
def needsNext (found : List Lettered) : Bool :=
  found.any fun l => l.1.takesValue && l.2.isNone

/-- Whether a word is read as one of its own among some options. -/
def isPlain (flags : List Flag) (word : String) : Bool :=
  word ≠ "--" && readWord flags word = .plain

/-- Reads options up to the first word of its own, or the end of the options, and gives the words
from there. -/
def readOptions (flags : List Flag) (r : Reading) (words : List String) :
    Except Stop (Reading × List String) :=
  match words with
  | [] => .ok (r, [])
  | w :: rest =>
    if w = "--" then .ok (r, words)
    else
      match readWord flags w with
      | .plain => .ok (r, words)
      | .ambiguous => .error .usage
      | .unknown => readOptions flags r.stray rest
      | .option f isCluster attached =>
        match lettered flags f isCluster attached with
        | none => .error .usage
        | some (found, strayLetters) =>
          let r := if strayLetters then r.stray else r
          if needsNext found then
            match rest with
            | [] => .error .usage
            | value :: rest =>
              if isPlain flags value then do readOptions flags (← takeAll r value found) rest
              else .error .usage
          else do readOptions flags (← takeAll r "" found) rest
termination_by words.length

/-! ## §3. Reading a command line. -/

/-- Words after the options of a command: the project file if it is still missing; others mean
nothing. -/
def takePlain (r : Reading) (file : Option String) : List String → Reading × Option String
  | [] => (r, file)
  | w :: rest =>
    match file with
    | none => (if rest.isEmpty then r else r.stray, some w)
    | some _ => (r.stray, file)

/-- Reads the words after a command.  `bound` bounds the words of their own. -/
def readCommand (flags : List Flag) :
    Nat → Reading → Option String → List String → Except Stop (Reading × Option String)
  | 0, r, file, _ => .ok (r, file)
  | bound + 1, r, file, words => do
    let (r, rest) ← readOptions flags r words
    match rest, file with
    | [], _ => .ok (r, file)
    | "--" :: plain, none => .ok (takePlain r none plain)
    | "--" :: _, some _ => .ok (r.stray, file)
    | w :: "--" :: plain, none => .ok (takePlain r (some w) plain)
    | w :: rest, none => readCommand flags bound r (some w) rest
    | _ :: rest, some _ => readCommand flags bound r.stray file rest

/-- A command line: what to do, with which file and which options. -/
structure Arguments where
  command : Command
  file : String
  given : List (Flag × String)
  deriving Repr, DecidableEq, Inhabited

/-- Words without the first one if that ends the options. -/
def afterEnd : List String → List String
  | "--" :: rest => rest
  | words => words

/-- Reads a command line. -/
def readArguments (words : List String) : Except Stop Arguments := do
  let (r, rest) ← readOptions programFlags .start words
  match afterEnd rest with
  | [] => .error .usage
  | w :: rest =>
    match Command.ofName? w with
    | none => .error .usage
    | some c =>
      let (own, file) ← readCommand c.flags (rest.length + 1) .start none rest
      match file with
      | none => .error .usage
      | some name =>
        if r.isStray || own.isStray then .error .usage else .ok ⟨c, name, r.given ++ own.given⟩

/-! ## §4. Views. -/

namespace Arguments

/-- Whether an option is given. -/
def has (a : Arguments) (f : Flag) : Bool := a.given.any fun g => g.1 = f

/-- The last value of an option. -/
def value? (a : Arguments) (f : Flag) : Option String :=
  (a.given.reverse.find? fun g => g.1 = f).map (·.2)

/-- The path of the project file. -/
def path (a : Arguments) : Path := Path.ofString a.file

/-- Options changed as the command line says. -/
def adjust (a : Arguments) (o : ExportOptions) : ExportOptions :=
  { o with
    developerWindows := o.developerWindows || a.has .includeDeveloper
    optimizeAssets := o.optimizeAssets && !a.has .noOptimize
    responsive := o.responsive && !a.has .noResponsive
    customScrollbars := o.customScrollbars && !a.has .noScrollbars
    delivery := ((a.value? .delivery).bind DeliveryForm.ofName?).getD o.delivery
    target := ((a.value? .target).bind BundleTarget.ofName?).getD o.target }

end Arguments

end ControlSurface.CommandLine
