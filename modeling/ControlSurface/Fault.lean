/-
  ControlSurface.Fault
  ────────────────────
  What can go wrong, as causes.  `Fault.message` words those that a user of the library sees; a
  value of the wrong shape has no wording of its own.
-/

namespace ControlSurface

/-- The cause of a failure. -/
inductive Fault where
  /-- A project names an element kind that is not in the catalog. -/
  | unknownKind (kind elementId : String)
  /-- A table of kinds lacks some of them. -/
  | missingKinds (table : String) (kinds : List String)
  /-- A table of kinds has no row for an element. -/
  | noRow (table elementName kind : String)
  /-- A window was asked for that the project does not have. -/
  | noSuchWindow (windowId : String)
  /-- No window is selected for an export. -/
  | nothingToExport
  /-- No window is selected for a preview. -/
  | nothingToPreview
  /-- Validation found errors; the text lists them. -/
  | exportBlocked (errors : String)
  /-- The text is not well-formed XML. -/
  | malformedSvg
  /-- The document's root element is not an `svg` element. -/
  | notSvg (found : String)
  /-- A bundle file name leaves the bundle. -/
  | outsideBundle (name : String)
  /-- The archive could not be written to its place. -/
  | archiveUnsaved (path : String)
  /-- The target directory cannot be used. -/
  | rootUnusable (root : String)
  /-- Writing the bundle failed and was undone. -/
  | deliveryFailed (root : String)
  /-- A bundle is to go to a directory, and nobody can give one. -/
  | noDirectory
  /-- The browser did not open the preview. -/
  | previewBlocked
  /-- A stylesheet has an opening brace without a closing one, or a rule without a body. -/
  | unbalancedBraces
  /-- A text or number that does not denote what is asked for. -/
  | badValue
  /-- An operation on a value that does not support it. -/
  | wrongType
  /-- A number beyond the range of its target. -/
  | tooLarge
  /-- A part is asked of a value that has no such part. -/
  | noSuchPart
  /-- A position beyond the end of a list. -/
  | noSuchItem
  /-- Division by zero. -/
  | divisionByZero
  /-- Text that is not JSON. -/
  | badJson
  /-- A file or directory is missing. -/
  | fileNotFound
  /-- Something stands where a new file or directory should go. -/
  | fileExists
  /-- A file stands where a directory is needed. -/
  | notADirectory
  /-- A directory stands where a file is needed. -/
  | isADirectory
  /-- A file name that the file system refuses. -/
  | badFileName
  deriving Repr, DecidableEq, Inhabited

namespace Fault

/-- The text shown when a preview window does not open. -/
def blockedText : String :=
  "Popup blocked. Please allow popups for preview."

/-- The wording of a failure, where the library words it. -/
def message? : Fault → Option String
  | unknownKind kind elementId =>
    let place := if elementId = "" then "" else s!" (element {elementId})"
    some s!"Unknown element kind '{kind}'{place}"
  | missingKinds table kinds => some (s!"{table} has no case for: " ++ ", ".intercalate kinds)
  | noRow table elementName kind =>
    some s!"{table} cannot render element '{elementName}' of kind '{kind}'"
  | noSuchWindow windowId => some s!"Window '{windowId}' does not exist in this project"
  | nothingToExport => some "No windows to export (developer windows are excluded)"
  | nothingToPreview => some "No windows to preview"
  | exportBlocked errors => some errors
  | notSvg found => some s!"Expected an <svg> root element, found <{found}>"
  | noDirectory =>
    some "Folder export is unavailable here: no directory access. Use archive delivery instead."
  | outsideBundle name => some s!"Refusing to write outside the bundle: {name}"
  | previewBlocked => some blockedText
  | unbalancedBraces => some "Unbalanced braces in stylesheet"
  | _ => none

/-- The wording of a failure that has none of its own. -/
def plainText : Fault → String
  | malformedSvg => "Invalid SVG"
  | archiveUnsaved path => s!"Could not save archive to {path}"
  | rootUnusable root => s!"Cannot write to {root}"
  | deliveryFailed root => s!"Writing bundle to {root} failed"
  | badValue => "a value that cannot be read"
  | wrongType => "a value of the wrong type"
  | tooLarge => "a number that is too large"
  | noSuchPart => "a value without the part that is asked for"
  | noSuchItem => "a list without the item that is asked for"
  | divisionByZero => "a division by zero"
  | badJson => "text that is not JSON"
  | fileNotFound => "no such file or directory"
  | fileExists => "something is there already"
  | notADirectory => "not a directory"
  | isADirectory => "a directory and not a file"
  | badFileName => "a file name that cannot be used"
  | _ => ""

/-- The wording of a failure. -/
def describe (f : Fault) : String := f.message?.getD f.plainText

/-- Whether a failure is one of the program's own, which its callers report and survive. -/
def isOwn : Fault → Bool
  | unknownKind _ _ | missingKinds _ _ | noRow _ _ _ | noSuchWindow _
  | nothingToExport | nothingToPreview
  | exportBlocked _ | malformedSvg | notSvg _ | outsideBundle _
  | archiveUnsaved _ | rootUnusable _ | deliveryFailed _ | noDirectory
  | previewBlocked => true
  | _ => false

/-- Whether a failure comes from the file system. -/
def isFileFault : Fault → Bool
  | fileNotFound | fileExists | notADirectory | isADirectory | badFileName => true
  | _ => false

/-- Whether a failure is about a value that does not denote what is asked for. -/
def isValueFault : Fault → Bool
  | badValue | badJson | unbalancedBraces => true
  | _ => false

end Fault

end ControlSurface
