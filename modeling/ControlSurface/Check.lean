/-
  ControlSurface.Check
  ────────────────────
  Checks of the elements of a window before anything is made from them.  Errors stop an export:
  names must be given and different as identifiers, and parents must be present.  Warnings are
  reported: missing parameters, elements without size, and buttons that lead nowhere.
-/
import ControlSurface.Element.Basic
import ControlSurface.Text.Character

namespace ControlSurface.Check

/-! ## §1. Findings. -/

/-- Something that a check found in a field of an element. -/
structure Finding where
  elementId : Value
  elementName : Value
  field : String
  message : String
  deriving Inhabited

/-- What stands for a name that is not given. -/
def unnamed : String := "(unnamed)"

/-- A finding with the name of its element. -/
def Finding.describe (f : Finding) : String :=
  s!"{(f.elementName.orElse (.text unnamed)).toText}: {f.message}"

/-- A finding as an item of a list of errors. -/
def Finding.item (f : Finding) : String := s!"• {f.describe}"

/-- What the checks of some elements found. -/
structure Report where
  errors : List Finding
  warnings : List Finding
  deriving Inhabited

/-- Whether the elements can be exported. -/
def Report.valid (r : Report) : Bool := r.errors.isEmpty

/-- The findings of one report after those of another. -/
def Report.append (r s : Report) : Report := ⟨r.errors ++ s.errors, r.warnings ++ s.warnings⟩

/-- A list of errors as text. -/
def errorText (errors : List Finding) : String :=
  "Please fix these issues before exporting:\n\n" ++ "\n".intercalate (errors.map Finding.item)

/-! ## §2. Checks of one element. -/

/-- Whether a name is given: not absent, and not white space only. -/
def isNamed (e : Element) : Except Fault Bool := do
  .ok (!Text.isBlankString (← e.name.string))

/-- The first element of an identifier among named elements. -/
def holder? (earlier : List Element) (domId : String) : Option Element :=
  earlier.find? fun e =>
    match isNamed e, e.domId with
    | .ok true, .ok d => d == domId
    | _, _ => false

/-- Errors in the name of an element that follows other elements. -/
def nameErrors (earlier : List Element) (e : Element) : Except Fault (List Finding) := do
  if !(← isNamed e) then
    return [⟨e.id, e.name.orElse (.text unnamed), "name",
      "Element name is required for ID generation"⟩]
  let domId ← e.domId
  match holder? earlier domId with
  | none => return []
  | some first =>
    return [⟨e.id, e.name, "name",
      s!"Duplicate element name '{e.name.toText}' collides with '{first.name.toText}' "
        ++ s!"(id {first.id.toText}) as '#{domId}' - IDs must be unique"⟩]

/-- Errors in the parent of an element among all elements. -/
def parentErrors (elements : List Element) (e : Element) : Except Fault (List Finding) := do
  if !e.hasParent then return []
  if !e.parentId.isKey then throw .wrongType
  -- a parent may be the element itself or stand after it
  if elements.any fun p => p.id.same e.parentId then return []
  return [⟨e.id, e.name, "parent_id",
    s!"Parent '{e.parentId.toText}' does not exist in this window"⟩]

/-- Warnings about the parameter of an element. -/
def parameterWarnings (e : Element) : Except Fault (List Finding) := do
  if !e.kind.bindable then return []
  if !Text.isBlankString (← e.string "parameter_id") then return []
  return [⟨e.id, e.name, "parameter_id",
    "No parameter ID set; the element name will be used as the parameter ID"⟩]

/-- Whether a length is zero or less. -/
def isFlat (length : Value) : Except Fault Bool := do
  .ok ((← length.num).le (.int 0))

/-- Warnings about the size of an element. -/
def sizeWarnings (e : Element) : Except Fault (List Finding) := do
  let width := e.get "width"
  let height := e.get "height"
  let found (field : String) : List Finding :=
    [⟨e.id, e.name, field,
      s!"Element has a non-positive size ({width.toText}x{height.toText}) and will not be visible"⟩]
  if ← isFlat width then return found "width"
  if ← isFlat height then return found "height"
  return []

/-- Whether an element is a button that opens a window. -/
def opensWindow (e : Element) : Bool :=
  e.kind = .button && (e.get "action").same (.text "navigate-window")

/-- Warnings about a button that leads to a window that is not known.  Without a list of windows
nothing is checked. -/
def targetWarnings (windows : Option (List String)) (e : Element) :
    Except Fault (List Finding) := do
  match windows with
  | none => return []
  | some ids =>
    if !opensWindow e then return []
    let target := e.get "target_window_id"
    if !target.isKey then throw .wrongType
    if ids.any fun id => target.same (.text id) then return []
    return [⟨e.id, e.name, "target_window_id",
      s!"Navigation target '{target.toText}' is not part of this export"⟩]

/-! ## §3. All elements. -/

/-- Checks an element that follows other elements. -/
def checkElement (windows : Option (List String)) (elements earlier : List Element) (e : Element) :
    Except Fault Report := do
  let names ← nameErrors earlier e
  let parents ← parentErrors elements e
  let parameters ← parameterWarnings e
  let sizes ← sizeWarnings e
  let targets ← targetWarnings windows e
  .ok ⟨names ++ parents, parameters ++ sizes ++ targets⟩

/-- Checks elements, given the ones before them. -/
def checkFrom (windows : Option (List String)) (elements earlier : List Element) :
    List Element → Except Fault Report
  | [] => .ok ⟨[], []⟩
  | e :: rest => do
    let first ← checkElement windows elements earlier e
    let others ← checkFrom windows elements (earlier ++ [e]) rest
    .ok (first.append others)

/-- Checks the elements of a window.  `windows` are the windows that buttons may lead to. -/
def check (windows : Option (List String)) (elements : List Element) : Except Fault Report :=
  if elements.all fun e => e.id.isKey then checkFrom windows elements [] elements
  else .error .wrongType

end ControlSurface.Check
