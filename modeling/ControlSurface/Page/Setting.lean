/-
  ControlSurface.Page.Setting
  ───────────────────────────
  What the parts of a page need to know of the window that they are made for.
-/
import ControlSurface.Font

namespace ControlSurface

/-- Where a control that opens a window leads. -/
structure WindowLink where
  name : Value
  slug : String
  target : String
  deriving Inhabited

/-- The setting of a page: its window, and how the page is made. -/
structure PageSetting where
  window : Window
  layers : List Layer
  /-- Prepared graphics by the identity of their element. -/
  graphics : List (Value × String)
  fonts : List BundledFont
  /-- Where the font files lie, seen from the stylesheet. -/
  fontPlace : String
  customScrollbars : Bool
  responsive : Bool
  minScale : Value
  maxScale : Value
  /-- Windows that can be opened, by identity. -/
  links : List (String × WindowLink)
  /-- The selector of the element that holds the controls. -/
  rootSelector : String
  title : Value
  /-- What comes before identifiers inside a control; empty in exported pages. -/
  domScope : String
  deriving Inhabited

namespace PageSetting

/-- The place of font files next to a stylesheet. -/
def defaultFontPlace : String := "./fonts/"

/-- The selector of the element that holds the controls of an exported page. -/
def containerSelector : String := "#plugin-container"

/-- The smallest scale of a page that scales. -/
def defaultMinScale : Value := .float 0.25

/-- The largest scale of a page that scales. -/
def defaultMaxScale : Value := .float 2.0

/-- The setting of an exported page of a window, without anything special. -/
def ofWindow (w : Window) : PageSetting :=
  { window := w, layers := [], graphics := [], fonts := [], fontPlace := defaultFontPlace
    customScrollbars := true, responsive := false, minScale := defaultMinScale
    maxScale := defaultMaxScale, links := [], rootSelector := containerSelector
    title := .null, domScope := "" }

/-- The identifier of a part inside a control.  Two underscores never stand in the name of an
element. -/
def subId (s : PageSetting) (domId part : String) : String := s!"{s.domScope}{domId}__{part}"

/-- The prepared graphic of an element, if there is one. -/
def graphic? (s : PageSetting) (id : Value) : Option String := Keyed.find? id s.graphics

end PageSetting

end ControlSurface
