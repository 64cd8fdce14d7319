/-
  ControlSurface.Page.Document
  ────────────────────────────
  The page of a window as one tree: the head with a link to the stylesheet, the elements inside
  the container, and the scripts after it.  A page that carries its stylesheet and scripts itself
  is the same tree with other nodes in those three places.
-/
import ControlSurface.Markup.Element

namespace ControlSurface.Page

open Markup

/-! ## §1. The places of stylesheet and scripts. -/

/-- What stands in a page for its stylesheet and its two scripts. -/
structure Resources where
  stylesheet : List Node
  components : List Node
  bindings : List Node
  deriving Inhabited

/-- The reference to a stylesheet. -/
def stylesheetLink : Node :=
  tag "link" [("rel", .text "stylesheet"), ("href", .text "style.css")] []

/-- The reference to a script. -/
def scriptLink (file : String) : Node := tag "script" [("src", .text file)] []

/-- The files that lie beside an exported page. -/
def Resources.linked : Resources :=
  { stylesheet := [stylesheetLink]
    components := [scriptLink "components.js"]
    bindings := [scriptLink "bindings.js"] }

/-! ## §2. The page. -/

/-- Nodes on lines of their own at a depth. -/
def lines (depth : Nat) (items : List (List Node)) : List Node :=
  items.flatMap fun nodes => .raw ("\n" ++ indent depth) :: nodes

/-- What every page begins with. -/
def doctype : Node := .raw "<!DOCTYPE html>\n"

/-- What a page says of itself before its title. -/
def metaNodes : List (List Node) :=
  [[tag "meta" [("charset", .text "UTF-8")] []],
   [tag "meta" [("name", .text "viewport"),
     ("content", .text "width=device-width, initial-scale=1.0")] []]]

/-- An element with other nodes inside it, one a line. -/
def block (depth : Nat) (name : String) (attributes : Attributes) (items : List (List Node)) :
    Node :=
  tag name attributes (lines (depth + 1) items ++ [.raw ("\n" ++ indent depth)])

/-- The element whose box the elements of a window lie in. -/
def containerAttributes (w : Window) : Attributes :=
  [("id", .text "plugin-container"), ("data-window-id", .text w.id),
   ("data-window-name", .text w.name.toText)]

/-- The box of a window with what it holds, at a depth. -/
def wrapper (depth : Nat) (w : Window) (content : List Node) : Node :=
  let inner := "\n" ++ indent (depth + 1)
  block depth "div" [("id", .text "plugin-wrapper")]
    [[tag "div" (containerAttributes w) (.raw "\n" :: content ++ [.raw inner])]]

/-- A whole document of a head and a body, each beginning with a new line. -/
def documentOf (head body : List Node) : List Node :=
  let newline : Node := .raw "\n"
  [doctype,
   tag "html" [("lang", .text "en")]
    [newline, tag "head" [] (head ++ [newline]),
      newline, tag "body" [] (body ++ [newline]), newline],
   newline]

/-- The page of a window around the nodes of its elements. -/
def around (s : PageSetting) (r : Resources) (content : List Node) : List Node :=
  let title := tag "title" [] [shown (s.title.orElse s.window.name)]
  documentOf (lines 1 (metaNodes ++ [[title], r.stylesheet]))
    (lines 1 [[wrapper 1 s.window content], r.components, r.bindings])

/-- The exported page of a window. -/
def render (s : PageSetting) (elements : List Element) : Except Fault String := do
  .ok (printAll (around s .linked (← elementNodes s elements pageDepth)))

end ControlSurface.Page
