/-
  ControlSurface.Markup.Listing
  ─────────────────────────────
  Lists: the path to a place, a tree of items, and a browser of presets.  The items of a tree are an
  outline: paths such as `Folder/Item` gathered into a tree.  The nodes of `ofPaths` are the
  non-empty beginnings of the paths, each once, siblings in the order in which they first appear.
-/
import ControlSurface.Markup.Choice
import ControlSurface.Markup.Node
import ControlSurface.Text.Search

namespace ControlSurface.Markup

/-! ## §1. Trees of labels. -/

/-- A label with what lies under it. -/
inductive Outline where
  | node (label : String) (children : List Outline)
  deriving Inhabited

namespace Outline

/-- The label of a node. -/
def label : Outline → String
  | node l _ => l

/-- What lies under a node. -/
def children : Outline → List Outline
  | node _ ts => ts

/-- Puts a path into an outline. -/
def insert : List String → List Outline → List Outline
  | [], outline => outline
  | l :: path, outline =>
    if outline.any fun t => t.label == l then
      outline.map fun t => if t.label == l then node l (insert path t.children) else t
    else outline ++ [node l (insert path [])]

/-- The labels of a path; nothing between two slashes is no label. -/
def labels (path : String) : List String := (Text.split path "/").filter fun l => l ≠ ""

/-- The outline of some paths. -/
def ofPaths (paths : List String) : List Outline :=
  paths.foldl (fun outline path => insert (labels path) outline) []

/-! ## §2. Markup. -/

mutual
/-- A node of an outline: a folder if something lies under it, else a leaf. -/
def item (expanded : Bool) : Outline → Node
  | node l [] =>
    tag "li" [("role", .text "treeitem"), ("class", .text "tree-leaf")]
      [part "span" "tree-label" [.text l]]
  | node l (t :: ts) =>
    tag "li" [("role", .text "treeitem"), ("class", .text "tree-folder"),
      ("aria-expanded", truthWord expanded)]
      [part "span" "tree-label" [.text l],
       tag "ul" [("role", .text "group"), ("hidden", .bool (!expanded))]
         (item expanded t :: items expanded ts)]

/-- Nodes of an outline. -/
def items (expanded : Bool) : List Outline → List Node
  | [] => []
  | t :: ts => item expanded t :: items expanded ts
end

/-- An outline as nested lists; those inside others are hidden unless it is expanded. -/
def markup (expanded : Bool) (outline : List Outline) : Node :=
  tag "ul" [("role", .text "tree"), ("hidden", .bool false)] (items expanded outline)

end Outline

/-! ## §3. Lists. -/

/-- The string that a value is, where it must be one. -/
def stringOf (v : Value) : Except Fault String :=
  match v with
  | .text s => .ok s
  | _ => .error .noSuchPart

/-- The way to the current place, its steps set apart by a separator. -/
def breadcrumb (e : Element) : Except Fault Fragment := do
  let items ← options e "items"
  let last : Int := (items.length : Int) - 1
  let entries := items.flatMap fun (i, text) =>
    let separator := if i = 0 then [] else
      [tag "li" [("class", .text "breadcrumb-separator"), ("aria-hidden", .text "true")]
        [shown (e.get "separator")]]
    separator ++ [tag "li" [("class", .text "breadcrumb-item"), ("data-index", .int i),
      ("aria-current", if i = last then .text "page" else .null)] [shown text]]
  .ok ⟨"nav", [("aria-label", e.name)], [tag "ol" [] entries]⟩

/-- A preset: the folder before the last slash and the name after it. -/
def presetParts (preset : String) : String × String :=
  match Text.cutAtLast? ['/'] preset.toList with
  | some (folder, name) => (String.ofList folder, String.ofList name)
  | none => ("", preset)

/-- A row of a browser of presets. -/
def presetRow (e : Element) (i : Int) (preset : String) : Node :=
  let (folder, name) := presetParts preset
  let selected := if isAt e "selected_index" i then " is-selected" else ""
  let attributes : Attributes := [("class", .text s!"preset-item{selected}"),
    ("data-index", .int i), ("role", .text "option")]
  if folder ≠ "" && e.flag "show_folders" then
    tag "li" (attributes ++ [("data-folder", .text folder)])
      [part "span" "preset-folder" [.text folder], .text name]
  else tag "li" attributes [.text name]

/-- A browser of presets. -/
def presetBrowser (e : Element) : Except Fault Fragment := do
  let search := if e.flag "show_search" then
      [tag "input" [("type", .text "search"), ("class", .text "preset-search"),
        ("placeholder", .text "Search presets")] []]
    else []
  let rows ← (← options e "presets").mapM fun (i, preset) => do
    .ok (presetRow e i (← stringOf preset))
  let list := tag "ul" [("class", .text "preset-list"), ("role", .text "listbox")] rows
  .ok (box [] (search ++ [list]))

/-- A list. -/
def listing (e : Element) : Except Fault Fragment := do
  match e.kind with
  | .breadcrumb => breadcrumb e
  | .treeView =>
    let paths ← (← (e.get "items").items).mapM stringOf
    .ok (box [] [Outline.markup (e.flag "expanded") (Outline.ofPaths paths)])
  | _ => presetBrowser e

end ControlSurface.Markup
