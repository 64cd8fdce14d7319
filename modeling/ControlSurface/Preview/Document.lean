/-
  ControlSurface.Preview.Document
  ───────────────────────────────
  The preview of a project: the page of the window that is asked for or the only one, or one page
  with all windows.  A page is self-contained: the stylesheet of a window, with the fonts in it, and
  its scripts stand in the places of the references to their files.  The page of several windows has
  a tab and a section for each, and every stylesheet is confined to the section of its window.  To
  be shown, the page is written to a file that is not kept, a browser is asked to open it, and the
  file is removed a little later.
-/
import ControlSurface.Bundle.Window
import ControlSurface.Machine.FileSystem
import ControlSurface.Stylesheet.Scope
import ControlSurface.Text.Character

namespace ControlSurface.Preview

open ControlSurface.Bundle
open Markup
open Stylesheet (Rule)

/-! ## §1. Text inside elements. -/

/-- A stylesheet inside an element: no end tag of the element stands in it. -/
def styleText (css : String) : String := Text.replace css "</style" "<\\/style"

/-- A script inside an element: no end tag of the element stands in it. -/
def scriptText (js : String) : String := Text.replace js "</script" "<\\/script"

/-- An element around lines of text. -/
def around (name text : String) : String :=
  Markup.print (Markup.tag name [] [.raw ("\n" ++ text ++ "\n")])

/-- A stylesheet as an element of a page. -/
def inlineStyle (css : String) : String := around "style" (styleText css)

/-- A script as an element of a page. -/
def inlineScript (js : String) : String := around "script" (scriptText js)

/-- A stylesheet in which the URLs of font files hold the files themselves. -/
def inlineFonts (place : String) (fonts : List BundledFont) (css : String) : String :=
  fonts.foldl (fun text f =>
    Text.replace text s!"url('{place}{f.filename}')" s!"url('{f.dataUrl}')") css

/-! ## §2. One window. -/

/-- The references of a page to its files, as they are printed. -/
def referenceText (nodes : List Markup.Node) : List Char := (Markup.printAll nodes).toList

/-- What stands in place of the reference to the component script: a relay, then the script. -/
def componentText (components : String) : String :=
  inlineScript (Script.ofLines Script.mockRelay) ++ "\n  " ++ inlineScript components

/-- The page of a window with its stylesheet and scripts in it.  The references are replaced one
after the other, each where it first stands. -/
def standalone (fonts : List BundledFont) (f : WindowFiles) : String :=
  let refs := Page.Resources.linked
  let css := inlineFonts PageSetting.defaultFontPlace fonts f.stylesheet
  let styled :=
    Text.replaceFirst (referenceText refs.stylesheet) (inlineStyle css).toList f.page.toList
  let equipped :=
    Text.replaceFirst (referenceText refs.components) (componentText f.components).toList styled
  String.ofList
    (Text.replaceFirst (referenceText refs.bindings) (inlineScript f.bindings).toList equipped)

/-! ## §3. The content of a page. -/

/-- How the container of a page begins. -/
def containerStart : List Char := "<div id=\"plugin-container\"".toList

/-- How a box ends. -/
def boxEnd : List Char := "</div>".toList

/-- Text without empty lines around it and without white space at its end. -/
def bare (cs : List Char) : List Char := Text.trimBy (· = '\n') (Text.trimEndBy Text.isBlank cs)

/-- The markup between the start tag of the container of a page and the end tag that belongs to
it, the last but one of all boxes. -/
def content (page : String) : String :=
  let inside := do
    let (_, opened) ← Text.cutAt? containerStart page.toList
    let (_, body) ← Text.cutAt? ['>'] opened
    -- the last box that ends is the wrapper, the one before it the container
    let (upToLast, _) ← Text.cutAtLast? boxEnd body
    let (held, _) ← Text.cutAtLast? boxEnd upToLast
    some held
  String.ofList (bare (inside.getD []))

/-! ## §4. The look of the shell. -/

/-- The rules of the tabs and sections. -/
def shellRules : List Rule :=
  [⟨"html, body", [
     ("margin", ["0"]), ("width", ["100%"]), ("height", ["100%"]), ("overflow", ["hidden"]),
     ("background", ["#111"]), ("font-family", ["system-ui, sans-serif"])]⟩,
   ⟨"#fp-window-tabs", [
     ("position", ["fixed"]), ("top", ["0"]), ("left", ["0"]), ("right", ["0"]),
     ("height", ["32px"]), ("display", ["flex"]), ("gap", ["2px"]), ("padding", ["0 8px"]),
     ("background", ["#1f1f1f"]), ("border-bottom", ["1px solid #333"]), ("z-index", ["1000"])]⟩,
   ⟨".fp-window-tab", [
     ("border", ["none"]), ("background", ["transparent"]), ("color", ["#aaa"]),
     ("padding", ["0 12px"]), ("font-size", ["12px"]), ("cursor", ["pointer"])]⟩,
   ⟨".fp-window-tab.is-active", [
     ("color", ["#fff"]), ("box-shadow", ["inset 0 -2px 0 #3b82f6"])]⟩,
   ⟨".fp-window", [
     ("position", ["fixed"]), ("top", ["33px"]), ("left", ["0"]), ("right", ["0"]),
     ("bottom", ["0"])]⟩,
   ⟨".fp-window[hidden]", [
     ("display", ["none"])]⟩]

/-- The stylesheet of the tabs and sections. -/
def shellSheet : String := "\n".intercalate (shellRules.map Rule.print)

/-! ## §5. The windows. -/

/-- The identity of the section of a window. -/
def sectionId (slug : String) : String := s!"fp-window-{slug}"

/-- The selector of the section of a window. -/
def sectionScope (slug : String) : String := "#" ++ sectionId slug

/-- A window in the page of several. -/
structure Pane where
  window : Window
  slug : String
  /-- The stylesheet, confined to the section. -/
  css : String
  content : String
  bindings : String
  deriving Inhabited

/-- A window with its files as a part of the page. -/
def pane (w : ExportWindow) (f : WindowFiles) : Except Fault Pane := do
  let css := inlineFonts PageSetting.defaultFontPlace w.fonts f.stylesheet
  let confined ← Stylesheet.confined (sectionScope w.slug) css
  .ok { window := w.window, slug := w.slug, css := styleText confined
        content := content f.page, bindings := scriptText f.bindings }

/-! ## §6. The page. -/

/-- Nodes on lines of their own with empty lines around them. -/
def spacedLines (depth : Nat) (items : List (List Node)) : List Node :=
  (items.flatMap fun nodes => .raw ("\n\n" ++ indent depth) :: nodes) ++ [.raw "\n"]

/-- An element whose text begins and ends a line. -/
def textBlock (name : String) (attributes : Attributes) (text : String) : Node :=
  tag name attributes [.raw ("\n" ++ text ++ "\n" ++ indent 1)]

/-- The tab of a window; the first one is active. -/
def tab (place : Int) (p : Pane) : Node :=
  tag "button"
    [("type", .text "button"),
     ("class", .text (if place = 0 then "fp-window-tab is-active" else "fp-window-tab")),
     ("data-window-id", .text p.window.id), ("data-window-slug", .text p.slug)]
    [shown p.window.name]

/-- The section of a window; the first one is shown. -/
def paneSection (place : Int) (p : Pane) : Node :=
  Page.block 1 "section"
    [("id", .text (sectionId p.slug)), ("class", .text "fp-window"),
     ("data-window-id", .text p.window.id), ("hidden", .bool (place ≠ 0))]
    [[wrapper p]]
where
  /-- The box of the window with its markup. -/
  wrapper (p : Pane) : Node := Page.wrapper 2 p.window [.raw p.content]

/-- What stands in the head of the page. -/
def headNodes (title : String) (panes : List Pane) : List Node :=
  Page.lines 1
    (Page.metaNodes
      ++ [[tag "title" [] [.text (title ++ " - Preview")]], [textBlock "style" [] shellSheet]])
    ++ spacedLines 1
      (panes.map fun p => [textBlock "style" [("data-window", .text p.slug)] p.css])

/-- What stands in the body of the page. -/
def bodyNodes (panes : List Pane) (components : String) : List Node :=
  let tabs := spacedLines 2 ((numbered panes).map fun (i, p) => [tab i p])
  let nav := tag "nav" [("id", .text "fp-window-tabs")] (tabs ++ [.raw ("\n" ++ indent 1)])
  Page.lines 1 [[nav]]
    ++ spacedLines 1 ((numbered panes).map fun (i, p) => [paneSection i p])
    ++ Page.lines 1
      [[textBlock "script" [] (Script.ofLines Script.mockRelay)],
       [textBlock "script" [] (scriptText components)]]
    ++ spacedLines 1
      (panes.map fun p => [textBlock "script" [("data-window", .text p.slug)] p.bindings])
    ++ Page.lines 1 [[textBlock "script" [] (Script.ofLines Script.navigationScript)]]

/-- The page of several windows. -/
def shell (title : String) (panes : List Pane) (components : String) : String :=
  printAll (Page.documentOf (headNodes title panes) (bodyNodes panes components))

/-! ## §7. Settings. -/

/-- A preview is never larger than life. -/
def maxScale : Value := .float 1.0

/-- The setting of a window that is shown alone. -/
def aloneSetting (p : Project) (o : ExportOptions) (w : ExportWindow) : PageSetting :=
  { setting p o [] PageSetting.defaultFontPlace w with maxScale := maxScale }

/-- The setting of a window among others: its selectors and inner identifiers are its own. -/
def sharedSetting (p : Project) (o : ExportOptions) (linked : List (String × WindowLink))
    (w : ExportWindow) : PageSetting :=
  { setting p o linked PageSetting.defaultFontPlace w with
    maxScale := maxScale
    rootSelector := s!"{sectionScope w.slug} {PageSetting.containerSelector}"
    domScope := w.slug ++ "__" }

/-! ## §8. The document. -/

/-- A preview with what is reported about it. -/
structure Document where
  html : String
  warnings : List String
  deriving Repr, Inhabited

/-- The page of all windows. -/
def together (p : Project) (o : ExportOptions) (windows : List ExportWindow) :
    Except Fault String := do
  let linked := links true windows
  let made ← windows.mapM fun w => windowFiles (sharedSetting p o linked w) w.elements
  let shared : PageSetting :=
    { PageSetting.ofWindow ((windows.map ExportWindow.window).headD default) with
      customScrollbars := o.customScrollbars }
  let components ← Script.components shared (windows.flatMap ExportWindow.elements)
  let panes ← (windows.zip made).mapM fun (w, f) => pane w f
  .ok (shell p.name.toText panes components)

/-- The preview of the selected windows of a project. -/
def render (p : Project) (o : ExportOptions) (windowId : Option String) :
    Except Fault Document := do
  let selected ← select p o windowId
  if selected.isEmpty then throw .nothingToPreview
  let (prepared, warnings) ← prepare p selected
  let e ← equip p o prepared
  let html ← match e.windows with
    | [w] => do .ok (standalone w.fonts (← windowFiles (aloneSetting p o w) w.elements))
    | ws => together p o ws
  .ok ⟨html, warnings ++ e.warnings⟩

end ControlSurface.Preview

namespace ControlSurface

/-- How a preview ended. -/
inductive PreviewOutcome where
  | shown (url : String) (file : Path) (warnings : List String)
  | failed (cause : Fault) (warnings : List String)
  deriving Inhabited

namespace Preview

variable {m : Type → Type} [Monad m] [FileSystem m] [Desktop m]

/-! ## §9. The file. -/

/-- After how many seconds the file of a preview is removed. -/
def removalDelay : Float := 5.0

/-- How the name of the file of a preview begins. -/
def fileStem : String := "faceplate-preview-"

/-- How the name of the file of a preview ends. -/
def fileSuffix : String := ".html"

/-- The URL of a file. -/
def fileUrl (p : Path) : String :=
  "file://" ++ String.ofList (Text.percentEncoded Text.isPathByte p.toString)

/-! ## §10. Opening. -/

/-- Writes a page to a file and has it opened.  The file is removed later even if no browser opens
it. -/
def present (browser : Browser) (directory : Option Path) (html : String) :
    ExceptT Fault m (String × Path) := do
  let file ← FileSystem.ask (.writeFresh directory fileStem fileSuffix (.text html))
  let url := fileUrl file
  let opened ← ExceptT.mk (Desktop.openPage browser url)
  ExceptT.lift (Desktop.removeLater removalDelay file)
  if opened then return (url, file) else throw .previewBlocked

/-- Shows the preview of the selected windows of a project. -/
def run (p : Project) (o : ExportOptions) (windowId : Option String) (browser : Browser)
    (directory : Option Path) : m PreviewOutcome := do
  match render p o windowId with
  | .error cause => return .failed cause []
  | .ok d =>
    match ← (present browser directory d.html).run with
    | .error cause => return .failed cause d.warnings
    | .ok (url, file) => return .shown url file d.warnings

end Preview

end ControlSurface
