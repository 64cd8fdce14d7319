/-
  ControlSurface.Proofs.Preview.Inlining
  ──────────────────────────────────────
  Stylesheets and scripts inside a preview.  Each of them is the text of an element, which a page
  ends at the first end tag of its name, in any case.  None of them holds one exactly when no
  stylesheet of a window and no name of a window holds one that is not written in lower case
  (`inlined_closed_iff`); the escaping sees to the others, and the rest of the scripts holds none.
-/
import ControlSurface.Proofs.Bundle.Keeping
import ControlSurface.Proofs.Preview.Stages
import ControlSurface.Proofs.Script.EndTags
import ControlSurface.Stylesheet.Rule

namespace ControlSurface.Stylesheet

/-! ## §1. The characters of a stylesheet. -/

/-- The characters of a declaration. -/
def declarationChars : Declaration → List Char
  | (property, [value]) =>
    "  ".toList ++ property.toList ++ ": ".toList ++ value.toList ++ ";".toList
  | (property, values) =>
    "  ".toList ++ property.toList ++ ":\n    ".toList
      ++ ",\n    ".toList.intercalate (values.map String.toList) ++ ";".toList

/-- The characters of a rule. -/
def ruleChars (r : Rule) : List Char :=
  r.selector.toList ++ " \x7b\n".toList
    ++ "\n".toList.intercalate (r.declarations.map declarationChars) ++ "\n\x7d".toList

/-- The characters of a section. -/
def sectionChars (s : Section) : List Char :=
  "/* ".toList ++ s.title.toList ++ " */\n".toList
    ++ emptyLine.toList.intercalate (s.rules.map ruleChars)

/-- The characters of sections, one after the other. -/
def sheetChars (sections : List Section) : List Char :=
  emptyLine.toList.intercalate (sections.map sectionChars)

theorem toList_printDeclaration (d : Declaration) :
    (printDeclaration d).toList = declarationChars d := by
  unfold printDeclaration declarationChars
  split
  · simp only [String.toList_append, toString]
  · simp only [String.toList_append, String.toList_intercalate, toString]

/-- The text of things that are spelled out one by one, with the same text between them. -/
theorem toList_intercalate_map {α : Type} {text : α → String} {chars : α → List Char}
    (h : ∀ a, (text a).toList = chars a) (separator : String) (items : List α) :
    (separator.intercalate (items.map text)).toList
      = separator.toList.intercalate (items.map chars) := by
  rw [String.toList_intercalate, List.map_map]
  exact congrArg _ (List.map_congr_left fun a _ => h a)

theorem toList_print (r : Rule) : r.print.toList = ruleChars r := by
  unfold Rule.print ruleChars
  rw [String.toList_append, String.toList_append, String.toList_append,
    toList_intercalate_map toList_printDeclaration]

theorem toList_printSection (s : Section) : s.print.toList = sectionChars s := by
  unfold Section.print sectionChars
  rw [String.toList_append, toList_intercalate_map toList_print]
  simp only [String.toList_append, toString]

/-- **The characters of a printed stylesheet.** -/
theorem toList_printSections (sections : List Section) :
    (printSections sections).toList = sheetChars sections :=
  toList_intercalate_map toList_printSection emptyLine sections

/-- The texts that a rule is made of. -/
def ruleTexts (r : Rule) : List String :=
  r.selector :: r.declarations.flatMap fun d => d.1 :: d.2

/-- The texts that a section is made of. -/
def sectionTexts (s : Section) : List String := s.title :: s.rules.flatMap ruleTexts

theorem not_mem_intercalate {c : Char} {separator : List Char} {pieces : List (List Char)}
    (hseparator : c ∉ separator) (h : ∀ p ∈ pieces, c ∉ p) : c ∉ separator.intercalate pieces :=
  fun hc => Text.of_mem_joinWith (P := fun d => d ≠ c)
    (fun _ hd => ne_of_mem_of_not_mem hd hseparator)
    (fun p hp _ hd => ne_of_mem_of_not_mem hd (h p hp)) c hc rfl

theorem not_mem_declarationChars {d : Declaration} (h : ∀ t ∈ d.1 :: d.2, '<' ∉ t.toList) :
    '<' ∉ declarationChars d := by
  unfold declarationChars
  split
  next property value =>
    have hproperty := h property (by simp)
    have hvalue := h value (by simp)
    simp [hproperty, hvalue]
  next property values _ =>
    have hproperty := h property (by simp)
    have hvalues : '<' ∉ ",\n    ".toList.intercalate (values.map String.toList) :=
      not_mem_intercalate (by decide) fun p hp => by
        obtain ⟨value, hvalue, rfl⟩ := List.mem_map.mp hp
        exact h value (List.mem_cons_of_mem _ hvalue)
    simpa [hproperty] using hvalues

theorem not_mem_ruleChars {r : Rule} (h : ∀ t ∈ ruleTexts r, '<' ∉ t.toList) :
    '<' ∉ ruleChars r := by
  have hselector := h r.selector (List.mem_cons_self ..)
  have hdeclarations : '<' ∉ "\n".toList.intercalate (r.declarations.map declarationChars) :=
    not_mem_intercalate (by decide) fun p hp => by
      obtain ⟨d, hd, rfl⟩ := List.mem_map.mp hp
      exact not_mem_declarationChars fun t ht =>
        h t (List.mem_cons_of_mem _ (List.mem_flatMap.mpr ⟨d, hd, ht⟩))
  simpa [ruleChars, hselector] using hdeclarations

theorem not_mem_sectionChars {s : Section} (h : ∀ t ∈ sectionTexts s, '<' ∉ t.toList) :
    '<' ∉ sectionChars s := by
  have htitle := h s.title (List.mem_cons_self ..)
  have hrules : '<' ∉ emptyLine.toList.intercalate (s.rules.map ruleChars) :=
    not_mem_intercalate (by decide) fun p hp => by
      obtain ⟨r, hr, rfl⟩ := List.mem_map.mp hp
      exact not_mem_ruleChars fun t ht =>
        h t (List.mem_cons_of_mem _ (List.mem_flatMap.mpr ⟨r, hr, ht⟩))
  simpa [sectionChars, htitle] using hrules

/-- No tag stands in a stylesheet that has none in its texts. -/
theorem not_mem_sheetChars {sections : List Section}
    (h : ∀ t ∈ sections.flatMap sectionTexts, '<' ∉ t.toList) : '<' ∉ sheetChars sections :=
  not_mem_intercalate (by decide) fun p hp => by
    obtain ⟨s, hs, rfl⟩ := List.mem_map.mp hp
    exact not_mem_sectionChars fun t ht => h t (List.mem_flatMap.mpr ⟨s, hs, ht⟩)

/-- A stylesheet is the characters of its sections on lines of their own. -/
theorem exists_render {s : PageSetting} {elements : List Element} {found : List Section}
    (h : sections s elements = .ok found) :
    ∃ css, render s elements = .ok css ∧ css.toList = sheetChars found ++ ['\n'] := by
  refine ⟨printSections found ++ "\n", by rw [render, h, Outcome.ok_bind], ?_⟩
  rw [String.toList_append, toList_printSections]
  rfl

end ControlSurface.Stylesheet

namespace ControlSurface.Markup

/-! ## §2. The texts of elements. -/

mutual
/-- The texts of the elements of a name in a piece of markup. -/
def Node.textsOf (name : String) : Node → List String
  | .text _ => []
  | .raw _ => []
  | .element tag _ body => if tag = name then [printAll body] else allTextsOf name body

/-- The texts of the elements of a name in pieces of markup. -/
def allTextsOf (name : String) : List Node → List String
  | [] => []
  | n :: rest => n.textsOf name ++ allTextsOf name rest
end

section Texts

variable (name : String)

@[simp] theorem allTextsOf_nil : allTextsOf name [] = [] := by rw [allTextsOf]

@[simp] theorem allTextsOf_cons (n : Node) (ns : List Node) :
    allTextsOf name (n :: ns) = n.textsOf name ++ allTextsOf name ns := by rw [allTextsOf]

@[simp] theorem textsOf_text (s : String) : (Node.text s).textsOf name = [] := by rw [Node.textsOf]

@[simp] theorem textsOf_raw (s : String) : (Node.raw s).textsOf name = [] := by rw [Node.textsOf]

@[simp] theorem textsOf_tag (tagName : String) (attributes : Attributes) (body : List Node) :
    (tag tagName attributes body).textsOf name
      = if tagName = name then [printAll body] else allTextsOf name body := by
  rw [tag, Node.textsOf]

@[simp] theorem allTextsOf_append (ns ms : List Node) :
    allTextsOf name (ns ++ ms) = allTextsOf name ns ++ allTextsOf name ms := by
  induction ns with
  | nil => simp
  | cons n ns ih => simp [ih]

@[simp] theorem allTextsOf_lines (depth : Nat) (items : List (List Node)) :
    allTextsOf name (Page.lines depth items) = items.flatMap (allTextsOf name) := by
  induction items with
  | nil => exact allTextsOf_nil name
  | cons nodes items ih =>
    have hcons : Page.lines depth (nodes :: items)
        = .raw ("\n" ++ indent depth) :: (nodes ++ Page.lines depth items) := rfl
    rw [hcons, allTextsOf_cons, allTextsOf_append, ih]
    simp

@[simp] theorem allTextsOf_spacedLines (depth : Nat) (items : List (List Node)) :
    allTextsOf name (Preview.spacedLines depth items) = items.flatMap (allTextsOf name) := by
  rw [Preview.spacedLines, allTextsOf_append]
  induction items with
  | nil => simp
  | cons nodes items ih =>
    rw [List.flatMap_cons, List.flatMap_cons, List.cons_append, allTextsOf_cons, allTextsOf_append,
      List.append_assoc, List.append_assoc, ih]
    simp

end Texts

end ControlSurface.Markup

namespace ControlSurface.Preview

open ControlSurface.Bundle ControlSurface.Markup ControlSurface.Outcome ControlSurface.Text

/-! ## §3. What carries stylesheets and scripts. -/

/-- A text on lines of its own. -/
def framed (after text : String) : String := "\n" ++ text ++ "\n" ++ after

/-- An element that carries a text. -/
def carrier (name text : String) : Node := tag name [] [.raw ("\n" ++ text ++ "\n")]

/-- What stands in the preview of one window in the places of the references of its page. -/
def carriers (w : ExportWindow) (f : WindowFiles) : Page.Resources where
  stylesheet := [carrier "style" (styleText (sheetOf w f))]
  components := [carrier "script" (scriptText (Script.ofLines Script.mockRelay)), .raw "\n  ",
    carrier "script" (scriptText f.components)]
  bindings := [carrier "script" (scriptText f.bindings)]

/-- A page with nodes put into the places of its references. -/
def placed (r : Page.Resources) (page : String) : String :=
  let refs := Page.Resources.linked
  let styled :=
    replaceFirst (referenceText refs.stylesheet) (referenceText r.stylesheet) page.toList
  let equipped :=
    replaceFirst (referenceText refs.components) (referenceText r.components) styled
  String.ofList (replaceFirst (referenceText refs.bindings) (referenceText r.bindings) equipped)

theorem referenceText_singleton (n : Node) : referenceText [n] = (Markup.print n).toList := by
  rw [referenceText, Markup.printAll, Markup.printAll, String.append_empty]

theorem print_carrier (name text : String) :
    Markup.print (carrier name text) = Preview.around name text := rfl

theorem referenceText_components (w : ExportWindow) (f : WindowFiles) :
    referenceText (carriers w f).components = (componentText f.components).toList := by
  unfold carriers referenceText componentText inlineScript
  simp only [Markup.printAll, print_carrier, String.append_empty, Markup.print,
    String.append_assoc]

/-- The preview of one window is its page with its carriers. -/
theorem standalone_eq (w : ExportWindow) (f : WindowFiles) :
    standalone w.fonts f = placed (carriers w f) f.page := by
  have hstylesheet : referenceText (carriers w f).stylesheet
      = (inlineStyle (sheetOf w f)).toList := referenceText_singleton _
  have hbindings : referenceText (carriers w f).bindings = (inlineScript f.bindings).toList :=
    referenceText_singleton _
  unfold placed standalone
  rw [referenceText_components, hstylesheet, hbindings]
  rfl

/-- A preview, with the nodes that carry its stylesheets and scripts, and its stylesheets before
anything in them was escaped. -/
structure View where
  html : String
  nodes : List Node
  sheets : List String

/-- The preview of one window. -/
def aloneView (w : ExportWindow) (f : WindowFiles) : View :=
  let r := carriers w f
  { html := placed r f.page
    nodes := r.stylesheet ++ r.components ++ r.bindings
    sheets := [sheetOf w f] }

/-- The preview of several windows. -/
def togetherView (p : Project) (panes : List Pane) (components : String) (sheets : List String) :
    View :=
  let nodes := Page.documentOf (headNodes p.name.toText panes) (bodyNodes panes components)
  { html := Markup.printAll nodes, nodes := nodes, sheets := sheets }

/-- Previews that are really made of windows. -/
inductive Shows (p : Project) (o : ExportOptions) : List ExportWindow → View → Prop
  | alone {w : ExportWindow} {f : WindowFiles}
      (made : windowFiles (aloneSetting p o w) w.elements = .ok f) : Shows p o [w] (aloneView w f)
  | together {ws : List ExportWindow} {made : List WindowFiles} {components : String}
      {sheets : List String} (several : ∀ w, ws ≠ [w]) (allMade : AllMade p o ws made)
      (hcomponents : Script.components (componentSetting o ws)
        (ws.flatMap ExportWindow.elements) = .ok components)
      (confined : AllConfined ws made sheets) :
      Shows p o ws (togetherView p (panesOf ws made sheets) components sheets)

/-- The documents that are made are those that show their windows. -/
theorem document_eq_ok_iff {p : Project} {o : ExportOptions} {ws : List ExportWindow}
    {html : String} : document p o ws = .ok html ↔ ∃ v, Shows p o ws v ∧ v.html = html := by
  constructor
  · intro h
    by_cases halone : ∃ w, ws = [w]
    · obtain ⟨w, rfl⟩ := halone
      obtain ⟨f, hf, h⟩ := (bind_eq_ok_iff _ _ _).mp h
      refine ⟨aloneView w f, .alone hf, ?_⟩
      rw [← Except.ok.inj h, standalone_eq]
      rfl
    · have hseveral : ∀ w, ws ≠ [w] := fun w hw => halone ⟨w, hw⟩
      rw [document_together hseveral, together_eq_ok_iff] at h
      obtain ⟨made, components, sheets, hmade, hcomponents, hsheets, rfl⟩ := h
      exact ⟨_, .together hseveral hmade hcomponents hsheets, rfl⟩
  · rintro ⟨v, hv, rfl⟩
    cases hv with
    | @alone w f made =>
      rw [document, made, ok_bind, standalone_eq]
      rfl
    | @together ws made components sheets several allMade hcomponents confined =>
      rw [document_together several, together_eq_ok_iff]
      exact ⟨made, components, sheets, allMade, hcomponents, confined, rfl⟩

/-! ## §4. Texts that end no element. -/

theorem isTagName_style : IsTagName "style".toList :=
  ⟨by decide, List.all_iff_forall_prop.mp (by decide)⟩

theorem isTagName_script : IsTagName "script".toList :=
  ⟨by decide, List.all_iff_forall_prop.mp (by decide)⟩

/-- White space around a text takes no end tag away and brings none. -/
theorem holdsEndTag_framed_iff {name : List Char} (hname : IsTagName name) {after : String}
    (hafter : allBlank after.toList = true) (text : String) :
    HoldsEndTag name (framed after text).toList ↔ HoldsEndTag name text.toList := by
  have hbreak : Parts name '\n' := parts_of_blank hname rfl
  have hsplit : (framed after text).toList = [] ++ '\n' :: (text.toList ++ '\n' :: after.toList) := by
    simp [framed]
  unfold HoldsEndTag
  rw [hsplit, holdsTag_apart hbreak, holdsTag_apart hbreak, or_iff_right not_holdsTag_nil,
    or_iff_left (Script.not_holdsTag_blank hafter)]

theorem holdsEndTag_styleText_iff (css : String) :
    HoldsEndTag "style".toList (styleText css).toList
      ↔ HoldsOtherCase "style".toList css.toList := by
  have htext : (styleText css).toList
      = replaceAll (endTagText "style".toList) (escapedEndTag "style".toList) css.toList :=
    String.toList_ofList
  rw [htext]
  exact holdsEndTag_escaped_iff isTagName_style css.toList

theorem holdsEndTag_scriptText_iff (js : String) :
    HoldsEndTag "script".toList (scriptText js).toList
      ↔ HoldsOtherCase "script".toList js.toList := by
  have htext : (scriptText js).toList
      = replaceAll (endTagText "script".toList) (escapedEndTag "script".toList) js.toList :=
    String.toList_ofList
  rw [htext]
  exact holdsEndTag_escaped_iff isTagName_script js.toList

/-- A script in which no end tag starts holds none, escaped or not. -/
theorem not_holdsEndTag_closed {js : String} (h : Script.Closed js.toList) :
    ¬ HoldsEndTag "script".toList js.toList ∧ ¬ HoldsEndTag "script".toList (scriptText js).toList :=
  ⟨not_holdsTag_of_no_start h,
    fun hheld => not_holdsTag_of_no_start h ((holdsEndTag_scriptText_iff js).mp hheld)⟩

/-- No tag stands in the look of the shell. -/
theorem not_mem_shellSheet : '<' ∉ shellSheet.toList := by
  have htexts : ∀ r ∈ shellRules, ∀ t ∈ Stylesheet.ruleTexts r, 0x3C ∉ bytes t := by decide +kernel
  rw [shellSheet, Stylesheet.toList_intercalate_map Stylesheet.toList_print]
  refine Stylesheet.not_mem_intercalate (by decide) fun p hp => ?_
  obtain ⟨r, hr, rfl⟩ := List.mem_map.mp hp
  exact Stylesheet.not_mem_ruleChars fun t ht => not_mem_of_bytes (htexts r hr t ht)

/-! ## §5. The texts of a preview. -/

section Carried

variable (name : String)

theorem textsOf_carrier (tagName text : String) :
    (carrier tagName text).textsOf name = if tagName = name then [framed "" text] else [] := by
  rw [carrier, textsOf_tag, allTextsOf_cons, textsOf_raw, allTextsOf_nil, List.append_nil,
    Markup.printAll, Markup.printAll, Markup.print]
  rfl

theorem textsOf_textBlock (tagName : String) (attributes : Attributes) (text : String) :
    (textBlock tagName attributes text).textsOf name
      = if tagName = name then [framed (indent 1) text] else [] := by
  rw [textBlock, textsOf_tag, allTextsOf_cons, textsOf_raw, allTextsOf_nil, List.append_nil,
    Markup.printAll, Markup.printAll, Markup.print, String.append_empty]
  rfl

end Carried

theorem styles_aloneView (w : ExportWindow) (f : WindowFiles) :
    allTextsOf "style" (aloneView w f).nodes = [framed "" (styleText (sheetOf w f))] := by
  simp [aloneView, carriers, textsOf_carrier]

theorem scripts_aloneView (w : ExportWindow) (f : WindowFiles) :
    allTextsOf "script" (aloneView w f).nodes
      = [scriptText (Script.ofLines Script.mockRelay), scriptText f.components,
          scriptText f.bindings].map (framed "") := by
  simp [aloneView, carriers, textsOf_carrier]

theorem flatMap_nothing {α β : Type} (xs : List α) : (xs.flatMap fun _ => ([] : List β)) = [] :=
  List.flatMap_eq_nil_iff.mpr fun _ _ => rfl

theorem styles_togetherView (p : Project) (panes : List Pane) (components : String)
    (sheets : List String) :
    allTextsOf "style" (togetherView p panes components sheets).nodes
      = (shellSheet :: panes.map Pane.css).map (framed (indent 1)) := by
  simp [togetherView, Page.documentOf, Page.doctype, headNodes, Page.metaNodes, bodyNodes,
    textsOf_textBlock, tab, paneSection, paneSection.wrapper, Page.wrapper, Page.block, shown,
    List.flatMap_map, flatMap_nothing, ← List.map_eq_flatMap]

theorem scripts_togetherView (p : Project) (panes : List Pane) (components : String)
    (sheets : List String) :
    allTextsOf "script" (togetherView p panes components sheets).nodes
      = ([Script.ofLines Script.mockRelay, scriptText components] ++ panes.map Pane.bindings
          ++ [Script.ofLines Script.navigationScript]).map (framed (indent 1)) := by
  simp [togetherView, Page.documentOf, Page.doctype, headNodes, Page.metaNodes, bodyNodes,
    textsOf_textBlock, tab, paneSection, paneSection.wrapper, Page.wrapper, Page.block, shown,
    List.flatMap_map, flatMap_nothing, ← List.map_eq_flatMap]

/-! ## §6. Which previews hold no end tag inside an element. -/

/-- No stylesheet and no script of a preview holds an end tag of the element it stands in. -/
def View.Closed (v : View) : Prop :=
  (∀ t ∈ allTextsOf "style" v.nodes, ¬ HoldsEndTag "style".toList t.toList)
    ∧ ∀ t ∈ allTextsOf "script" v.nodes, ¬ HoldsEndTag "script".toList t.toList

/-- No stylesheet and no name of a window brings an end tag that is not written in lower case. -/
def BringsNone (sheets : List String) (windows : List Window) : Prop :=
  (∀ sheet ∈ sheets, ¬ HoldsOtherCase "style".toList sheet.toList)
    ∧ ∀ w ∈ windows, ¬ HoldsOtherCase "script".toList w.name.toText.toList

theorem scripts_of_windowFiles {s : PageSetting} {elements : List Element} {f : WindowFiles}
    (h : windowFiles s elements = .ok f) :
    Script.components s elements = .ok f.components
      ∧ Script.bindingsScript s elements = .ok f.bindings := by
  obtain ⟨page, _, h⟩ := (bind_eq_ok_iff _ _ _).mp h
  obtain ⟨stylesheet, _, h⟩ := (bind_eq_ok_iff _ _ _).mp h
  obtain ⟨components, hcomponents, h⟩ := (bind_eq_ok_iff _ _ _).mp h
  obtain ⟨bindings, hbindings, h⟩ := (bind_eq_ok_iff _ _ _).mp h
  cases h
  exact ⟨hcomponents, hbindings⟩

/-- The bindings of a window hold an end tag exactly when its name brings one. -/
theorem holdsEndTag_bindings_iff {s : PageSetting} {elements : List Element} {f : WindowFiles}
    (h : windowFiles s elements = .ok f) :
    HoldsEndTag "script".toList (scriptText f.bindings).toList
      ↔ HoldsOtherCase "script".toList s.window.name.toText.toList :=
  (holdsEndTag_scriptText_iff f.bindings).trans
    (Script.holdsTag_script_iff isTagName_script (scripts_of_windowFiles h).2)

theorem closed_relay :
    ¬ HoldsEndTag "script".toList (Script.ofLines Script.mockRelay).toList
      ∧ ¬ HoldsEndTag "script".toList (scriptText (Script.ofLines Script.mockRelay)).toList :=
  not_holdsEndTag_closed (Script.closed_fixedScript .relay)

theorem closed_aloneView {p : Project} {o : ExportOptions} {w : ExportWindow} {f : WindowFiles}
    (h : windowFiles (aloneSetting p o w) w.elements = .ok f) :
    (aloneView w f).Closed ↔ BringsNone [sheetOf w f] [w.window] := by
  have hcomponents := not_holdsEndTag_closed (Script.closed_components (scripts_of_windowFiles h).1)
  have hbindings := holdsEndTag_bindings_iff h
  have hblank : allBlank "".toList = true := rfl
  unfold View.Closed BringsNone
  rw [styles_aloneView, scripts_aloneView]
  simp only [List.forall_mem_map, List.forall_mem_cons, List.not_mem_nil, IsEmpty.forall_iff,
    implies_true, and_true, holdsEndTag_framed_iff isTagName_style hblank,
    holdsEndTag_framed_iff isTagName_script hblank, holdsEndTag_styleText_iff, hbindings,
    closed_relay.2, hcomponents.2, not_false_eq_true, true_and]
  exact Iff.rfl

/-- The stylesheets and bindings of panes are those of their windows. -/
theorem panes_of_confined {ws : List (ExportWindow × WindowFiles)} {sheets : List String}
    {R : ExportWindow × WindowFiles → String → Prop} (h : List.Forall₂ R ws sheets) :
    let panes := List.zipWith (fun wf sheet => paneOf wf.1 wf.2 sheet) ws sheets
    panes.map Pane.css = sheets.map styleText
      ∧ panes.map Pane.bindings = ws.map fun wf => scriptText wf.2.bindings := by
  induction h with
  | nil => exact ⟨rfl, rfl⟩
  | cons _ _ ih =>
    obtain ⟨hcss, hbindings⟩ := ih
    constructor
    · rw [List.zipWith_cons_cons, List.map_cons, List.map_cons, hcss]
      rfl
    · rw [List.zipWith_cons_cons, List.map_cons, List.map_cons, hbindings]
      rfl

/-- The bindings of several windows hold end tags exactly when a name of them brings one. -/
theorem closed_allBindings {p : Project} {o : ExportOptions} {linked : List (String × WindowLink)}
    {ws : List ExportWindow} {made : List WindowFiles}
    (h : List.Forall₂ (fun w f => windowFiles (sharedSetting p o linked w) w.elements = .ok f)
      ws made) :
    (∀ wf ∈ ws.zip made, ¬ HoldsEndTag "script".toList (scriptText wf.2.bindings).toList)
      ↔ ∀ w ∈ ws, ¬ HoldsOtherCase "script".toList w.window.name.toText.toList := by
  induction h with
  | nil => exact ⟨fun _ w hw => absurd hw List.not_mem_nil, fun _ wf hwf => absurd hwf List.not_mem_nil⟩
  | cons hw _ ih =>
    rw [List.zip_cons_cons, List.forall_mem_cons, List.forall_mem_cons, ih,
      holdsEndTag_bindings_iff hw]
    exact Iff.rfl

theorem closed_togetherView {p : Project} {o : ExportOptions} {ws : List ExportWindow}
    {made : List WindowFiles} {components : String} {sheets : List String}
    (hmade : AllMade p o ws made)
    (hcomponents : Script.components (componentSetting o ws)
      (ws.flatMap ExportWindow.elements) = .ok components)
    (hconfined : AllConfined ws made sheets) :
    (togetherView p (panesOf ws made sheets) components sheets).Closed
      ↔ BringsNone sheets (ws.map ExportWindow.window) := by
  obtain ⟨hcss, hscripts⟩ := panes_of_confined hconfined
  have hshell : ¬ HoldsEndTag "style".toList shellSheet.toList :=
    not_holdsTag_of_no_start (Script.closed_of_not_mem not_mem_shellSheet)
  have hall := not_holdsEndTag_closed (Script.closed_components hcomponents)
  have hrouter : ¬ HoldsEndTag "script".toList (Script.ofLines Script.navigationScript).toList :=
    (not_holdsEndTag_closed (Script.closed_fixedScript .router)).1
  have hblank : allBlank (indent 1).toList = true := by decide
  unfold View.Closed BringsNone
  rw [styles_togetherView, scripts_togetherView, panesOf, hcss, hscripts]
  simp only [List.forall_mem_map, List.forall_mem_append, List.forall_mem_cons, List.not_mem_nil,
    IsEmpty.forall_iff, implies_true, and_true, holdsEndTag_framed_iff isTagName_style hblank,
    holdsEndTag_framed_iff isTagName_script hblank, holdsEndTag_styleText_iff, hshell, hrouter,
    closed_relay.1, hall.2, not_false_eq_true, true_and]
  rw [closed_allBindings hmade]

/-- Every preview that is rendered shows windows that are ready. -/
theorem view_of_render {p : Project} {o : ExportOptions} {windowId : Option String}
    {d : Document} (h : render p o windowId = .ok d) :
    ∃ windows warnings e v, Underway p o windowId windows warnings e ∧ Shows p o e.windows v
      ∧ d.html = v.html := by
  obtain ⟨windows, warnings, e, hunderway⟩ := underway_of_render h
  rw [render_of_underway hunderway] at h
  obtain ⟨html, hhtml, h⟩ := (bind_eq_ok_iff _ _ _).mp h
  obtain ⟨v, hv, rfl⟩ := document_eq_ok_iff.mp hhtml
  refine ⟨windows, warnings, e, v, hunderway, hv, ?_⟩
  rw [← Except.ok.inj h]

theorem closed_of_shows {p : Project} {o : ExportOptions} {ws : List ExportWindow} {v : View}
    (h : Shows p o ws v) : v.Closed ↔ BringsNone v.sheets (ws.map ExportWindow.window) := by
  cases h with
  | alone made => exact closed_aloneView made
  | together _ allMade hcomponents confined =>
    exact closed_togetherView allMade hcomponents confined

/-- **Previews of which windows hold no end tag inside an element**: those in which neither a
stylesheet nor the name of a window brings one that is not written in lower case. -/
theorem inlined_closed_iff {p : Project} {o : ExportOptions} {windowId : Option String}
    {d : Document} (h : render p o windowId = .ok d) :
    ∃ windows warnings e v, Underway p o windowId windows warnings e ∧ Shows p o e.windows v
      ∧ d.html = v.html ∧ (v.Closed ↔ BringsNone v.sheets windows) := by
  obtain ⟨windows, warnings, e, v, hunderway, hv, hhtml⟩ := view_of_render h
  refine ⟨windows, warnings, e, v, hunderway, hv, hhtml, ?_⟩
  rw [← hunderway.windows_eq]
  exact closed_of_shows hv

/-! ## §7. Previews of windows that show nothing. -/

theorem windows_empty {names : List String} {windows : List Window} {warnings : List String}
    {e : Equipment} (h : Underway (emptyProject names) plainOptions none windows warnings e) :
    windows = names.map emptyWindow :=
  (Except.ok.inj ((select_empty names).symm.trans h.selected)).symm

/-- A window with the given name is previewed. -/
theorem exists_render_empty {name : String} (h : name = "Main" ∨ name = "</SCRIPT>") :
    ∃ d, render (emptyProject [name]) plainOptions none = .ok d := by
  refine exists_of_isOk ?_
  rw [render, select_empty]
  show (Except.isOk (prepare _ _ >>= _)) = true
  rw [prepare_empty]
  rcases h with rfl | rfl
  · decide +kernel
  · decide +kernel

/-- In the preview of a window with a plain name only a stylesheet can bring an end tag. -/
theorem plainName_inlined : ∃ d windows warnings e v,
    render (emptyProject ["Main"]) plainOptions none = .ok d
      ∧ Underway (emptyProject ["Main"]) plainOptions none windows warnings e
      ∧ Shows (emptyProject ["Main"]) plainOptions e.windows v ∧ d.html = v.html
      ∧ (v.Closed ↔ ∀ sheet ∈ v.sheets, ¬ HoldsOtherCase "style".toList sheet.toList) := by
  obtain ⟨d, hd⟩ := exists_render_empty (Or.inl rfl)
  obtain ⟨windows, warnings, e, v, hunderway, hv, hhtml, hclosed⟩ := inlined_closed_iff hd
  refine ⟨d, windows, warnings, e, v, hd, hunderway, hv, hhtml, hclosed.trans ?_⟩
  have hname : ∀ w ∈ windows, ¬ HoldsOtherCase "script".toList w.name.toText.toList := by
    intro w hw
    rw [windows_empty hunderway] at hw
    rw [List.mem_singleton.mp hw]
    exact not_holdsTag_of_no_start (Script.closed_of_not_mem (by decide))
  exact and_iff_left hname

/-- The preview of a window whose name is an end tag in upper case ends its own script. -/
theorem upperCaseName_ends_script : ∃ d windows warnings e v,
    render (emptyProject ["</SCRIPT>"]) plainOptions none = .ok d
      ∧ Underway (emptyProject ["</SCRIPT>"]) plainOptions none windows warnings e
      ∧ Shows (emptyProject ["</SCRIPT>"]) plainOptions e.windows v ∧ d.html = v.html
      ∧ ¬ v.Closed := by
  obtain ⟨d, hd⟩ := exists_render_empty (Or.inr rfl)
  obtain ⟨windows, warnings, e, v, hunderway, hv, hhtml⟩ := view_of_render hd
  refine ⟨d, windows, warnings, e, v, hd, hunderway, hv, hhtml, fun hclosed => ?_⟩
  have hnames := ((closed_of_shows hv).mp hclosed).2
  rw [hunderway.windows_eq, windows_empty hunderway] at hnames
  exact hnames _ (List.mem_singleton_self _) ⟨[], "SCRIPT".toList, ['>'], rfl, by decide, by decide⟩

end ControlSurface.Preview
