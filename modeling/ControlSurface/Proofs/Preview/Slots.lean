/-
  ControlSurface.Proofs.Preview.Slots
  ───────────────────────────────────
  The places in a page that a preview fills.  The lines of a page are always the same but for the
  title, the start tag of the container, which names the window, and the markup of the elements;
  between them stand the three places (`printAll_around`).  The references to the stylesheet and to
  the scripts are replaced one after the other, each where it first stands in what the page has
  become by then.  No title, name or identity of a window brings a reference, and no script does; a
  stylesheet and the markup of the elements can.  The preview is the page with its own places filled
  exactly when neither of these holds a reference to a script (`standalone_fills_iff`).
-/
import ControlSurface.Page.Document
import ControlSurface.Proofs.Markup.Regular
import ControlSurface.Proofs.Preview.Success
import ControlSurface.Proofs.Script.Filling
import ControlSurface.Proofs.Text.Replacing

namespace ControlSurface.Markup

/-! ## §1. Printed nodes. -/

theorem printAll_cons (n : Node) (ns : List Node) : printAll (n :: ns) = print n ++ printAll ns := by
  rw [printAll]

theorem printAll_append (ns ms : List Node) : printAll (ns ++ ms) = printAll ns ++ printAll ms := by
  induction ns with
  | nil => simp [printAll]
  | cons n ns ih => rw [List.cons_append, printAll_cons, printAll_cons, ih, String.append_assoc]

theorem print_tag {name : String} (h : voidTags.contains name = false) (attributes : Attributes)
    (body : List Node) :
    print (tag name attributes body)
      = "<" ++ name ++ attributesText attributes ++ ">" ++ printAll body ++ "</" ++ name ++ ">" := by
  rw [tag, print, h]
  simp [String.append_assoc]

/-- Attributes whose values are all text. -/
theorem attributesText_texts (attributes : List (String × String)) :
    attributesText (attributes.map fun a => (a.1, .text a.2))
      = String.join (attributes.map fun a => " " ++ a.1 ++ "=\"" ++ Text.escape a.2 ++ "\"") := by
  rw [attributesText, List.map_map]
  rfl

end ControlSurface.Markup

namespace ControlSurface.Page

open Markup

/-- Nodes on lines of their own. -/
theorem printAll_lines (depth : Nat) (items : List (List Node)) :
    printAll (lines depth items)
      = String.join (items.map fun nodes => "\n" ++ indent depth ++ printAll nodes) := by
  induction items with
  | nil => rfl
  | cons nodes items ih =>
    have hcons : lines depth (nodes :: items)
        = .raw ("\n" ++ indent depth) :: (nodes ++ lines depth items) := rfl
    rw [hcons, printAll_cons, printAll_append, ih, Markup.print, List.map_cons]
    simp [String.append_assoc]

/-! ## §2. The lines of a page. -/

/-- The line with the title of a page. -/
def titleLine (s : PageSetting) : String :=
  "  <title>" ++ Text.escape (s.title.orElse s.window.name).toText ++ "</title>"

/-- The line with which the container of a page begins. -/
def containerLine (s : PageSetting) : String :=
  "    <div id=\"plugin-container\" data-window-id=\"" ++ Text.escape s.window.id
    ++ "\" data-window-name=\"" ++ Text.escape s.window.name.toText ++ "\">"

/-- The lines before the place of the stylesheet. -/
def headLines (s : PageSetting) : List String :=
  ["<!DOCTYPE html>", "<html lang=\"en\">", "<head>", "  <meta charset=\"UTF-8\">",
    "  <meta name=\"viewport\" content=\"width=device-width, initial-scale=1.0\">", titleLine s]

/-- The lines between the place of the stylesheet and the places of the scripts. -/
def bodyLines (s : PageSetting) (content : List Node) : List String :=
  ["</head>", "<body>", "  <div id=\"plugin-wrapper\">", containerLine s, printAll content,
    "    </div>", "  </div>"]

/-- How a page ends. -/
def foot : String := "\n</body>\n</html>\n"

section Printing

variable (s : PageSetting)

theorem indent_one : indent 1 = "  " := by decide

theorem print_title :
    "  " ++ print (tag "title" [] [shown (s.title.orElse s.window.name)]) = titleLine s := by
  rw [print_tag (by decide), shown, printAll, printAll, Markup.print, titleLine,
    ← String.toList_inj]
  simp [attributesText]

/-- The head of a page. -/
theorem printAll_head (stylesheet : List Node) :
    printAll (lines 1 (metaNodes
        ++ [[tag "title" [] [shown (s.title.orElse s.window.name)]], stylesheet]))
      = "\n  <meta charset=\"UTF-8\">\n  <meta name=\"viewport\" "
        ++ "content=\"width=device-width, initial-scale=1.0\">\n" ++ titleLine s ++ "\n  "
        ++ printAll stylesheet := by
  have hmeta : printAll (lines 1 metaNodes)
      = "\n  <meta charset=\"UTF-8\">\n  <meta name=\"viewport\" "
        ++ "content=\"width=device-width, initial-scale=1.0\">" := by
    decide
  rw [lines, List.flatMap_append, ← lines, ← lines, printAll_append, hmeta, printAll_lines,
    List.map_cons, List.map_cons, List.map_nil, indent_one, printAll, printAll, ← print_title,
    ← String.toList_inj]
  simp only [String.toList_append, String.join_cons, String.join_nil]
  -- literals are spelled out at once, instead of being decoded character by character
  repeat rw [String.toList_ofList]
  simp

theorem print_container (w : Window) (content : List Node) :
    print (tag "div" (containerAttributes w) content)
      = "<div id=\"plugin-container\" data-window-id=\"" ++ Text.escape w.id
        ++ "\" data-window-name=\"" ++ Text.escape w.name.toText ++ "\">" ++ printAll content
        ++ "</div>" := by
  have hid : Text.escape "plugin-container" = "plugin-container" := by decide
  have hattributes := attributesText_texts
    [("id", "plugin-container"), ("data-window-id", w.id), ("data-window-name", w.name.toText)]
  simp only [List.map_cons, List.map_nil, hid] at hattributes
  rw [print_tag (by decide), containerAttributes, hattributes, ← String.toList_inj]
  simp only [String.toList_append, String.join_cons, String.join_nil]
  repeat rw [String.toList_ofList]
  simp

/-- The box of a window. -/
theorem print_wrapper (content : List Node) :
    "  " ++ print (wrapper 1 s.window content)
      = "  <div id=\"plugin-wrapper\">\n" ++ containerLine s ++ "\n" ++ printAll content
        ++ "\n    </div>\n  </div>" := by
  have hid : attributesText [("id", .text "plugin-wrapper")] = " id=\"plugin-wrapper\"" := by
    decide
  have hindent : indent (1 + 1) = "    " := by decide
  rw [wrapper, block, print_tag (by decide), printAll_append, printAll_lines, List.map_singleton,
    printAll_cons, print_container, printAll_cons, printAll_append, printAll_cons, hid, indent_one,
    hindent, ← String.toList_inj]
  unfold containerLine
  simp only [printAll, Markup.print, String.toList_append, String.join_cons, String.join_nil]
  repeat rw [String.toList_ofList]
  simp

/-- The body of a page. -/
theorem printAll_body (content components bindings : List Node) :
    printAll (lines 1 [[wrapper 1 s.window content], components, bindings])
      = "\n  <div id=\"plugin-wrapper\">\n" ++ containerLine s ++ "\n" ++ printAll content
        ++ "\n    </div>\n  </div>\n  " ++ printAll components ++ "\n  " ++ printAll bindings := by
  have hlines : printAll (lines 1 [[wrapper 1 s.window content], components, bindings])
      = "\n" ++ ("  " ++ print (wrapper 1 s.window content)) ++ "\n  " ++ printAll components
        ++ "\n  " ++ printAll bindings := by
    rw [printAll_lines, List.map_cons, List.map_cons, List.map_singleton, indent_one, printAll,
      printAll, ← String.toList_inj]
    simp
  rw [hlines, print_wrapper, ← String.toList_inj]
  simp only [String.toList_append]
  repeat rw [String.toList_ofList]
  simp

set_option maxRecDepth 2000 in
/-- **The text of a page**: its lines, with the three places among them. -/
theorem printAll_around (r : Resources) (content : List Node) :
    printAll (around s r content)
      = Script.ofLines (headLines s) ++ "  " ++ printAll r.stylesheet ++ "\n"
        ++ Script.ofLines (bodyLines s content) ++ "  " ++ printAll r.components ++ "\n  "
        ++ printAll r.bindings ++ foot := by
  have hlang : attributesText [("lang", .text "en")] = " lang=\"en\"" := by decide
  have hhtml : voidTags.contains "html" = false := by decide
  have hhead : voidTags.contains "head" = false := by decide
  have hbody : voidTags.contains "body" = false := by decide
  simp only [around, documentOf, printAll_cons, print_tag hhtml, print_tag hhead, print_tag hbody,
    printAll_append, printAll_head, printAll_body, hlang]
  rw [← String.toList_inj]
  simp only [Script.toList_ofLines, headLines, bodyLines, foot, printAll, Markup.print,
    attributesText, doctype, String.toList_append, List.map_nil, String.join_nil, List.flatMap_cons,
    List.flatMap_nil]
  repeat rw [String.toList_ofList]
  simp only [List.append_assoc, List.cons_append, List.nil_append, List.append_nil]

end Printing

end ControlSurface.Page

namespace ControlSurface.Preview

open ControlSurface.Bundle ControlSurface.Markup ControlSurface.Outcome ControlSurface.Text

/-! ## §3. References. -/

/-- The reference to the stylesheet of a page, as it is printed. -/
def stylesheetReference : List Char := referenceText Page.Resources.linked.stylesheet

/-- The references to the scripts of a page, as they are printed. -/
def scriptReferences : List (List Char) :=
  [referenceText Page.Resources.linked.components, referenceText Page.Resources.linked.bindings]

/-- A tag at the beginning of a line, which does not go beyond the line. -/
def OnOneLine (slot : List Char) : Prop := slot.head? = some '<' ∧ '\n' ∉ slot

/-- How the reference to a script begins. -/
def referenceOpening : List Char := ['<', 's', 'c', 'r', 'i', 'p', 't', ' ']

/-- How a script that a page holds itself begins. -/
def scriptOpening : List Char := ['<', 's', 'c', 'r', 'i', 'p', 't', '>']

theorem opens_reference : Opens '<' referenceOpening := ⟨rfl, by decide⟩

theorem opens_script : Opens '<' scriptOpening := ⟨rfl, by decide⟩

/-- The lines that all pages have before the places of their references. -/
def fixedLines : List String :=
  ["<!DOCTYPE html>", "<html lang=\"en\">", "<head>", "  <meta charset=\"UTF-8\">",
   "  <meta name=\"viewport\" content=\"width=device-width, initial-scale=1.0\">", "  <style>",
   "</style>", "</head>", "<body>", "  <div id=\"plugin-wrapper\">", "    </div>", "  </div>",
   "  <script>", "</script>"]

/-- A reference is a tag at the beginning of a line that does not go beyond the line, holds a quote
and stands in no line that all pages have.  That to a script is two tags, the second of which ends
a script. -/
theorem references_form :
    (∀ slot ∈ stylesheetReference :: scriptReferences, (slot.head? = some '<' ∧ '\n' ∉ slot)
        ∧ '"' ∈ slot ∧ ∀ line ∈ fixedLines, ¬ slot <:+: line.toList)
      ∧ ∀ slot ∈ scriptReferences, 1 < slot.count '<' ∧ referenceOpening <+: slot
        ∧ "</script>".toList <:+: slot := by
  decide +kernel

theorem onOneLine_stylesheet : OnOneLine stylesheetReference :=
  (references_form.1 _ (List.mem_cons_self ..)).1

theorem onOneLine_script : ∀ slot ∈ scriptReferences, OnOneLine slot :=
  fun slot hslot => (references_form.1 slot (List.mem_cons_of_mem _ hslot)).1

theorem opening_script : ∀ slot ∈ scriptReferences, referenceOpening <+: slot :=
  fun slot hslot => (references_form.2 slot hslot).2.1

/-- Spaces before a tag do not hold it. -/
theorem unbroken_spaces {slot : List Char} (hslot : slot.head? = some '<') (spaces : Nat) :
    Unbroken slot (List.replicate spaces ' ') := by
  obtain ⟨rest, rfl⟩ := List.head?_eq_some_iff.mp hslot
  induction spaces with
  | zero => trivial
  | succ n ih => exact ⟨rfl, ih⟩

/-- A tag at the beginning of an indented line is the first of its kind if no line before holds
it. -/
theorem unbroken_lines {slot : List Char} (hslot : OnOneLine slot) (lines : List String)
    (spaces : Nat) :
    Unbroken slot ((Script.ofLines lines).toList ++ List.replicate spaces ' ')
      ↔ ∀ line ∈ lines, ¬ slot <:+: line.toList := by
  obtain ⟨hhead, hline⟩ := hslot
  induction lines with
  | nil =>
    exact iff_of_true (unbroken_spaces hhead spaces) fun _ hline => absurd hline List.not_mem_nil
  | cons line lines ih =>
    rw [Script.toList_ofLines_cons, List.append_assoc, List.cons_append, unbroken_apart hline, ih,
      List.forall_mem_cons]

/-- **A tag at the beginning of an indented line** is replaced if no line before holds it. -/
theorem replaceFirst_lines {slot : List Char} (hslot : OnOneLine slot) {lines : List String}
    (h : ∀ line ∈ lines, ¬ slot <:+: line.toList) (replacement rest : List Char) :
    replaceFirst slot replacement
        ((Script.ofLines lines).toList ++ "  ".toList ++ (slot ++ rest))
      = (Script.ofLines lines).toList ++ "  ".toList ++ (replacement ++ rest) :=
  replaceFirst_of_unbroken ((unbroken_lines hslot lines 2).mpr h) replacement rest

/-! ## §4. The lines of a page hold no reference. -/

/-- The lines of a page that hold a title or a name, which are escaped, hold no reference. -/
theorem not_infix_titleLine (s : PageSetting) {slot : List Char} (h : '"' ∈ slot) :
    ¬ slot <:+: (Page.titleLine s).toList := by
  have htitle : '"' ∉ (Page.titleLine s).toList := by
    unfold Page.titleLine
    simp only [String.toList_append, List.mem_append, not_or]
    exact ⟨⟨by decide, not_mem_escape (by decide) _⟩, by decide⟩
  exact fun hoccurs => htitle (hoccurs.subset h)

theorem not_infix_containerLine (s : PageSetting) {slot : List Char} (h : 1 < slot.count '<') :
    ¬ slot <:+: (Page.containerLine s).toList := by
  have hescape : ∀ t : String, (Text.escape t).toList.count '<' = 0 := fun t =>
    List.count_eq_zero.mpr (not_mem_escape (by decide) t)
  have hone : (Page.containerLine s).toList.count '<' = 1 := by
    unfold Page.containerLine
    simp only [String.toList_append, List.count_append, hescape]
    decide
  exact fun hoccurs => absurd (hoccurs.sublist.count_le '<') (by omega)

/-- The lines of a page before the place of its stylesheet hold no reference to it. -/
theorem headLines_free (s : PageSetting) :
    ∀ line ∈ Page.headLines s, ¬ stylesheetReference <:+: line.toList := by
  obtain ⟨-, hquote, hfixed⟩ := references_form.1 stylesheetReference (List.mem_cons_self ..)
  unfold fixedLines at hfixed
  unfold Page.headLines
  simp only [List.forall_mem_cons, List.not_mem_nil, IsEmpty.forall_iff, implies_true,
    and_true] at hfixed ⊢
  simp only [hfixed, not_infix_titleLine s hquote, not_false_eq_true, and_true]

/-- The lines of a page before the place of its first script, with a stylesheet in its place. -/
def styledLines (s : PageSetting) (css : String) (content : List Node) : List String :=
  Page.headLines s ++ ["  <style>", css, "</style>"] ++ Page.bodyLines s content

/-- **Only the stylesheet and the markup of the elements** can hold a reference to a script before
the places of the scripts. -/
theorem styledLines_free_iff (s : PageSetting) (css : String) (content : List Node) :
    ∀ slot ∈ scriptReferences, (∀ line ∈ styledLines s css content, ¬ slot <:+: line.toList)
      ↔ ¬ slot <:+: css.toList ∧ ¬ slot <:+: (printAll content).toList := by
  intro slot hslot
  obtain ⟨-, hquote, hfixed⟩ := references_form.1 slot (List.mem_cons_of_mem _ hslot)
  have hopenings := (references_form.2 slot hslot).1
  unfold fixedLines at hfixed
  unfold styledLines Page.headLines Page.bodyLines
  simp only [List.forall_mem_append, List.forall_mem_cons, List.not_mem_nil, IsEmpty.forall_iff,
    implies_true, and_true] at hfixed ⊢
  simp only [hfixed, not_infix_titleLine s hquote, not_infix_containerLine s hopenings,
    not_false_eq_true, true_and, and_true]

/-- The lines of a page before the place of its second script, with the first in its place. -/
def equippedLines (s : PageSetting) (css : String) (content : List Node) (components : String) :
    List String :=
  styledLines s css content ++ ["  <script>", scriptText (Script.ofLines Script.mockRelay),
    "</script>", "  <script>", scriptText components, "</script>"]

/-- A script that holds no end tag holds no reference. -/
theorem not_infix_scriptText {js : String} (h : Script.Closed js.toList) :
    ∀ slot ∈ scriptReferences, ¬ slot <:+: (scriptText js).toList := by
  intro slot hslot hoccurs
  have hend := (references_form.2 slot hslot).2.2
  obtain ⟨before, after, heq⟩ := hend.trans hoccurs
  have htag : "script".toList.map asciiLower = "script".toList := by decide
  refine (not_holdsEndTag_closed h).2 ⟨before, "script".toList, '>' :: after, ?_, htag, trivial⟩
  rw [← heq]
  simp

theorem equippedLines_free_iff (s : PageSetting) (css : String) (content : List Node)
    {components : String} (h : Script.Closed components.toList) :
    ∀ slot ∈ scriptReferences,
      (∀ line ∈ equippedLines s css content components, ¬ slot <:+: line.toList)
        ↔ ¬ slot <:+: css.toList ∧ ¬ slot <:+: (printAll content).toList := by
  intro slot hslot
  have hfixed := (references_form.1 slot (List.mem_cons_of_mem _ hslot)).2.2
  have hrelay := not_infix_scriptText (Script.closed_fixedScript .relay) slot hslot
  have hcomponents := not_infix_scriptText h slot hslot
  unfold equippedLines
  rw [List.forall_mem_append, styledLines_free_iff s css content slot hslot]
  refine and_iff_left ?_
  unfold fixedLines at hfixed
  simp only [List.forall_mem_cons, List.not_mem_nil, IsEmpty.forall_iff, implies_true,
    and_true] at hfixed ⊢
  simp only [hfixed, hcomponents, not_false_eq_true, true_and, and_true]
  exact hrelay

/-! ## §5. A page with its places filled. -/

/-- The text of a page with texts in its three places. -/
def pageWith (s : PageSetting) (content : List Node) (stylesheet components bindings : List Char) :
    List Char :=
  (Script.ofLines (Page.headLines s)).toList ++ "  ".toList ++ (stylesheet ++ ("\n".toList
    ++ ((Script.ofLines (Page.bodyLines s content)).toList ++ ("  ".toList ++ (components
    ++ ("\n  ".toList ++ (bindings ++ Page.foot.toList)))))))

theorem toList_around (s : PageSetting) (r : Page.Resources) (content : List Node) :
    (printAll (Page.around s r content)).toList
      = pageWith s content (referenceText r.stylesheet) (referenceText r.components)
        (referenceText r.bindings) := by
  rw [Page.printAll_around]
  simp only [pageWith, referenceText, String.toList_append, List.append_assoc]

/-- The text of the element that carries a stylesheet. -/
def styleElement (css : String) : List Char := (Preview.around "style" css).toList

theorem toList_ofLines_append (lines more : List String) :
    (Script.ofLines (lines ++ more)).toList
      = (Script.ofLines lines).toList ++ (Script.ofLines more).toList := by
  rw [Script.toList_ofLines, Script.toList_ofLines, Script.toList_ofLines, List.flatMap_append]

theorem pageWith_style (s : PageSetting) (content : List Node) (css : String)
    (components bindings : List Char) :
    pageWith s content (styleElement css) components bindings
      = (Script.ofLines (styledLines s css content)).toList ++ "  ".toList
        ++ (components ++ ("\n  ".toList ++ (bindings ++ Page.foot.toList))) := by
  have hstyle : "  ".toList ++ (styleElement css ++ "\n".toList)
      = (Script.ofLines ["  <style>", css, "</style>"]).toList := by
    have htag : voidTags.contains "style" = false := by decide
    simp [styleElement, Preview.around, Script.toList_ofLines, print_tag htag, attributesText,
      printAll, Markup.print]
  unfold pageWith styledLines
  rw [toList_ofLines_append, toList_ofLines_append, ← hstyle]
  simp only [List.append_assoc]

/-- Two scripts, each on lines of its own. -/
theorem scripts_lines (first second : String) :
    "  ".toList
        ++ ((Preview.around "script" first ++ "\n  " ++ Preview.around "script" second).toList
          ++ "\n".toList)
      = (Script.ofLines ["  <script>", first, "</script>", "  <script>", second,
          "</script>"]).toList := by
  have hscript : voidTags.contains "script" = false := by decide
  simp [Preview.around, Script.toList_ofLines, print_tag hscript, attributesText, printAll,
    Markup.print]

theorem pageWith_components (s : PageSetting) (content : List Node) (css components : String)
    (bindings : List Char) :
    pageWith s content (styleElement css) (componentText components).toList bindings
      = (Script.ofLines (equippedLines s css content components)).toList ++ "  ".toList
        ++ (bindings ++ Page.foot.toList) := by
  have hbreak : "\n  ".toList = "\n".toList ++ "  ".toList := by decide
  have hscripts :=
    scripts_lines (scriptText (Script.ofLines Script.mockRelay)) (scriptText components)
  unfold equippedLines
  rw [pageWith_style, toList_ofLines_append, ← hscripts, hbreak]
  unfold componentText inlineScript
  simp only [List.append_assoc]

/-! ## §6. Places that are filled too early. -/

/-- Up to some place both texts are the same; there the first one has a script of its own and the
second one a reference. -/
def Departs (cs ds : List Char) : Prop :=
  ∃ front rest rest', cs = front ++ (scriptOpening ++ rest)
    ∧ ds = front ++ (referenceOpening ++ rest')

theorem openings_differ (rest rest' : List Char) :
    scriptOpening ++ rest ≠ referenceOpening ++ rest' := by
  simp [scriptOpening, referenceOpening]

theorem Departs.ne {cs ds : List Char} (h : Departs cs ds) : cs ≠ ds := by
  obtain ⟨front, rest, rest', rfl, rfl⟩ := h
  rw [Ne, List.append_cancel_left_eq]
  exact openings_differ rest rest'

section Replacing

variable {slot replacement : List Char}

/-- A reference that gives way to a script after the place does not bring the texts together. -/
theorem Departs.replaceFirst (hslot : referenceOpening <+: slot)
    (hreplacement : scriptOpening <+: replacement) {cs ds : List Char} (h : Departs cs ds) :
    Departs (Text.replaceFirst slot replacement cs) ds := by
  obtain ⟨t, rfl⟩ := hslot
  obtain ⟨u, rfl⟩ := hreplacement
  by_cases hoccurs : referenceOpening ++ t <:+: cs
  · obtain ⟨found, after, heq, hfirst⟩ := exists_first hoccurs
    obtain ⟨front, rest, rest', hcs, rfl⟩ := h
    rw [heq, replaceFirst_of_unbroken hfirst]
    rw [heq, List.append_assoc] at hcs
    obtain ⟨more, rfl, hmore⟩ | ⟨more, rfl, hmore⟩ := List.append_eq_append_iff.mp hcs
    · -- the reference stands at or before the place
      rcases opens_reference.prefix_of_append opens_script hmore with rfl | ⟨m, rfl⟩
      · exact absurd hmore.symm (openings_differ _ _)
      · exact ⟨found, u ++ after, m ++ (referenceOpening ++ rest'), by simp, by simp⟩
    · -- it stands behind
      rcases opens_script.prefix_of_append opens_reference hmore with rfl | ⟨m, rfl⟩
      · exact absurd hmore (openings_differ _ _)
      · exact ⟨front, m ++ (scriptOpening ++ u ++ after), rest', by simp, rfl⟩
  · rwa [replaceFirst_of_absent hoccurs]

/-- **A reference that stands before its place** gives way there, and the texts depart. -/
theorem departs_of_early (hslot : referenceOpening <+: slot)
    (hreplacement : scriptOpening <+: replacement) (before rest rest' : List Char) :
    Departs (Text.replaceFirst slot replacement (before ++ (slot ++ rest)))
      (before ++ (slot ++ rest')) := by
  obtain ⟨t, rfl⟩ := hslot
  obtain ⟨u, rfl⟩ := hreplacement
  obtain ⟨found, after, ⟨more, rfl⟩, heq, hreplaced⟩ :=
    @exists_replaced (referenceOpening ++ t) before rest (scriptOpening ++ u)
  rw [hreplaced]
  rw [List.append_assoc, List.append_cancel_left_eq, List.append_assoc, List.append_assoc] at heq
  rcases opens_reference.prefix_of_append opens_reference heq.symm with rfl | ⟨m, rfl⟩
  · exact ⟨found, u ++ after, t ++ rest', by simp, by simp⟩
  · exact ⟨found, u ++ after, m ++ (referenceOpening ++ t ++ rest'), by simp, by simp⟩

end Replacing

/-- A line of a text is a part of it. -/
theorem infix_ofLines {line : String} {lines : List String} (h : line ∈ lines) :
    line.toList <:+: (Script.ofLines lines).toList := by
  obtain ⟨before, after, rfl⟩ := List.append_of_mem h
  rw [toList_ofLines_append, Script.toList_ofLines_cons]
  exact ⟨_, _, List.append_assoc ..⟩

/-- A place on a line of its own, under lines one of which holds the reference already. -/
theorem departs_of_lines {slot replacement : List Char} (hslot : referenceOpening <+: slot)
    (hreplacement : scriptOpening <+: replacement) {lines : List String}
    (h : ∃ line ∈ lines, slot <:+: line.toList) (rest rest' : List Char) :
    Departs (replaceFirst slot replacement ((Script.ofLines lines).toList ++ "  ".toList ++ rest))
      ((Script.ofLines lines).toList ++ "  ".toList ++ rest') := by
  obtain ⟨line, hline, hoccurs⟩ := h
  obtain ⟨before, after, heq⟩ := hoccurs.trans (infix_ofLines hline)
  rw [← heq]
  have hdeparts := departs_of_early hslot hreplacement before (after ++ ("  ".toList ++ rest))
    (after ++ ("  ".toList ++ rest'))
  simpa only [List.append_assoc] using hdeparts

/-! ## §7. Which previews fill the places of their page. -/

section Filling

variable (s : PageSetting) (content : List Node) (css components : String)

/-- The place of the stylesheet is always found. -/
theorem replaceFirst_stylesheet (replacement atComponents atBindings : List Char) :
    replaceFirst stylesheetReference replacement
        (pageWith s content stylesheetReference atComponents atBindings)
      = pageWith s content replacement atComponents atBindings :=
  replaceFirst_lines onOneLine_stylesheet (headLines_free s) _ _

/-- The place of the first script is found if no line before it holds the reference. -/
theorem replaceFirst_components {slot : List Char} (hslot : OnOneLine slot)
    (h : ∀ line ∈ styledLines s css content, ¬ slot <:+: line.toList)
    (replacement atBindings : List Char) :
    replaceFirst slot replacement (pageWith s content (styleElement css) slot atBindings)
      = pageWith s content (styleElement css) replacement atBindings := by
  rw [pageWith_style, pageWith_style]
  exact replaceFirst_lines hslot h _ _

/-- The place of the second script is found if no line before it holds the reference. -/
theorem replaceFirst_bindings {slot : List Char} (hslot : OnOneLine slot)
    (h : ∀ line ∈ equippedLines s css content components, ¬ slot <:+: line.toList)
    (replacement : List Char) :
    replaceFirst slot replacement
        (pageWith s content (styleElement css) (componentText components).toList slot)
      = pageWith s content (styleElement css) (componentText components).toList replacement := by
  rw [pageWith_components, pageWith_components]
  exact replaceFirst_lines hslot h _ _

/-- What the three replacements make of a page. -/
def filled (bindings : String) : List Char :=
  replaceFirst (referenceText Page.Resources.linked.bindings) (inlineScript bindings).toList
    (replaceFirst (referenceText Page.Resources.linked.components) (componentText components).toList
      (pageWith s content (styleElement css) (referenceText Page.Resources.linked.components)
        (referenceText Page.Resources.linked.bindings)))

theorem opening_inlineScript (js : String) : scriptOpening <+: (inlineScript js).toList := by
  have hscript : voidTags.contains "script" = false := by decide
  rw [inlineScript, Preview.around, print_tag hscript]
  exact ⟨_, by simp [scriptOpening, attributesText]; rfl⟩

theorem opening_componentText : scriptOpening <+: (componentText components).toList := by
  rw [componentText, String.toList_append, String.toList_append, List.append_assoc]
  exact (opening_inlineScript _).trans (List.prefix_append _ _)

/-- **The replacements find the places of the page** exactly when neither the stylesheet nor the
markup of the elements holds a reference to a script. -/
theorem filled_eq_iff (hcomponents : Script.Closed components.toList) (bindings : String) :
    filled s content css components bindings
        = pageWith s content (styleElement css) (componentText components).toList
          (inlineScript bindings).toList
      ↔ ∀ slot ∈ scriptReferences,
          ¬ slot <:+: css.toList ∧ ¬ slot <:+: (printAll content).toList := by
  obtain ⟨hfirst, hsecond⟩ : referenceText Page.Resources.linked.components ∈ scriptReferences
      ∧ referenceText Page.Resources.linked.bindings ∈ scriptReferences :=
    ⟨List.mem_cons_self .., List.mem_cons_of_mem _ (List.mem_cons_self ..)⟩
  have hstyled := styledLines_free_iff s css content
  have hequipped := equippedLines_free_iff s css content hcomponents
  unfold filled
  by_cases hfree : ∀ line ∈ styledLines s css content,
      ¬ referenceText Page.Resources.linked.components <:+: line.toList
  · rw [replaceFirst_components s content css (onOneLine_script _ hfirst) hfree]
    by_cases hmore : ∀ line ∈ equippedLines s css content components,
        ¬ referenceText Page.Resources.linked.bindings <:+: line.toList
    · -- both places are found
      rw [replaceFirst_bindings s content css components (onOneLine_script _ hsecond) hmore]
      refine iff_of_true rfl ?_
      rintro slot hslot
      rcases List.mem_pair.mp hslot with rfl | rfl
      · exact (hstyled _ hfirst).mp hfree
      · exact (hequipped _ hsecond).mp hmore
    · -- the second reference stands before its place
      refine iff_of_false ?_ fun hall => hmore ((hequipped _ hsecond).mpr (hall _ hsecond))
      push Not at hmore
      rw [pageWith_components, pageWith_components]
      have hbindings := opening_inlineScript bindings
      exact (departs_of_lines (opening_script _ hsecond) hbindings hmore _ _).ne
  · -- the first reference stands before its place
    refine iff_of_false ?_ fun hall => hfree ((hstyled _ hfirst).mpr (hall _ hfirst))
    push Not at hfree
    rw [pageWith_style, pageWith_style]
    exact ((departs_of_lines (opening_script _ hfirst) (opening_componentText components) hfree _ _)
      |>.replaceFirst (opening_script _ hsecond) (opening_inlineScript bindings)).ne

end Filling

/-- The stylesheet of a window, as it stands in a preview, or the markup of its elements holds a
reference to a script. -/
def BringsReference (w : ExportWindow) (f : WindowFiles) (content : List Node) : Prop :=
  ∃ slot ∈ scriptReferences,
    slot <:+: (styleText (sheetOf w f)).toList ∨ slot <:+: (printAll content).toList

section Standalone

variable {s : PageSetting} {f : WindowFiles} {content : List Node}

/-- The preview of one window is its page after the three replacements. -/
theorem standalone_eq_filled (hpage : f.page = printAll (Page.around s .linked content))
    (w : ExportWindow) :
    (standalone w.fonts f).toList
      = filled s content (styleText (sheetOf w f)) f.components f.bindings := by
  have hstylesheet : referenceText (carriers w f).stylesheet
      = styleElement (styleText (sheetOf w f)) := referenceText_singleton _
  have hbindings : referenceText (carriers w f).bindings = (inlineScript f.bindings).toList :=
    referenceText_singleton _
  have hreference : referenceText Page.Resources.linked.stylesheet = stylesheetReference := rfl
  rw [standalone_eq, placed, String.toList_ofList, hpage, toList_around, hstylesheet, hbindings,
    referenceText_components, hreference, replaceFirst_stylesheet]
  rfl

theorem toList_around_carriers (w : ExportWindow) :
    (printAll (Page.around s (carriers w f) content)).toList
      = pageWith s content (styleElement (styleText (sheetOf w f)))
        (componentText f.components).toList (inlineScript f.bindings).toList := by
  have hstylesheet : referenceText (carriers w f).stylesheet
      = styleElement (styleText (sheetOf w f)) := referenceText_singleton _
  have hbindings : referenceText (carriers w f).bindings = (inlineScript f.bindings).toList :=
    referenceText_singleton _
  rw [toList_around, hstylesheet, hbindings, referenceText_components]

theorem standalone_eq_around_iff (hpage : f.page = printAll (Page.around s .linked content))
    (hcomponents : Script.Closed f.components.toList) (w : ExportWindow) :
    standalone w.fonts f = printAll (Page.around s (carriers w f) content)
      ↔ ¬ BringsReference w f content := by
  rw [← String.toList_inj, standalone_eq_filled hpage, toList_around_carriers,
    filled_eq_iff s content _ _ hcomponents]
  unfold BringsReference
  push Not
  exact Iff.rfl

end Standalone

theorem page_of_windowFiles {s : PageSetting} {elements : List Element} {f : WindowFiles}
    (h : windowFiles s elements = .ok f) :
    ∃ content, elementNodes s elements pageDepth = .ok content
      ∧ f.page = printAll (Page.around s .linked content) := by
  obtain ⟨page, hpage, h⟩ := (bind_eq_ok_iff _ _ _).mp h
  obtain ⟨stylesheet, _, h⟩ := (bind_eq_ok_iff _ _ _).mp h
  obtain ⟨components, _, h⟩ := (bind_eq_ok_iff _ _ _).mp h
  obtain ⟨bindings, _, h⟩ := (bind_eq_ok_iff _ _ _).mp h
  obtain ⟨content, hcontent, hprinted⟩ := (bind_eq_ok_iff _ _ _).mp hpage
  cases h
  exact ⟨content, hcontent, (Except.ok.inj hprinted).symm⟩

/-! ## §8. A reference as text and as a colour. -/

/-- A reference to a script. -/
def scriptTag : String := "<script src=\"components.js\"></script>"

/-- A label with a reference to a script as its text. -/
def referenceLabel : Element :=
  ⟨.label, Element.assign .label
    [("id", .text "a"), ("name", .text "Note"), ("text", .text scriptTag)]⟩

/-- A black window with such a label. -/
def labelled : ExportWindow := ⟨coloredWindow "Main" "#000", "main", [referenceLabel], [], []⟩

/-- A window with a reference to a script as its colour, which shows nothing. -/
def colored : ExportWindow := ⟨coloredWindow "Main" scriptTag, "main", [], [], []⟩

/-- The files of a window alone. -/
def filesOf (w : ExportWindow) : Except Fault WindowFiles :=
  windowFiles (PageSetting.ofWindow w.window) w.elements

/-- The rule of the label. -/
def labelRule : Stylesheet.Rule := ((Stylesheet.elementRule referenceLabel).toOption).getD default

/-- The sections of the stylesheet of the window with the label. -/
def labelSections : List Stylesheet.Section :=
  [Stylesheet.resetSection] ++ colorSections "#000" ++ [Stylesheet.baseSection]
    ++ [Stylesheet.textSection] ++ [⟨"Element-specific styles", [labelRule]⟩]

theorem elementRule_referenceLabel : Stylesheet.elementRule referenceLabel = .ok labelRule := by
  obtain ⟨r, hr⟩ : ∃ r, Stylesheet.elementRule referenceLabel = .ok r :=
    exists_of_isOk (by decide)
  rw [labelRule, hr]
  rfl

theorem render_labelled :
    ∃ css, Stylesheet.render (PageSetting.ofWindow labelled.window) labelled.elements = .ok css
      ∧ css.toList = Stylesheet.sheetChars labelSections ++ ['\n'] := by
  obtain ⟨t, ht⟩ : ∃ t, PageSetting.ofWindow labelled.window = t := ⟨_, rfl⟩
  have hroot : Stylesheet.rootSections t.window t.responsive = .ok (colorSections "#000") := by
    rw [← ht]
    rfl
  have horder : Layout.renderOrder t.layers [referenceLabel] = .ok [referenceLabel] := by
    rw [← ht, Layout.renderOrder, if_pos (by decide), Layout.ordered,
      List.mergeSort_singleton]
  have hown : Stylesheet.elementSections t [referenceLabel]
      = .ok [⟨"Element-specific styles", [labelRule]⟩] := by
    rw [Stylesheet.elementSections, horder, ok_bind, if_neg (by decide), List.mapM_cons,
      elementRule_referenceLabel]
    rfl
  have hfamilies : Stylesheet.families [referenceLabel] = [.text] := by decide
  have hcaption : [referenceLabel].any Stylesheet.hasCaption = false := by decide
  rw [ht]
  refine Stylesheet.exists_render ?_
  rw [Stylesheet.sections, hroot, ok_bind]
  show (Stylesheet.elementSections t [referenceLabel] >>= fun own => _) = _
  rw [hown, ok_bind]
  show Except.ok (_ ++ (Stylesheet.families [referenceLabel]).map Stylesheet.familySection
    ++ (if [referenceLabel].any Stylesheet.hasCaption then _ else _) ++ _) = _
  rw [hfamilies, hcaption, ← ht]
  rfl

/-- The label is the root of its forest. -/
theorem renderTree_labelled :
    Layout.renderTree (PageSetting.ofWindow labelled.window).layers labelled.elements
      = .ok [.node referenceLabel []] := by
  refine Layout.renderTree_of_flat ⟨?_, List.nodup_singleton _⟩ (by decide)
    (List.pairwise_singleton _ _) (by decide)
  intro e he
  rw [List.mem_singleton.mp he]
  exact ⟨"a", rfl⟩

/-- Both windows have files.  No tag stands in the stylesheet of the one with the label and no script
begins in its markup, where the text is escaped; the colour brings a reference into a stylesheet. -/
theorem windows_read :
    ((filesOf labelled).isOk = true ∧ (filesOf colored).isOk = true)
      ∧ (∀ t ∈ labelSections.flatMap Stylesheet.sectionTexts, 0x3C ∉ bytes t)
      ∧ (treeNodes (PageSetting.ofWindow labelled.window) pageDepth
          [.node referenceLabel []]).toOption.any (fun lines =>
            !(lines.intersperse [.raw "\n"]).flatten.isEmpty
              && decide (¬ referenceOpening.flatMap String.utf8EncodeChar
                <:+: bytes (printAll (lines.intersperse [.raw "\n"]).flatten))) = true
      ∧ ∃ slot ∈ scriptReferences,
        occursIn slot (replaceAll "</style".toList "<\\/style".toList (colorSheet scriptTag))
          = true := by
  decide +kernel

theorem not_mem_labelSheet : '<' ∉ Stylesheet.sheetChars labelSections ++ ['\n'] := by
  have hsheet := Stylesheet.not_mem_sheetChars fun t ht =>
    not_mem_of_bytes (windows_read.2.1 t ht)
  simpa using hsheet

/-- Where no script begins, there is no reference to one. -/
theorem brings_none {w : ExportWindow} {f : WindowFiles} {content : List Node}
    (hsheet : '<' ∉ (styleText (sheetOf w f)).toList)
    (hmarkup : ¬ referenceOpening <:+: (printAll content).toList) :
    ¬ BringsReference w f content := by
  rintro ⟨slot, hslot, hoccurs⟩
  have hopens : referenceOpening <:+: slot := (opening_script slot hslot).isInfix
  rcases hoccurs with hoccurs | hoccurs
  · exact hsheet ((hopens.trans hoccurs).subset (by decide))
  · exact hmarkup (hopens.trans hoccurs)

/-- The stylesheet of a window without fonts, as it stands in a preview. -/
theorem toList_styleText {w : ExportWindow} {f : WindowFiles} (hf : filesOf w = .ok f)
    (hfonts : w.fonts = []) {chars : List Char}
    (h : ∃ css, Stylesheet.render (PageSetting.ofWindow w.window) w.elements = .ok css
      ∧ css.toList = chars) :
    (styleText (sheetOf w f)).toList = replaceAll "</style".toList "<\\/style".toList chars := by
  obtain ⟨css, hcss, rfl⟩ := h
  have hsame : f.stylesheet = css :=
    Except.ok.inj ((stylesheet_of_windowFiles hf).symm.trans hcss)
  rw [sheetOf, hfonts, hsame]
  exact String.toList_ofList

theorem exists_labelledContent :
    ∃ content, elementNodes (PageSetting.ofWindow labelled.window) labelled.elements pageDepth
        = .ok content
      ∧ content ≠ [] ∧ ¬ referenceOpening <:+: (printAll content).toList := by
  obtain ⟨lines, hlines, hchecked⟩ := exists_of_any windows_read.2.2.1
  obtain ⟨hsome, hfree⟩ := Bool.and_eq_true_iff.mp hchecked
  rw [Bool.not_eq_true', List.isEmpty_eq_false_iff] at hsome
  generalize hcontent : (lines.intersperse [.raw "\n"]).flatten = content at hsome hfree
  refine ⟨content, ?_, hsome, ?_⟩
  · rw [elementNodes, renderTree_labelled, ok_bind, hlines, ← hcontent]
    rfl
  · exact mt infix_bytes (of_decide_eq_true hfree)

/-- **Which previews are their page with its own places filled**: all but those of windows whose
stylesheet or markup holds a reference to a script.  Titles, names and scripts never matter. -/
theorem standalone_fills_iff {s : PageSetting} {elements : List Element} {f : WindowFiles}
    (h : windowFiles s elements = .ok f) (w : ExportWindow) :
    ∃ content, elementNodes s elements pageDepth = .ok content
      ∧ f.page = printAll (Page.around s .linked content)
      ∧ (standalone w.fonts f = printAll (Page.around s (carriers w f) content)
          ↔ ¬ BringsReference w f content) := by
  obtain ⟨content, hcontent, hpage⟩ := page_of_windowFiles h
  exact ⟨content, hcontent, hpage,
    standalone_eq_around_iff hpage (Script.closed_components (scripts_of_windowFiles h).1) w⟩

/-- The preview of a window with a reference as the text of a label is its page with its own places
filled. -/
theorem labelledWindow_fills : ∃ f content,
    windowFiles (PageSetting.ofWindow labelled.window) labelled.elements = .ok f
      ∧ elementNodes (PageSetting.ofWindow labelled.window) labelled.elements pageDepth = .ok content
      ∧ content ≠ []
      ∧ standalone [] f = printAll
          (Page.around (PageSetting.ofWindow labelled.window) (carriers labelled f) content) := by
  obtain ⟨f, hf⟩ : ∃ f, filesOf labelled = .ok f := exists_of_isOk windows_read.1.1
  obtain ⟨content, hcontent, hsome, hmarkup⟩ := exists_labelledContent
  obtain ⟨content', hcontent', _, hfills⟩ := standalone_fills_iff hf labelled
  cases hcontent.symm.trans hcontent'
  have hsheet : '<' ∉ (styleText (sheetOf labelled f)).toList := by
    have hopening : "</style".toList = '<' :: "/style".toList := by decide
    rw [toList_styleText hf rfl render_labelled, hopening,
      replaceAll_of_not_mem not_mem_labelSheet]
    exact not_mem_labelSheet
  have hnone : ¬ BringsReference labelled f content := brings_none hsheet hmarkup
  exact ⟨f, content, hf, hcontent, hsome, hfills.mpr hnone⟩

/-- A window whose colour is a reference to a script: the script stands in the stylesheet. -/
theorem referenceColor_not_filled : ∃ f content,
    windowFiles (PageSetting.ofWindow colored.window) [] = .ok f
      ∧ elementNodes (PageSetting.ofWindow colored.window) [] pageDepth = .ok content
      ∧ standalone [] f ≠ printAll
          (Page.around (PageSetting.ofWindow colored.window) (carriers colored f) content) := by
  obtain ⟨f, hf⟩ : ∃ f, filesOf colored = .ok f := exists_of_isOk windows_read.1.2
  obtain ⟨content, hcontent, hpage⟩ := page_of_windowFiles hf
  refine ⟨f, content, hf, hcontent, fun heq => ?_⟩
  have hcomponents := Script.closed_components (scripts_of_windowFiles hf).1
  refine (standalone_eq_around_iff hpage hcomponents colored).mp heq ?_
  obtain ⟨slot, hslot, hoccurs⟩ := windows_read.2.2.2
  refine ⟨slot, hslot, Or.inl ?_⟩
  rw [toList_styleText hf rfl (render_colored rfl rfl rfl)]
  exact occursIn_iff.mp hoccurs

end ControlSurface.Preview
