/-
  ControlSurface.Proofs.Preview.Content
  ─────────────────────────────────────
  The markup of a window taken out of its page.  A page is searched for the first tag that begins
  like its container, and for the last two boxes that end; title, identity and name of the window
  are escaped and bring neither, and whatever stands in the markup stands between them.  The markup
  begins with the indentation of its first line and ends with the tag of its last element, so
  trimming takes away what the page has put around it and nothing else.

  Main result:
    * `content_render` — a page is made exactly when the markup of its elements is, with the same
      fault if neither is, and what is taken out of the page is that markup.
-/
import ControlSurface.Proofs.Markup.Kinds
import ControlSurface.Proofs.Number.Plain
import ControlSurface.Proofs.Preview.Slots

namespace ControlSurface.Preview

open ControlSurface.Markup ControlSurface.Outcome ControlSurface.Text
open ControlSurface.Number (trimEndBy_append_cons trimEndBy_all)

/-! ## §1. How the markup of elements begins and ends. -/

/-- A text that begins with a space and ends with a tag. -/
def Spans (cs : List Char) : Prop := ∃ middle, cs = ' ' :: (middle ++ ['>'])

/-- An element ends with a tag, its own start tag or its end tag. -/
theorem exists_print_element (name : String) (attributes : Attributes) (body : List Node) :
    ∃ front, (print (.element name attributes body)).toList = front ++ ['>'] := by
  rw [print]
  split
  · exact ⟨("<" ++ name ++ attributesText attributes).toList, by simp⟩
  · exact ⟨("<" ++ name ++ attributesText attributes ++ ">" ++ printAll body ++ "</"
      ++ name).toList, by simp⟩

/-- An element on a line of its own. -/
def IsLine (depth : Nat) (line : List Node) : Prop :=
  ∃ name attributes body, line = [.raw (indent depth), .element name attributes body]

theorem IsLine.spans {depth : Nat} {line : List Node} (h : IsLine (depth + 1) line) :
    Spans (printAll line).toList := by
  obtain ⟨name, attributes, body, rfl⟩ := h
  obtain ⟨front, hfront⟩ := exists_print_element name attributes body
  have hindent : (indent (depth + 1)).toList = ' ' :: List.replicate (2 * depth + 1) ' ' := by
    rw [indent, String.toList_ofList, ← List.replicate_succ]
    rfl
  refine ⟨List.replicate (2 * depth + 1) ' ' ++ front, ?_⟩
  rw [printAll_cons, printAll_cons, printAll, Markup.print, String.toList_append,
    String.toList_append, hindent, hfront]
  simp

/-- Lines that begin with a space and end with a tag are a text that does. -/
theorem spans_lines {lines : List (List Node)} (hne : lines ≠ [])
    (h : ∀ line ∈ lines, Spans (printAll line).toList) :
    Spans (printAll (lines.intersperse [.raw "\n"]).flatten).toList := by
  induction lines with
  | nil => exact absurd rfl hne
  | cons line lines ih =>
    obtain ⟨hline, hlines⟩ := List.forall_mem_cons.mp h
    cases lines with
    | nil => simpa using hline
    | cons next rest =>
      obtain ⟨first, hfirst⟩ := hline
      obtain ⟨last, hlast⟩ := ih (List.cons_ne_nil _ _) hlines
      rw [List.intersperse_cons_cons, List.flatten_cons, List.flatten_cons, printAll_append,
        printAll_append, String.toList_append, String.toList_append, hfirst, hlast]
      exact ⟨first ++ '>' :: '\n' :: ' ' :: last, by simp [printAll, Markup.print]⟩

/-- Every tree of a forest is an element on a line of its own. -/
theorem isLine_of_treeNodes {s : PageSetting} {depth : Nat} {ts : List Layout.Tree}
    {lines : List (List Node)} (h : treeNodes s depth ts = .ok lines) :
    ∀ line ∈ lines, IsLine depth line := by
  induction ts generalizing lines with
  | nil =>
    rw [treeNodes] at h
    cases h
    exact fun line hline => absurd hline List.not_mem_nil
  | cons t ts ih =>
    rw [treeNodes] at h
    obtain ⟨n, hn, h⟩ := (bind_eq_ok_iff _ _ _).mp h
    obtain ⟨rest, hrest, h⟩ := (bind_eq_ok_iff _ _ _).mp h
    cases h
    refine List.forall_mem_cons.mpr ⟨?_, ih hrest⟩
    cases t with
    | node e children =>
      rw [treeNode] at hn
      obtain ⟨inner, _, hn⟩ := (bind_eq_ok_iff _ _ _).mp hn
      obtain ⟨f, domId, more, _, _, rfl, _⟩ := exists_of_elementNode hn
      exact ⟨_, _, _, rfl⟩

/-- **The markup of the elements of a page** is empty, or begins with a space and ends with a
tag. -/
theorem spans_elementNodes {s : PageSetting} {elements : List Element} {depth : Nat}
    {content : List Node} (h : elementNodes s elements (depth + 1) = .ok content) :
    (printAll content).toList = [] ∨ Spans (printAll content).toList := by
  obtain ⟨ts, _, h⟩ := (bind_eq_ok_iff _ _ _).mp h
  obtain ⟨lines, hlines, h⟩ := (bind_eq_ok_iff _ _ _).mp h
  cases h
  by_cases hne : lines = []
  · subst hne
    exact Or.inl rfl
  · exact Or.inr (spans_lines hne fun line hline => (isLine_of_treeNodes hlines line hline).spans)

/-! ## §2. Trimming. -/

/-- What a page puts between the markup and the tag that ends its container. -/
def beforeEnd : List Char := "\n    ".toList

/-- **Trimming takes away the lines of the page around the markup**, and nothing of the markup. -/
theorem bare_around {cs : List Char} (h : cs = [] ∨ Spans cs) :
    bare ('\n' :: (cs ++ beforeEnd)) = cs := by
  obtain rfl | ⟨middle, rfl⟩ := h
  · decide
  · have hblank : trimEndBy isBlank beforeEnd = [] := by decide
    have hend : trimEndBy isBlank ('\n' :: ' ' :: (middle ++ ['>'] ++ beforeEnd))
        = '\n' :: ' ' :: (middle ++ ['>']) := by
      have hstop := trimEndBy_append_cons (p := isBlank) (c := '>') (by decide)
        ('\n' :: ' ' :: middle) beforeEnd
      rw [hblank] at hstop
      simpa using hstop
    have hstart : trimStartBy (· = '\n') ('\n' :: ' ' :: (middle ++ ['>']))
        = ' ' :: (middle ++ ['>']) := by
      rw [trimStartBy, List.dropWhile_cons_of_pos (by decide),
        List.dropWhile_cons_of_neg (by decide)]
    rw [bare, List.cons_append, hend, trimBy, hstart]
    exact trimEndBy_append_cons (p := (· = '\n')) (by decide) (' ' :: middle) []

/-! ## §3. The container of a page. -/

/-- The lines of a page before the line of its container. -/
def linesBefore (s : PageSetting) : List String :=
  Page.headLines s ++ ["  " ++ printAll Page.Resources.linked.stylesheet, "</head>", "<body>",
    "  <div id=\"plugin-wrapper\">"]

/-- What stands in a page before its container. -/
def beforeContainer (s : PageSetting) : List Char :=
  (Script.ofLines (linesBefore s)).toList ++ List.replicate 4 ' '

/-- What the start tag of the container of a page tells of its window. -/
def containerData (s : PageSetting) : List Char :=
  " data-window-id=\"".toList ++ (Text.escape s.window.id).toList
    ++ "\" data-window-name=\"".toList ++ (Text.escape s.window.name.toText).toList ++ ['"']

/-- What stands in a page after the boxes of its window. -/
def afterBoxes : List Char :=
  '\n' :: "  ".toList ++ (printAll Page.Resources.linked.components).toList ++ "\n  ".toList
    ++ (printAll Page.Resources.linked.bindings).toList ++ Page.foot.toList

theorem toList_containerLine (s : PageSetting) :
    (Page.containerLine s).toList
      = List.replicate 4 ' ' ++ (containerStart ++ (containerData s ++ ['>'])) := by
  have hstart : "    <div id=\"plugin-container\" data-window-id=\"".toList
      = List.replicate 4 ' ' ++ (containerStart ++ " data-window-id=\"".toList) := by decide
  have hend : "\">".toList = ['"'] ++ ['>'] := by decide
  unfold Page.containerLine containerData
  simp only [String.toList_append, hstart, hend, List.append_assoc]

/-- What stands in a page from the markup on. -/
def fromMarkup (content : List Node) : List Char :=
  '\n' :: ((printAll content).toList ++ beforeEnd)
    ++ (boxEnd ++ ("\n  ".toList ++ (boxEnd ++ afterBoxes)))

/-- **A page around the boxes of its window.** -/
theorem toList_page (s : PageSetting) (content : List Node) :
    (printAll (Page.around s .linked content)).toList
      = beforeContainer s ++ (containerStart ++ (containerData s ++ '>' :: fromMarkup content)) := by
  have hbody : (Script.ofLines (Page.bodyLines s content)).toList
      = (Script.ofLines ["</head>", "<body>", "  <div id=\"plugin-wrapper\">"]).toList
        ++ ((Page.containerLine s).toList ++ '\n' :: ((printAll content).toList ++ '\n' ::
          ("    </div>".toList ++ '\n' :: ("  </div>".toList ++ ['\n'])))) := by
    unfold Page.bodyLines
    simp only [Script.toList_ofLines, List.flatMap_cons, List.flatMap_nil, List.append_assoc,
      List.cons_append, List.nil_append, List.append_nil]
  have hbefore : (Script.ofLines (linesBefore s)).toList
      = (Script.ofLines (Page.headLines s)).toList ++ ("  ".toList
        ++ ((printAll Page.Resources.linked.stylesheet).toList ++ ("\n".toList
        ++ (Script.ofLines ["</head>", "<body>", "  <div id=\"plugin-wrapper\">"]).toList))) := by
    have hbreak : "\n".toList = ['\n'] := by decide
    rw [linesBefore, toList_ofLines_append, Script.toList_ofLines_cons, String.toList_append, hbreak]
    simp only [List.append_assoc, List.singleton_append]
  have hboxes : '\n' :: ("    </div>".toList ++ '\n' :: ("  </div>".toList ++ ['\n']))
      = beforeEnd ++ (boxEnd ++ ("\n  ".toList ++ (boxEnd ++ ['\n']))) := by decide
  rw [Page.printAll_around]
  simp only [String.toList_append, beforeContainer, hbefore, hbody, hboxes, toList_containerLine,
    fromMarkup, afterBoxes, List.append_assoc, List.cons_append, List.nil_append]

/-! ## §4. Finding the markup. -/

/-- A character that a text does not hold is not found in it. -/
theorem unbroken_of_not_mem {mark : Char} {cs : List Char} (h : mark ∉ cs) : Unbroken [mark] cs := by
  induction cs with
  | nil => trivial
  | cons c cs ih =>
    rw [List.mem_cons, not_or] at h
    exact ⟨if_neg h.1, ih h.2⟩

/-- The last occurrence of a pattern is found if it does not occur after it. -/
theorem cutAtLast?_append {pattern rest : List Char} (h : Unbroken pattern.reverse rest.reverse)
    (cs : List Char) : cutAtLast? pattern (cs ++ (pattern ++ rest)) = some (cs, rest) := by
  have hcut : cutAt? pattern.reverse (cs ++ (pattern ++ rest)).reverse
      = some (rest.reverse, cs.reverse) :=
    cutAt?_eq_some_iff.mpr ⟨by simp, h⟩
  rw [cutAtLast?, hcut, Option.map_some]
  dsimp only
  rw [List.reverse_reverse, List.reverse_reverse]

/-- No line of a page before its container holds a tag that begins like one. -/
theorem linesBefore_free (s : PageSetting) :
    ∀ line ∈ linesBefore s, ¬ containerStart <:+: line.toList := by
  have hfixed : ∀ line ∈ ["<!DOCTYPE html>", "<html lang=\"en\">", "<head>",
      "  <meta charset=\"UTF-8\">",
      "  <meta name=\"viewport\" content=\"width=device-width, initial-scale=1.0\">",
      "  " ++ printAll Page.Resources.linked.stylesheet, "</head>", "<body>",
      "  <div id=\"plugin-wrapper\">"], ¬ containerStart <:+: line.toList := by
    decide +kernel
  unfold linesBefore Page.headLines
  simp only [List.forall_mem_append, List.forall_mem_cons, List.not_mem_nil, IsEmpty.forall_iff,
    implies_true, and_true] at hfixed ⊢
  simp only [hfixed, not_infix_titleLine s (by decide : '"' ∈ containerStart), not_false_eq_true,
    and_true]

/-- **The container is the first tag that begins like one.** -/
theorem cut_container (s : PageSetting) (content : List Node) :
    cutAt? containerStart (printAll (Page.around s .linked content)).toList
      = some (beforeContainer s, containerData s ++ '>' :: fromMarkup content) := by
  have hform : OnOneLine containerStart := ⟨rfl, by decide⟩
  rw [cutAt?_eq_some_iff, toList_page, beforeContainer, unbroken_lines hform]
  exact ⟨rfl, linesBefore_free s⟩

/-- No bracket closes the start tag of the container before its end. -/
theorem cut_startTag (s : PageSetting) (rest : List Char) :
    cutAt? ['>'] (containerData s ++ '>' :: rest) = some (containerData s, rest) := by
  have hclosing : '>' ∉ containerData s := by
    unfold containerData
    simp only [List.mem_append, not_or]
    exact ⟨⟨⟨⟨by decide, not_mem_escape (by decide) _⟩, by decide⟩,
      not_mem_escape (by decide) _⟩, by decide⟩
  rw [cutAt?_eq_some_iff]
  exact ⟨rfl, unbroken_of_not_mem hclosing⟩

/-- No box ends behind the boxes of a window. -/
theorem unbroken_afterBoxes : Unbroken boxEnd.reverse afterBoxes.reverse := by
  have hcut : cutAt? boxEnd.reverse (afterBoxes.reverse ++ (boxEnd.reverse ++ []))
      = some (afterBoxes.reverse, []) := by decide
  exact (cutAt?_eq_some_iff.mp hcut).2

/-- The last two boxes that end are those of the window. -/
theorem cut_boxes (content : List Node) :
    cutAtLast? boxEnd (fromMarkup content)
      = some ('\n' :: ((printAll content).toList ++ beforeEnd) ++ (boxEnd ++ "\n  ".toList),
          afterBoxes)
    ∧ cutAtLast? boxEnd
        ('\n' :: ((printAll content).toList ++ beforeEnd) ++ (boxEnd ++ "\n  ".toList))
      = some ('\n' :: ((printAll content).toList ++ beforeEnd), "\n  ".toList) := by
  have hlast := cutAtLast?_append unbroken_afterBoxes
    ('\n' :: ((printAll content).toList ++ beforeEnd) ++ (boxEnd ++ "\n  ".toList))
  have hbetween : Unbroken boxEnd.reverse "\n  ".toList.reverse := by simp [Unbroken, after?, boxEnd]
  refine ⟨?_, cutAtLast?_append hbetween _⟩
  rw [← hlast, fromMarkup]
  simp only [List.append_assoc]

/-- **The markup is found in its page**, whatever it holds. -/
theorem content_around (s : PageSetting) {content : List Node}
    (h : (printAll content).toList = [] ∨ Spans (printAll content).toList) :
    Preview.content (printAll (Page.around s .linked content)) = printAll content := by
  obtain ⟨hlast, hcontainer⟩ := cut_boxes content
  unfold Preview.content
  rw [cut_container]
  simp only [cut_startTag, hlast, hcontainer, Option.bind_eq_bind, Option.bind_some,
    Option.getD_some, bare_around h]
  exact String.ofList_toList

/-- **Taking the markup out of a page undoes putting it in**: a page is made exactly when the markup
of its elements is, and holds it. -/
theorem content_render (s : PageSetting) (elements : List Element) :
    Preview.content <$> Page.render s elements = renderElements s elements pageDepth := by
  unfold Page.render renderElements
  cases hcontent : elementNodes s elements pageDepth with
  | error f => rfl
  | ok content =>
    exact congrArg Except.ok (content_around s (spans_elementNodes hcontent))

end ControlSurface.Preview
