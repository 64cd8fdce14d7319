/-
  ControlSurface.Proofs.Script.EndTags
  ────────────────────────────────────
  End tags in scripts.  No end tag starts in a line of the scripts that are always the same, nor in
  a literal, nor in a number; line breaks, quotes and blanks stand in no end tag, so a script is
  searched piece by piece.  What remains is the name of the window, which stands in a comment as it
  is: the script of a window holds an end tag exactly when this name does
  (`holdsTag_bindingsScript_iff`).  White space and quotes stand in no end tag either, so a name
  that is written with single spaces and other quotes holds an end tag exactly when it held one
  before (`holdsTag_commentName_iff`).
-/
import ControlSurface.Proofs.Script.Decoding
import ControlSurface.Proofs.Text.EndTag
import ControlSurface.Script.Component
import Mathlib.Data.List.SplitBy

namespace ControlSurface.Script

open ControlSurface.Text ControlSurface.Outcome

/-! ## §1. Texts in which no end tag starts. -/

/-- No end tag starts in a text. -/
def Closed (cs : List Char) : Prop := ¬ endTag <:+: cs

theorem closed_cons_iff {c : Char} {cs : List Char} :
    Closed (c :: cs) ↔ ¬ (c = '<' ∧ cs.head? = some '/') ∧ Closed cs := by
  unfold Closed
  rw [List.infix_cons_iff, not_or]
  refine and_congr_left fun _ => not_congr ?_
  constructor
  · rintro ⟨rest, hrest⟩
    obtain ⟨rfl, rfl⟩ := List.cons.inj hrest
    exact ⟨rfl, rfl⟩
  · rintro ⟨rfl, hhead⟩
    obtain ⟨rest, rfl⟩ := List.head?_eq_some_iff.mp hhead
    exact ⟨rest, rfl⟩

/-- A character that is neither of the two parts a text. -/
theorem closed_apart {c : Char} (hopening : c ≠ '<') (hslash : c ≠ '/') {front rest : List Char}
    (hfront : Closed front) (hrest : Closed rest) : Closed (front ++ c :: rest) := by
  induction front with
  | nil => exact closed_cons_iff.mpr ⟨fun h => hopening h.1, hrest⟩
  | cons d front ih =>
    obtain ⟨hstart, hmore⟩ := closed_cons_iff.mp hfront
    refine closed_cons_iff.mpr ⟨?_, ih hmore⟩
    rintro ⟨hd, hhead⟩
    cases front with
    | nil => exact hslash (Option.some.inj hhead)
    | cons e front => exact hstart ⟨hd, hhead⟩

theorem closed_of_not_mem {cs : List Char} (h : '<' ∉ cs) : Closed cs := by
  rintro ⟨before, after, rfl⟩
  exact h (by simp [endTag])

/-- A script is searched line by line. -/
theorem closed_ofLines {lines : List String} (h : ∀ l ∈ lines, Closed l.toList) :
    Closed (ofLines lines).toList := by
  rw [toList_ofLines]
  induction lines with
  | nil => exact closed_of_not_mem List.not_mem_nil
  | cons l lines ih =>
    rw [List.flatMap_cons, List.append_assoc]
    exact closed_apart (by decide) (by decide) (h l (List.mem_cons_self ..))
      (ih fun l' hl' => h l' (List.mem_cons_of_mem l hl'))

/-- Two texts, the second on lines of its own. -/
theorem closed_below {above below : String} (habove : Closed above.toList)
    (hbelow : Closed below.toList) : Closed (above ++ "\n" ++ below).toList := by
  have hbreak : (above ++ "\n" ++ below).toList = above.toList ++ '\n' :: below.toList := by simp
  rw [hbreak]
  exact closed_apart (by decide) (by decide) habove hbelow

/-! ## §2. Scripts that are always the same. -/

/-- Whether no end tag starts in a text. -/
def isClosed : List Char → Bool
  | [] => true
  | c :: cs => !(c == '<' && cs.head? == some '/') && isClosed cs

theorem closed_of_isClosed {cs : List Char} (h : isClosed cs = true) : Closed cs := by
  induction cs with
  | nil => exact closed_of_not_mem List.not_mem_nil
  | cons c cs ih =>
    rw [isClosed, Bool.and_eq_true] at h
    refine closed_cons_iff.mpr ⟨?_, ih h.2⟩
    rintro ⟨rfl, hhead⟩
    rw [hhead] at h
    exact absurd h.1 (by decide)

/-- A line in which no end tag starts. -/
def ClosedLine (line : String) : Prop := ∃ cs, line = String.ofList cs ∧ isClosed cs = true

theorem ClosedLine.closed {line : String} (h : ClosedLine line) : Closed line.toList := by
  obtain ⟨cs, rfl, hcs⟩ := h
  rw [String.toList_ofList]
  exact closed_of_isClosed hcs

/-- Lines that are written out character by character. -/
def Written (lines : List String) (css : List (List Char)) : Prop :=
  lines = css.map String.ofList

theorem written_nil : Written [] [] := rfl

theorem written_cons {l : String} {cs : List Char} {lines : List String} {css : List (List Char)}
    (hline : l = String.ofList cs) (hlines : Written lines css) :
    Written (l :: lines) (cs :: css) := by
  rw [Written, List.map_cons, hline, hlines]

theorem closedLine_of_written {lines : List String} {css : List (List Char)}
    (hlines : Written lines css) (hclosed : css.all isClosed = true) :
    ∀ l ∈ lines, ClosedLine l := by
  intro l hl
  rw [hlines] at hl
  obtain ⟨cs, hcs, rfl⟩ := List.mem_map.mp hl
  exact ⟨cs, rfl, List.all_eq_true.mp hclosed cs hcs⟩

/-- The texts that stand in scripts whatever the window is, beside those of the families. -/
inductive FixedScript where
  | closing | scaleClosing | relay | scrollbars | router | head | tail

def FixedScript.lines : FixedScript → List String
  | .closing => closingLines
  | .scaleClosing => scaleClosingLines
  | .relay => mockRelay
  | .scrollbars => scrollbarScript
  | .router => navigationScript
  | .head => runtimeHead
  | .tail => runtimeTail

theorem closedLine_fixedScript (f : FixedScript) : ∀ l ∈ f.lines, ClosedLine l := by
  cases f
  all_goals
    apply closedLine_of_written
    · simp only [FixedScript.lines, closingLines, scaleClosingLines, bindingsTemplate,
        scaleTemplate, mockRelay, scrollbarScript, navigationScript, runtimeHead, runtimeTail,
        List.drop_succ_cons, List.drop_zero]
      repeat' first
        | exact written_nil
        | apply written_cons rfl
        | apply written_cons (ofList_append rfl rfl)
    · decide

theorem closedLine_familyScript (f : Family) : ∀ l ∈ familyScript f, ClosedLine l := by
  cases f
  all_goals
    apply closedLine_of_written
    · simp only [familyScript, rotaryScript, linearScript, rangeScript, multiSliderScript,
        asciiScript, switchScript, choiceScript, multiChoiceScript, menuScript, stepperScript,
        listScript, meterScript, readoutScript, matrixScript, canvasScript, keyboardScript,
        padScript, gridScript, xyPadScript, loopScript, harmonicScript, containerScript]
      repeat' first
        | exact written_nil
        | apply written_cons rfl
        | apply written_cons (ofList_append rfl rfl)
    · decide

theorem closed_fixedLine (f : FixedScript) {l : String} (h : l ∈ f.lines) : Closed l.toList :=
  (closedLine_fixedScript f l h).closed

theorem closed_fixedScript (f : FixedScript) : Closed (ofLines f.lines).toList :=
  closed_ofLines fun _ => closed_fixedLine f

theorem closed_runtime (found : List Family) :
    Closed (ofLines (runtimeHead ++ found.flatMap familyScript ++ runtimeTail)).toList := by
  apply closed_ofLines
  intro l hl
  rw [List.mem_append, List.mem_append] at hl
  rcases hl with (hl | hl) | hl
  · exact closed_fixedLine .head hl
  · obtain ⟨f, _, hf⟩ := List.mem_flatMap.mp hl
    exact (closedLine_familyScript f l hf).closed
  · exact closed_fixedLine .tail hl

/-- **No end tag starts in a component script.** -/
theorem closed_components {s : PageSetting} {elements : List Element} {text : String}
    (h : components s elements = .ok text) : Closed text.toList := by
  obtain ⟨found, _, h⟩ := (bind_eq_ok_iff _ _ _).mp h
  have htext := Except.ok.inj h
  by_cases hscroll : (s.customScrollbars && needsScrollbars elements) = true
  · rw [if_pos hscroll] at htext
    rw [← htext]
    exact closed_below (closed_runtime found) (closed_fixedScript .scrollbars)
  · rw [if_neg hscroll] at htext
    rw [← htext]
    exact closed_runtime found

/-! ## §3. The script of a window. -/

/-- The plain text of a value holds nothing but the characters of numbers. -/
theorem plain_value_chars {v : Value} {text : String} (h : v.plain = .ok text) :
    ∀ c ∈ text.toList, Number.isNumberChar c = true := by
  unfold Value.plain Value.plainTo at h
  split at h
  next b =>
    rw [← Except.ok.inj h]
    cases b
    · exact List.all_eq_true.mp (by decide)
    · exact List.all_eq_true.mp (by decide)
  next i =>
    rw [← Except.ok.inj h]
    exact Number.plain_chars 0 (.int i)
  next =>
    obtain ⟨fixed, hfixed, h⟩ := (bind_eq_ok_iff _ _ _).mp h
    have hchars : ∀ c ∈ fixed.toList, Number.isNumberChar c = true := by
      unfold Value.fixed at hfixed
      split at hfixed
      all_goals first
        | cases hfixed
        | obtain ⟨n, _, hfixed⟩ := (bind_eq_ok_iff _ _ _).mp hfixed
          obtain ⟨x, _, hfixed⟩ := (bind_eq_ok_iff _ _ _).mp hfixed
          rw [← Except.ok.inj hfixed, String.toList_ofList]
          exact Number.fixed_chars n x
    rw [← Except.ok.inj h, String.toList_ofList]
    exact Number.stripped_chars hchars

theorem closed_plain {v : Value} {text : String} (h : v.plain = .ok text) :
    Closed text.toList :=
  closed_of_not_mem fun hmem => absurd (plain_value_chars h '<' hmem) (by decide)

/-- Text that does not end with the start of an end tag goes on with any other text. -/
theorem closed_append {front rest : List Char} (hfront : Closed front)
    (hlast : front.getLast? ≠ some '<') (hrest : Closed rest) : Closed (front ++ rest) := by
  induction front with
  | nil => exact hrest
  | cons c front ih =>
    obtain ⟨hstart, hmore⟩ := closed_cons_iff.mp hfront
    cases front with
    | nil => exact closed_cons_iff.mpr ⟨fun h => hlast (by rw [h.1]; rfl), hrest⟩
    | cons d front =>
      rw [List.getLast?_cons_cons] at hlast
      exact closed_cons_iff.mpr ⟨hstart, ih hmore hlast⟩

/-- A line that gives a variable a value. -/
theorem closed_assignment {before value : String} {front : List Char}
    (hfront : before = String.ofList front)
    (hclosed : (isClosed front && front.getLast? != some '<') = true)
    (hvalue : Closed value.toList) : Closed (before ++ value ++ ";").toList := by
  rw [Bool.and_eq_true, bne_iff_ne] at hclosed
  have hend : Closed (value.toList ++ ';' :: []) :=
    closed_apart (by decide) (by decide) hvalue (closed_of_not_mem List.not_mem_nil)
  have hall := closed_append (closed_of_isClosed hclosed.1) hclosed.2 hend
  rw [hfront, String.toList_append, String.toList_append, String.toList_ofList, List.append_assoc]
  exact hall

/-- What the script that fits a window is made of. -/
theorem scale_eq (width height minScale maxScale : Value) (root : String) :
    scale width height minScale maxScale root
      = (do .ok (ofLines (scaleLines (← width.plain) (← height.plain) (← minScale.plain)
          (← maxScale.plain) (literal defaultIndent (.text (wrapperSelector root)))
          (literal defaultIndent (.text root)) ++ scaleClosingLines))) := by
  simp only [scale, fill_scaleTemplate]

theorem closed_scaleLines {width height minScale maxScale wrapper container : String}
    (hwidth : Closed width.toList) (hheight : Closed height.toList)
    (hmin : Closed minScale.toList) (hmax : Closed maxScale.toList)
    (hwrapper : Closed wrapper.toList) (hcontainer : Closed container.toList) :
    ∀ l ∈ scaleLines width height minScale maxScale wrapper container, Closed l.toList := by
  unfold scaleLines
  simp only [List.forall_mem_cons]
  and_intros
  · exact ClosedLine.closed ⟨_, rfl, by decide⟩
  · exact ClosedLine.closed ⟨_, rfl, by decide⟩
  · exact ClosedLine.closed ⟨_, rfl, by decide⟩
  · exact closed_assignment rfl (by decide) hwidth
  · exact closed_assignment rfl (by decide) hheight
  · exact closed_assignment rfl (by decide) hmin
  · exact closed_assignment rfl (by decide) hmax
  · exact closed_assignment rfl (by decide) hwrapper
  · exact closed_assignment rfl (by decide) hcontainer
  · exact List.forall_mem_nil _

/-- **No end tag starts in the script that fits a window.** -/
theorem closed_scale {width height minScale maxScale : Value} {root text : String}
    (h : scale width height minScale maxScale root = .ok text) : Closed text.toList := by
  rw [scale_eq] at h
  obtain ⟨w, hw, h⟩ := (bind_eq_ok_iff _ _ _).mp h
  obtain ⟨ht, hht, h⟩ := (bind_eq_ok_iff _ _ _).mp h
  obtain ⟨lo, hlo, h⟩ := (bind_eq_ok_iff _ _ _).mp h
  obtain ⟨hi, hhi, h⟩ := (bind_eq_ok_iff _ _ _).mp h
  rw [← Except.ok.inj h]
  apply closed_ofLines
  intro l hl
  rcases List.mem_append.mp hl with hl | hl
  · exact closed_scaleLines (closed_plain hw) (closed_plain hht) (closed_plain hlo)
      (closed_plain hhi) (no_end_tag_literal _ _) (no_end_tag_literal _ _) l hl
  · exact closed_fixedLine .scaleClosing hl

/-- The lines of the script of a window after the one with its name. -/
def laterLines (root bindings navigation : String) : List String :=
  ["// Talks to the host exclusively through window.__relay__.", "(function () \x7b",
   "  'use strict';", "  var ROOT_SELECTOR = " ++ root ++ ";",
   "  var BINDINGS = " ++ bindings ++ ";", "  var NAVIGATION = " ++ navigation ++ ";"]
    ++ closingLines

theorem closed_laterLines {root bindings navigation : String} (hroot : Closed root.toList)
    (hbindings : Closed bindings.toList) (hnavigation : Closed navigation.toList) :
    Closed (ofLines (laterLines root bindings navigation)).toList := by
  apply closed_ofLines
  unfold laterLines
  simp only [List.cons_append, List.nil_append, List.forall_mem_cons]
  and_intros
  · exact ClosedLine.closed ⟨_, rfl, by decide⟩
  · exact ClosedLine.closed ⟨_, rfl, by decide⟩
  · exact ClosedLine.closed ⟨_, rfl, by decide⟩
  · exact closed_assignment rfl (by decide) hroot
  · exact closed_assignment rfl (by decide) hbindings
  · exact closed_assignment rfl (by decide) hnavigation
  · exact fun l hl => closed_fixedLine .closing hl

/-- What stands before the quoted name. -/
def beforeName : List Char := "// Generated by faceplate. Parameter bindings for window ".toList

theorem toList_ofLines_cons (l : String) (lines : List String) :
    (ofLines (l :: lines)).toList = l.toList ++ '\n' :: (ofLines lines).toList := by
  rw [toList_ofLines, toList_ofLines, List.flatMap_cons, List.append_assoc]
  rfl

theorem toList_openingLines (name root bindings navigation tail : String) :
    (ofLines (openingLines name root ++ ["  var BINDINGS = " ++ bindings ++ ";",
        "  var NAVIGATION = " ++ navigation ++ ";"] ++ closingLines) ++ tail).toList
      = beforeName ++ '"' :: (name.toList ++ '"' :: '.' :: '\n' ::
          (ofLines (laterLines root bindings navigation) ++ tail).toList) := by
  have hquoted : ("// Generated by faceplate. Parameter bindings for window \"").toList
      = beforeName ++ ['"'] := by decide
  have hclosing : "\".".toList = ['"', '.'] := rfl
  unfold openingLines laterLines
  simp only [List.cons_append, List.nil_append]
  rw [String.toList_append, toList_ofLines_cons, String.toList_append, String.toList_append,
    String.toList_append, hquoted, hclosing]
  simp only [List.append_assoc, List.cons_append, List.nil_append]

/-- **The script of a window holds an end tag exactly when the name in its comment does.** -/
theorem holdsTag_bindingsScript_iff {P : List Char → Prop} {tagName : List Char}
    (htagName : IsTagName tagName) {s : PageSetting} {elements : List Element} {text : String}
    (h : bindingsScript s elements = .ok text) :
    ∃ name, commentName s.window.name = .ok name
      ∧ (HoldsTag P tagName text.toList ↔ HoldsTag P tagName name.toList) := by
  obtain ⟨name, entries, tail, hname, _, htext, htail⟩ := exists_bindingsScript h
  refine ⟨name, hname, ?_⟩
  have hlater := closed_laterLines (no_end_tag_literal defaultIndent (.text s.rootSelector))
    (no_end_tag_indented (bindingsValue entries)) (no_end_tag_indented (navigation s.links))
  rw [htext, toList_openingLines]
  generalize ofLines (laterLines _ _ _) = later at hlater ⊢
  have hrest : Closed ('.' :: '\n' :: (later ++ tail).toList) := by
    have hdot : Closed ['.'] := closed_of_not_mem (by decide)
    refine closed_apart (by decide) (by decide) hdot ?_
    rcases htail with rfl | ⟨scaling, hscaling, rfl⟩
    · rwa [String.append_empty]
    · rw [← String.append_assoc]
      exact closed_below hlater (closed_scale hscaling)
  have hquote : Parts tagName '"' := by
    refine ⟨by decide, by decide, fun hmem => ?_⟩
    exact absurd (htagName.2 _ hmem) (by decide)
  have hbefore : ¬ HoldsTag P tagName beforeName :=
    not_holdsTag_of_no_start (closed_of_isClosed (by decide))
  have hafter : ¬ HoldsTag P tagName _ := not_holdsTag_of_no_start hrest
  rw [holdsTag_apart hquote, holdsTag_apart hquote]
  constructor
  · intro hsome
    rcases hsome with hsome | hsome | hsome
    · exact absurd hsome hbefore
    · exact hsome
    · exact absurd hsome hafter
  · exact fun hname => Or.inr (Or.inl hname)

end ControlSurface.Script

namespace ControlSurface.Text

/-! ## §4. Characters that part. -/

section Parting

variable {P : List Char → Prop} {name : List Char}

/-- What is no letter, in either case, and no sign of an end tag parts a text. -/
theorem parts_of_not_letter (hname : IsTagName name) {c : Char} (hopening : c ≠ '<')
    (hslash : c ≠ '/') (hletter : ¬ ('a' ≤ asciiLower c ∧ asciiLower c ≤ 'z')) : Parts name c :=
  ⟨hopening, hslash, fun hmem => hletter (hname.2 _ hmem)⟩

theorem asciiLower_of_not_upper {c : Char} (h : ¬ ('A' ≤ c ∧ c ≤ 'Z')) : asciiLower c = c :=
  if_neg h

/-- White space is no letter. -/
theorem not_letter_of_blank {c : Char} (h : isBlank c = true) :
    ¬ ('A' ≤ c ∧ c ≤ 'Z') ∧ ¬ ('a' ≤ c ∧ c ≤ 'z') := by
  simp only [isBlank, Bool.or_eq_true, Bool.and_eq_true, decide_eq_true_eq, beq_iff_eq] at h
  constructor
  · rintro ⟨hlo, hhi⟩
    have hlo' : 65 ≤ c.toNat := hlo
    have hhi' : c.toNat ≤ 90 := hhi
    omega
  · rintro ⟨hlo, hhi⟩
    have hlo' : 97 ≤ c.toNat := hlo
    have hhi' : c.toNat ≤ 122 := hhi
    omega

theorem parts_of_blank (hname : IsTagName name) {c : Char} (h : isBlank c = true) :
    Parts name c := by
  obtain ⟨hupper, hlower⟩ := not_letter_of_blank h
  apply parts_of_not_letter hname
  · rintro rfl
    exact absurd h (by decide)
  · rintro rfl
    exact absurd h (by decide)
  · rwa [asciiLower_of_not_upper hupper]

/-- Two texts, one of which begins or ends at the other with a character that parts. -/
theorem holdsTag_beside {front rest : List Char}
    (h : (∃ c, front.getLast? = some c ∧ Parts name c) ∨ ∃ c, rest.head? = some c ∧ Parts name c) :
    HoldsTag P name (front ++ rest) ↔ HoldsTag P name front ∨ HoldsTag P name rest := by
  rcases h with ⟨c, hlast, hc⟩ | ⟨c, hhead, hc⟩
  · obtain ⟨front', rfl⟩ := List.getLast?_eq_some_iff.mp hlast
    rw [List.append_assoc, List.singleton_append, holdsTag_apart hc, holdsTag_apart hc,
      or_iff_left not_holdsTag_nil]
  · obtain ⟨rest', rfl⟩ := List.head?_eq_some_iff.mp hhead
    have hrest := holdsTag_apart (P := P) hc [] rest'
    rw [List.nil_append, or_iff_right not_holdsTag_nil] at hrest
    rw [holdsTag_apart hc, hrest]

/-- Words, between any two of which there is a character that parts. -/
theorem holdsTag_flatten {words : List (List Char)}
    (h : words.IsChain fun v w => ∃ hv hw, Parts name (v.getLast hv) ∨ Parts name (w.head hw)) :
    HoldsTag P name words.flatten ↔ ∃ w ∈ words, HoldsTag P name w := by
  induction words with
  | nil =>
    refine iff_of_false not_holdsTag_nil ?_
    rintro ⟨w, hw, _⟩
    cases hw
  | cons v words ih =>
    rw [List.flatten_cons, List.exists_mem_cons_iff]
    cases words with
    | nil => simp
    | cons w words =>
      obtain ⟨⟨hv, hw, hparts⟩, hchain⟩ := List.isChain_cons_cons.mp h
      rw [← ih hchain]
      apply holdsTag_beside
      refine hparts.imp (fun hlast => ⟨_, List.getLast?_eq_getLast_of_ne_nil hv, hlast⟩) ?_
      intro hhead
      refine ⟨_, ?_, hhead⟩
      rw [List.flatten_cons, List.head?_append_of_ne_nil _ hw, List.head?_eq_some_head hw]

/-- Words with a character that parts between them. -/
theorem holdsTag_intercalate {c : Char} (hc : Parts name c) (words : List (List Char)) :
    HoldsTag P name ([c].intercalate words) ↔ ∃ w ∈ words, HoldsTag P name w := by
  induction words with
  | nil =>
    refine iff_of_false not_holdsTag_nil ?_
    rintro ⟨w, hw, _⟩
    cases hw
  | cons v words ih =>
    rw [List.exists_mem_cons_iff, ← ih]
    cases words with
    | nil => simp [List.intercalate, not_holdsTag_nil]
    | cons w words =>
      rw [List.intercalate_cons_cons, List.append_assoc, List.singleton_append, holdsTag_apart hc]

/-- Changing characters that part into others that do leaves an end tag where it is. -/
theorem holdsTag_map_iff {f : Char → Char}
    (hf : ∀ c, f c = c ∨ (Parts name c ∧ Parts name (f c))) (text : List Char) :
    HoldsTag P name (text.map f) ↔ HoldsTag P name text := by
  -- what is changed stands in no end tag, before the change or after it
  have hkept : ∀ c, ¬ Parts name (f c) → f c = c := fun c hc =>
    (hf c).resolve_right fun h => hc h.2
  have hopening : ¬ Parts name '<' := fun h => h.1 rfl
  have hslash : ¬ Parts name '/' := fun h => h.2.1 rfl
  have hletter : ∀ tag : List Char, tag.map asciiLower = name → ∀ c ∈ tag, ¬ Parts name c := by
    intro tag htag c hc hparts
    apply hparts.2.2
    rw [← htag]
    exact List.mem_map_of_mem hc
  constructor
  · rintro ⟨before, tag, after, heq, htag, hP⟩
    obtain ⟨before', rest, rfl, _, hrest⟩ := List.map_eq_append_iff.mp heq
    obtain ⟨c, rest, rfl, hc, hrest⟩ := List.map_eq_cons_iff.mp hrest
    obtain ⟨d, rest, rfl, hd, hrest⟩ := List.map_eq_cons_iff.mp hrest
    obtain ⟨tag', after', rfl, htag', _⟩ := List.map_eq_append_iff.mp hrest
    obtain rfl : c = '<' := by rw [← hkept c (hc ▸ hopening), hc]
    obtain rfl : d = '/' := by rw [← hkept d (hd ▸ hslash), hd]
    have hsame : tag'.map f = tag' := by
      refine (List.map_congr_left fun e he => hkept e ?_).trans (List.map_id' tag')
      exact hletter tag htag _ (htag' ▸ List.mem_map_of_mem he)
    rw [hsame] at htag'
    exact ⟨before', tag', after', rfl, htag' ▸ htag, htag' ▸ hP⟩
  · rintro ⟨before, tag, after, rfl, htag, hP⟩
    have hfixed : ∀ c, ¬ Parts name c → f c = c := fun c hc =>
      (hf c).resolve_right fun h => hc h.1
    have hsame : tag.map f = tag := by
      refine (List.map_congr_left fun e he => hfixed e ?_).trans (List.map_id' tag)
      exact hletter tag htag e he
    refine ⟨before.map f, tag, after.map f, ?_, htag, hP⟩
    rw [List.map_append, List.map_cons, List.map_cons, List.map_append, hsame, hfixed '<' hopening,
      hfixed '/' hslash]

end Parting

end ControlSurface.Text

namespace ControlSurface.Script

open ControlSurface.Text ControlSurface.Outcome

/-! ## §5. The name in the comment. -/

section Naming

variable {P : List Char → Prop} {tagName : List Char}

/-- No end tag stands in white space. -/
theorem not_holdsTag_blank {w : List Char} (h : allBlank w = true) : ¬ HoldsTag P tagName w := by
  rintro ⟨before, tag, after, rfl, _, _⟩
  have hopening := List.all_eq_true.mp h '<' (by simp)
  exact absurd hopening (by decide)

/-- Single spaces take no end tag away and bring none. -/
theorem holdsTag_singleSpaced_iff (hname : IsTagName tagName) (s : String) :
    HoldsTag P tagName (singleSpaced s).toList ↔ HoldsTag P tagName s.toList := by
  let same : Char → Char → Bool := fun a b => isBlank a == isBlank b
  have hspace : Parts tagName ' ' := parts_of_blank hname rfl
  have hchain := (List.isChain_getLast_head_splitBy same s.toList).imp
    (S := fun v w => ∃ hv hw, Parts tagName (v.getLast hv) ∨ Parts tagName (w.head hw)) ?_
  · unfold singleSpaced Text.join
    rw [String.toList_intercalate, List.map_map]
    show HoldsTag P tagName ([' '].intercalate _) ↔ _
    have hwords := holdsTag_flatten (P := P) hchain
    rw [List.flatten_splitBy] at hwords
    rw [holdsTag_intercalate hspace, hwords]
    constructor
    · rintro ⟨w, hw, htag⟩
      obtain ⟨v, hv, rfl⟩ := List.mem_map.mp hw
      rw [Function.comp_apply, String.toList_ofList] at htag
      exact ⟨v, (List.mem_filter.mp hv).1, htag⟩
    · rintro ⟨w, hw, htag⟩
      refine ⟨w, List.mem_map.mpr ⟨w, List.mem_filter.mpr ⟨hw, ?_⟩, ?_⟩, htag⟩
      · rw [Bool.not_eq_true', Bool.eq_false_iff]
        exact fun hblank => not_holdsTag_blank hblank htag
      · exact String.toList_ofList
  · -- of two neighbours, one is white space
    rintro v w ⟨hv, hw, hdiffer⟩
    refine ⟨hv, hw, ?_⟩
    rw [beq_eq_false_iff_ne] at hdiffer
    by_cases hlast : isBlank (v.getLast hv) = true
    · exact Or.inl (parts_of_blank hname hlast)
    · refine Or.inr (parts_of_blank hname ?_)
      rw [Bool.not_eq_true] at hlast
      rw [hlast] at hdiffer
      exact Bool.of_not_eq_false hdiffer.symm

/-- **The name in the comment holds an end tag exactly when the name of the window does.** -/
theorem holdsTag_commentName_iff (hname : IsTagName tagName) {v : Value} {name : String}
    (h : commentName v = .ok name) :
    HoldsTag P tagName name.toList ↔ HoldsTag P tagName v.toText.toList := by
  unfold commentName at h
  split at h
  next s =>
    rw [← Except.ok.inj h, Text.replace, String.toList_ofList]
    show _ ↔ HoldsTag P tagName s.toList
    rw [← holdsTag_singleSpaced_iff hname s]
    have hmap : replaceAll ['"'] ['\''] (singleSpaced s).toList
        = (singleSpaced s).toList.map fun c => if c = '"' then '\'' else c := by
      rw [replaceAll_singleton, ← List.flatMap_singleton' ((singleSpaced s).toList.map _),
        List.flatMap_map]
      refine List.flatMap_congr fun c _ => ?_
      split <;> rfl
    rw [show "\"".toList = ['"'] from rfl, show "'".toList = ['\''] from rfl, hmap]
    apply holdsTag_map_iff
    intro c
    by_cases hquote : c = '"'
    · subst hquote
      exact Or.inr ⟨parts_of_not_letter hname (by decide) (by decide) (by decide),
        parts_of_not_letter hname (by decide) (by decide) (by decide)⟩
    · exact Or.inl (if_neg hquote)
  · cases h

end Naming

/-- **The script of a window holds an end tag exactly when the name of the window does.** -/
theorem holdsTag_script_iff {P : List Char → Prop} {tagName : List Char}
    (htagName : IsTagName tagName) {s : PageSetting} {elements : List Element} {text : String}
    (h : bindingsScript s elements = .ok text) :
    HoldsTag P tagName text.toList ↔ HoldsTag P tagName s.window.name.toText.toList := by
  obtain ⟨name, hname, hiff⟩ := holdsTag_bindingsScript_iff htagName h
  exact hiff.trans (holdsTag_commentName_iff htagName hname)

end ControlSurface.Script
