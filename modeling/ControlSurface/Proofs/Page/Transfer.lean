/-
  ControlSurface.Proofs.Page.Transfer
  ───────────────────────────────────
  Files in other settings.  Whether the files of a window can be made depends on the window, its
  layers and graphics and on how it is scaled; selectors, links, the place of its fonts and the
  scope of inner identifiers only change what is written (`isOk_windowFiles`).

  With other links or another largest scale, page, stylesheet and component script are the same
  (`Page.render_relinked`, `Stylesheet.render_relinked`, `components_relinked`), and the script of a
  window is the same but for the object of its navigation and the number of its largest scale
  (`agree_bindingsScript`).  So the files of a window in two such settings fail together, or are the
  same up to that (`agree_windowFiles`).
-/
import ControlSurface.Bundle.Window
import ControlSurface.Proofs.Fault.Outcome
import ControlSurface.Proofs.Script.Decoding
import ControlSurface.Proofs.Script.EndTags

namespace ControlSurface

open Outcome

/-! ## §1. Markup. -/

/-- Two settings of one window that differ only in what is written. -/
structure PageSetting.Alike (s t : PageSetting) : Prop where
  window : s.window = t.window
  layers : s.layers = t.layers
  graphics : s.graphics = t.graphics
  responsive : s.responsive = t.responsive
  minScale : s.minScale = t.minScale

namespace Markup

variable {s t : PageSetting}

theorem graphic_congr (h : s.graphics = t.graphics) (e : Element) : graphic s e = graphic t e := by
  unfold graphic PageSetting.graphic?
  rw [h]

theorem isOk_switch (h : s.graphics = t.graphics) (e : Element) :
    (switch s e).isOk = (switch t e).isOk := by
  unfold switch
  split
  case h_2 =>
    unfold iconButton
    rw [graphic_congr h]
  case h_6 => exact isOk_bind_congr rfl fun _ _ => isOk_ok_congr ..
  all_goals rfl

theorem isOk_choice (e : Element) : (choice s e).isOk = (choice t e).isOk := by
  unfold choice
  refine isOk_bind_congr rfl fun _ _ => ?_
  split
  case h_4 =>
    refine isOk_bind_congr rfl fun _ _ => ?_
    cases (e.get "options").items with
    | error cause => rfl
    | ok items =>
      rw [ok_bind, ok_bind]
      exact isOk_bind_congr rfl fun _ _ => isOk_ok_congr ..
  case h_5 => exact isOk_bind_congr rfl fun _ _ => isOk_bind_congr rfl fun _ _ => isOk_ok_congr ..
  all_goals rfl

theorem isOk_decoration (h : s.graphics = t.graphics) (e : Element) :
    (decoration s e).isOk = (decoration t e).isOk := by
  unfold decoration
  rw [graphic_congr h]

/-- Whether an element has markup does not depend on what lies in it. -/
theorem isOk_fragment (h : s.graphics = t.graphics) (e : Element) (inner other : List Node) :
    (fragment s e inner).isOk = (fragment t e other).isOk := by
  unfold fragment
  split
  all_goals first
    | rfl
    | exact isOk_switch h e
    | exact isOk_choice e
    | exact isOk_decoration h e

theorem isOk_elementNode (h : s.graphics = t.graphics) (e : Element) (inner other : List Node) :
    (elementNode s e inner).isOk = (elementNode t e other).isOk := by
  unfold elementNode
  refine isOk_bind_congr (isOk_fragment h e inner other) fun f g => ?_
  refine isOk_bind_congr rfl fun _ _ => ?_
  dsimp only
  split
  · exact isOk_bind_congr rfl fun _ _ => isOk_ok_congr ..
  · rfl

mutual
theorem isOk_treeNode (h : s.graphics = t.graphics) (depth : Nat) (tree : Layout.Tree) :
    (treeNode s depth tree).isOk = (treeNode t depth tree).isOk := by
  cases tree with
  | node e children =>
    rw [treeNode, treeNode]
    exact isOk_bind_congr (isOk_treeNodes h (depth + 1) children) fun _ _ =>
      isOk_elementNode h e _ _

theorem isOk_treeNodes (h : s.graphics = t.graphics) (depth : Nat) (trees : List Layout.Tree) :
    (treeNodes s depth trees).isOk = (treeNodes t depth trees).isOk := by
  cases trees with
  | nil =>
    rw [treeNodes, treeNodes]
  | cons tree trees =>
    rw [treeNodes, treeNodes]
    exact isOk_bind_congr (isOk_treeNode h depth tree) fun _ _ =>
      isOk_bind_congr (isOk_treeNodes h depth trees) fun _ _ => isOk_ok_congr ..
end

theorem isOk_elementNodes (h : s.Alike t) (elements : List Element) (depth : Nat) :
    (elementNodes s elements depth).isOk = (elementNodes t elements depth).isOk := by
  unfold elementNodes
  rw [h.layers]
  cases Layout.renderTree t.layers elements with
  | error cause => rfl
  | ok trees =>
    rw [ok_bind, ok_bind]
    exact isOk_bind_congr (isOk_treeNodes h.graphics depth trees) fun _ _ => isOk_ok_congr ..

end Markup

/-! ## §2. The files of a window. -/

section Files

variable {s t : PageSetting}

theorem Page.isOk_render (h : s.Alike t) (elements : List Element) :
    (Page.render s elements).isOk = (Page.render t elements).isOk :=
  isOk_bind_congr (Markup.isOk_elementNodes h elements _) fun _ _ => isOk_ok_congr ..

theorem Stylesheet.isOk_render (h : s.Alike t) (elements : List Element) :
    (Stylesheet.render s elements).isOk = (Stylesheet.render t elements).isOk := by
  unfold Stylesheet.render Stylesheet.sections Stylesheet.elementSections
  rw [h.window, h.responsive, h.layers]
  refine isOk_bind_congr ?_ fun _ _ => isOk_ok_congr ..
  exact isOk_bind_congr rfl fun _ _ => isOk_bind_congr rfl fun _ _ => isOk_ok_congr ..

theorem Script.isOk_components (elements : List Element) :
    (Script.components s elements).isOk = (Script.components t elements).isOk :=
  isOk_bind_congr rfl fun _ _ => isOk_ok_congr ..

theorem Script.isOk_scale {width height minScale maxScale other : Value}
    (h : maxScale.plain.isOk = other.plain.isOk) (root place : String) :
    (Script.scale width height minScale maxScale root).isOk
      = (Script.scale width height minScale other place).isOk := by
  rw [Script.scale_eq, Script.scale_eq]
  refine isOk_bind_congr rfl fun _ _ => isOk_bind_congr rfl fun _ _ => ?_
  exact isOk_bind_congr rfl fun _ _ => isOk_bind_congr h fun _ _ => isOk_ok_congr ..

theorem Script.isOk_bindingsScript (h : s.Alike t)
    (hmax : t.responsive = true → s.maxScale.plain.isOk = t.maxScale.plain.isOk)
    (elements : List Element) :
    (Script.bindingsScript s elements).isOk = (Script.bindingsScript t elements).isOk := by
  unfold Script.bindingsScript
  rw [h.window, h.layers, h.responsive, h.minScale]
  refine isOk_bind_congr rfl fun _ _ => isOk_bind_congr rfl fun _ _ => ?_
  dsimp only
  split
  next hresponsive =>
    exact isOk_bind_congr (Script.isOk_scale (hmax hresponsive) _ _) fun _ _ => isOk_ok_congr ..
  next => exact isOk_ok_congr ..

/-- **Files of a window can be made in all settings that are alike.** -/
theorem Bundle.isOk_windowFiles (h : s.Alike t)
    (hmax : t.responsive = true → s.maxScale.plain.isOk = t.maxScale.plain.isOk)
    (elements : List Element) :
    (Bundle.windowFiles s elements).isOk = (Bundle.windowFiles t elements).isOk := by
  unfold Bundle.windowFiles
  refine isOk_bind_congr (Page.isOk_render h elements) fun _ _ => ?_
  refine isOk_bind_congr (Stylesheet.isOk_render h elements) fun _ _ => ?_
  refine isOk_bind_congr (Script.isOk_components elements) fun _ _ => ?_
  exact isOk_bind_congr (Script.isOk_bindingsScript h hmax elements) fun _ _ => isOk_ok_congr ..

/-- What is made in a setting that scales was given a largest scale that can be written. -/
theorem Bundle.maxScale_of_windowFiles {elements : List Element} {f : Bundle.WindowFiles}
    (hresponsive : s.responsive = true) (h : Bundle.windowFiles s elements = .ok f) :
    s.maxScale.plain.isOk = true := by
  obtain ⟨_, _, h⟩ := (bind_eq_ok_iff _ _ _).mp h
  obtain ⟨_, _, h⟩ := (bind_eq_ok_iff _ _ _).mp h
  obtain ⟨_, _, h⟩ := (bind_eq_ok_iff _ _ _).mp h
  obtain ⟨bindings, hbindings, _⟩ := (bind_eq_ok_iff _ _ _).mp h
  obtain ⟨name, _, hbindings⟩ := (bind_eq_ok_iff _ _ _).mp hbindings
  obtain ⟨entries, _, hbindings⟩ := (bind_eq_ok_iff _ _ _).mp hbindings
  dsimp only at hbindings
  rw [if_pos hresponsive] at hbindings
  obtain ⟨scaling, hscaling, _⟩ := (bind_eq_ok_iff _ _ _).mp hbindings
  rw [Script.scale_eq] at hscaling
  obtain ⟨_, _, hscaling⟩ := (bind_eq_ok_iff _ _ _).mp hscaling
  obtain ⟨_, _, hscaling⟩ := (bind_eq_ok_iff _ _ _).mp hscaling
  obtain ⟨_, _, hscaling⟩ := (bind_eq_ok_iff _ _ _).mp hscaling
  obtain ⟨_, hlargest, _⟩ := (bind_eq_ok_iff _ _ _).mp hscaling
  exact isOk_of_eq hlargest

end Files

/-! ## §3. What links and the largest scale do not reach. -/

/-- A setting with other links and another largest scale. -/
def PageSetting.relinked (s : PageSetting) (links : List (String × WindowLink)) (maxScale : Value) :
    PageSetting :=
  { s with links := links, maxScale := maxScale }

variable (s : PageSetting) (links : List (String × WindowLink)) (maxScale : Value)

namespace Markup

mutual
theorem treeNode_relinked (depth : Nat) (tree : Layout.Tree) :
    treeNode (s.relinked links maxScale) depth tree = treeNode s depth tree := by
  cases tree with
  | node e children =>
    rw [treeNode, treeNode, treeNodes_relinked (depth + 1) children]
    rfl

theorem treeNodes_relinked (depth : Nat) (trees : List Layout.Tree) :
    treeNodes (s.relinked links maxScale) depth trees = treeNodes s depth trees := by
  cases trees with
  | nil => rw [treeNodes, treeNodes]
  | cons tree trees =>
    rw [treeNodes, treeNodes, treeNode_relinked depth tree, treeNodes_relinked depth trees]
end

theorem elementNodes_relinked (elements : List Element) (depth : Nat) :
    elementNodes (s.relinked links maxScale) elements depth = elementNodes s elements depth := by
  have hnodes : treeNodes (s.relinked links maxScale) depth = treeNodes s depth :=
    funext fun trees => treeNodes_relinked s links maxScale depth trees
  unfold elementNodes
  rw [hnodes]
  rfl

end Markup

theorem Page.render_relinked (elements : List Element) :
    Page.render (s.relinked links maxScale) elements = Page.render s elements := by
  unfold Page.render
  rw [Markup.elementNodes_relinked]
  rfl

theorem Stylesheet.render_relinked (elements : List Element) :
    Stylesheet.render (s.relinked links maxScale) elements = Stylesheet.render s elements := rfl

theorem Script.components_relinked (elements : List Element) :
    Script.components (s.relinked links maxScale) elements = Script.components s elements := rfl

/-! ## §4. What they reach. -/

namespace Script

/-- Two scripts of a window that are the same but for the object of the navigation and, where they
scale, the number of the largest scale. -/
inductive SameBut (navigation navigation' : Value) (largest largest' : String) :
    Bool → String → String → Prop
  /-- The window has its own size. -/
  | fixed (before after : String) : SameBut navigation navigation' largest largest' false
      (before ++ "  var NAVIGATION = " ++ indented navigation ++ ";\n" ++ after)
      (before ++ "  var NAVIGATION = " ++ indented navigation' ++ ";\n" ++ after)
  /-- The window scales. -/
  | scaled (before between after : String) : SameBut navigation navigation' largest largest' true
      (before ++ "  var NAVIGATION = " ++ indented navigation ++ ";\n" ++ between
        ++ "  var MAX_SCALE = " ++ largest ++ ";\n" ++ after)
      (before ++ "  var NAVIGATION = " ++ indented navigation' ++ ";\n" ++ between
        ++ "  var MAX_SCALE = " ++ largest' ++ ";\n" ++ after)

/-- The lines of a script up to its navigation. -/
def beforeNavigation (name root entries : String) : String :=
  ofLines (openingLines name root ++ ["  var BINDINGS = " ++ entries ++ ";"])

theorem ofLines_singleton (line : String) : ofLines [line] = line ++ "\n" := by
  rw [← String.toList_inj, toList_ofLines]
  simp

/-- The script of a window, cut at its navigation. -/
theorem ofLines_navigation (name root entries navigation : String) :
    ofLines (openingLines name root
        ++ ["  var BINDINGS = " ++ entries ++ ";", "  var NAVIGATION = " ++ navigation ++ ";"]
        ++ closingLines)
      = beforeNavigation name root entries ++ "  var NAVIGATION = " ++ navigation ++ ";\n"
        ++ ofLines closingLines := by
  have hnewline : ";" ++ "\n" = ";\n" := rfl
  rw [beforeNavigation, ofLines_append, ofLines_append, ofLines_append, ofLines_pair,
    ofLines_singleton]
  simp only [String.append_assoc, hnewline]

/-- The lines of the script that fits a window up to its largest scale. -/
def linesBeforeMaxScale (width height minScale : String) : List String :=
  ["// Responsive scaling: fit the authored canvas into the host view.", "(function () \x7b",
   "  'use strict';", "  var CANVAS_WIDTH = " ++ width ++ ";",
   "  var CANVAS_HEIGHT = " ++ height ++ ";", "  var MIN_SCALE = " ++ minScale ++ ";"]

/-- The lines after it. -/
def linesAfterMaxScale (wrapper container : String) : List String :=
  ["  var WRAPPER_SELECTOR = " ++ wrapper ++ ";", "  var CONTAINER_SELECTOR = " ++ container ++ ";"]

theorem ofLines_maxScale (width height minScale maxScale wrapper container : String) :
    ofLines (scaleLines width height minScale maxScale wrapper container ++ scaleClosingLines)
      = ofLines (linesBeforeMaxScale width height minScale)
        ++ "  var MAX_SCALE = " ++ maxScale ++ ";\n"
        ++ ofLines (linesAfterMaxScale wrapper container ++ scaleClosingLines) := by
  have hnewline : ";" ++ "\n" = ";\n" := rfl
  have hlines : scaleLines width height minScale maxScale wrapper container
      = linesBeforeMaxScale width height minScale ++ (["  var MAX_SCALE = " ++ maxScale ++ ";"]
        ++ linesAfterMaxScale wrapper container) := rfl
  rw [hlines, List.append_assoc, List.append_assoc, ofLines_append, ofLines_append,
    ofLines_singleton]
  simp only [String.append_assoc, hnewline]

/-- Two texts that are the same but for the number of the largest scale. -/
def SameButScale (largest largest' left right : String) : Prop :=
  ∃ before after, left = before ++ "  var MAX_SCALE = " ++ largest ++ ";\n" ++ after
    ∧ right = before ++ "  var MAX_SCALE = " ++ largest' ++ ";\n" ++ after

theorem agree_scale {width height minScale maxScale other : Value} {largest largest' : String}
    (h : maxScale.plain = .ok largest) (h' : other.plain = .ok largest') (root : String) :
    Agree (SameButScale largest largest') (scale width height minScale maxScale root)
      (scale width height minScale other root) := by
  rw [scale_eq, scale_eq, h, h']
  simp only [ofLines_maxScale]
  apply agree_bind_same
  intro w
  apply agree_bind_same
  intro h
  apply agree_bind_same
  intro lo
  exact .both ⟨_, _, rfl, rfl⟩

/-- **The scripts of a window in two settings are the same** but for navigation and largest
scale. -/
theorem agree_bindingsScript {largest largest' : String} (h : s.maxScale.plain = .ok largest)
    (h' : maxScale.plain = .ok largest') (elements : List Element) :
    Agree (SameBut (navigation s.links) (navigation links) largest largest' s.responsive)
      (bindingsScript s elements) (bindingsScript (s.relinked links maxScale) elements) := by
  unfold bindingsScript
  apply agree_bind_same
  intro name
  apply agree_bind_same
  intro entries
  show Agree _ (if s.responsive = true then _ else _) (if s.responsive = true then _ else _)
  rw [fill_bindingsTemplate, fill_bindingsTemplate, ofLines_navigation, ofLines_navigation]
  cases hresponsive : s.responsive with
  | false =>
    exact .both (.fixed _ _)
  | true =>
    apply (agree_scale h h' s.rootSelector).bind
    intro left right hscaling
    obtain ⟨before, after, rfl, rfl⟩ := hscaling
    have hsame : SameBut (navigation s.links) (navigation links) largest largest' true _ _ :=
      .scaled (beforeNavigation name (literal defaultIndent (.text s.rootSelector))
        (indented (bindingsValue entries))) (ofLines closingLines ++ "\n" ++ before) after
    apply Agree.both
    simp only [String.append_assoc] at hsame ⊢
    exact hsame

end Script

namespace Bundle

/-- Files of a window that are the same but for what a script has of navigation and largest
scale. -/
structure SameFiles (navigation navigation' : Value) (largest largest' : String)
    (responsive : Bool) (f g : WindowFiles) : Prop where
  page : f.page = g.page
  stylesheet : f.stylesheet = g.stylesheet
  components : f.components = g.components
  bindings : Script.SameBut navigation navigation' largest largest' responsive f.bindings g.bindings

/-- **The files of a window in two settings fail together or are the same** but for navigation and
largest scale in its script. -/
theorem agree_windowFiles {largest largest' : String} (h : s.maxScale.plain = .ok largest)
    (h' : maxScale.plain = .ok largest') (elements : List Element) :
    Agree (SameFiles (Script.navigation s.links) (Script.navigation links) largest largest'
        s.responsive)
      (windowFiles s elements) (windowFiles (s.relinked links maxScale) elements) := by
  unfold windowFiles
  rw [Page.render_relinked, Stylesheet.render_relinked, Script.components_relinked]
  apply agree_bind_same
  intro page
  apply agree_bind_same
  intro stylesheet
  apply agree_bind_same
  intro components
  apply (Script.agree_bindingsScript s links maxScale h h' elements).bind
  intro left right hsame
  exact .both ⟨rfl, rfl, rfl, hsame⟩

end Bundle

end ControlSurface
