/-
  ControlSurface.Proofs.Layout.Painting
  ─────────────────────────────────────
  How siblings cover each other.  The page shows siblings in the order in which they are drawn, but
  a browser paints them by the height that their rules give them, and only siblings of one height
  in the order of the document.  `paintsInOrder_iff` says when the two agree: heights have to rise
  with the layers, which nothing in the stylesheet sees to.
-/
import ControlSurface.Proofs.Layout.Siblings
import ControlSurface.Proofs.Stylesheet.Height
import ControlSurface.Stylesheet.Sheet

namespace ControlSurface.Layout

open ControlSurface.Outcome ControlSurface.Stylesheet

/-! ## §1. Painting. -/

/-- Whether a sibling at one place of the document is painted above a sibling at another place. -/
def PaintedAbove (a : Element) (i : Nat) (b : Element) (j : Nat) : Prop :=
  paintHeight b < paintHeight a ∨ paintHeight a = paintHeight b ∧ j < i

/-- No sibling is painted above one that is drawn after it. -/
def PaintsInOrder (layers : List Layer) (elements : List Element) (ts : List Tree) : Prop :=
  ∀ g ∈ groups ts, ∀ (i j : Nat) (a b : Element), i ≠ j → g[i]? = some a → g[j]? = some b →
    DrawnBefore layers elements a b → ¬ PaintedAbove a i b j

/-- Where the drawing order of siblings comes from their layers, or from heights that are no whole
numbers, they are painted at heights that rise with it. -/
def HeightsFollow (layers : List Layer) (elements : List Element) (ts : List Tree) : Prop :=
  ∀ g ∈ groups ts, ∀ a ∈ g, ∀ b ∈ g, DrawnBefore layers elements a b →
    layerRank layers a ≠ layerRank layers b ∨ ¬ WholeHeights [a, b] →
    paintHeight a ≤ paintHeight b

/-- Siblings that are painted at one height stand in the document in drawing order. -/
def StandsInOrder (layers : List Layer) (elements : List Element) (ts : List Tree) : Prop :=
  ∀ g ∈ groups ts, ∀ (i j : Nat) (a b : Element), i < j → g[i]? = some a → g[j]? = some b →
    paintHeight a = paintHeight b → ¬ DrawnBefore layers elements b a

/-- A stylesheet has a rule for every element. -/
theorem elementRule_of_render {s : PageSetting} {elements : List Element} {css : String}
    (h : Stylesheet.render s elements = .ok css) {e : Element} (he : e ∈ elements) :
    ∃ r, elementRule e = .ok r := by
  obtain ⟨secs, hsecs, _⟩ := (bind_eq_ok_iff _ _ _).mp h
  obtain ⟨root, _, hsecs⟩ := (bind_eq_ok_iff _ _ _).mp hsecs
  obtain ⟨own, hown, _⟩ := (bind_eq_ok_iff _ _ _).mp hsecs
  obtain ⟨sorted, hsorted, hown⟩ := (bind_eq_ok_iff _ _ _).mp hown
  -- the rules are those of the elements in drawing order, which are all elements
  have hmem : e ∈ sorted := by
    rw [renderOrder] at hsorted
    split at hsorted
    · cases hsorted
      exact List.mem_mergeSort.mpr he
    · cases hsorted
  split at hown
  next hnil =>
    rw [List.isEmpty_iff.mp hnil] at hmem
    exact absurd hmem List.not_mem_nil
  next =>
    obtain ⟨rules, hrules, _⟩ := (bind_eq_ok_iff _ _ _).mp hown
    rw [mapM_eq_ok_iff] at hrules
    obtain ⟨i, hi, rfl⟩ := List.getElem_of_mem hmem
    exact ⟨_, hrules.get hi (hrules.length_eq ▸ hi)⟩

/-- On one layer, whole heights that are drawn later are not painted lower. -/
theorem paintHeight_le {layers : List Layer} {elements : List Element} {a b : Element}
    (hbefore : DrawnBefore layers elements a b)
    (hrank : layerRank layers a = layerRank layers b) (hwhole : WholeHeights [a, b])
    (ha : ∃ r, elementRule a = .ok r) (hb : ∃ r, elementRule b = .ok r) :
    paintHeight a ≤ paintHeight b := by
  obtain ⟨i, hi⟩ := hwhole a (by simp)
  obtain ⟨j, hj⟩ := hwhole b (by simp)
  obtain ⟨_, ha⟩ := ha
  obtain ⟨_, hb⟩ := hb
  rw [paintHeight_of_int ha hi, paintHeight_of_int hb hj]
  simp only [DrawnBefore, hi, hj, same_int, precedes_int, decide_eq_true_eq, beq_iff_eq] at hbefore
  rw [if_neg (not_not_intro hrank)] at hbefore
  split at hbefore <;> omega

theorem paintHeight_eq_whole {e : Element} (hrule : ∃ r, elementRule e = .ok r)
    (hwhole : ∃ i, e.zIndex = .int i) : paintHeight e = wholeHeight e := by
  obtain ⟨r, hr⟩ := hrule
  obtain ⟨i, hi⟩ := hwhole
  rw [paintHeight_of_int hr hi, wholeHeight_eq hi]

/-- What is painted in order: siblings whose heights follow their drawing order, as far as their
layers make it, and that stand in the document in that order. -/
theorem paintsInOrder_iff_follow {s : PageSetting} {elements : List Element} {css : String}
    (hcss : Stylesheet.render s elements = .ok css) {layers : List Layer} :
    PaintsInOrder layers elements (forest layers elements)
      ↔ HeightsFollow layers elements (forest layers elements)
        ∧ StandsInOrder layers elements (forest layers elements) := by
  constructor
  · intro hpaints
    constructor
    · -- an element that is drawn before itself is as high as itself
      intro g hg a ha b hb hbefore _
      obtain ⟨i, hi⟩ := List.getElem?_of_mem ha
      obtain ⟨j, hj⟩ := List.getElem?_of_mem hb
      by_cases hij : i = j
      · subst hij
        cases hi.symm.trans hj
        exact Int.le_refl _
      · by_contra hlt
        exact hpaints g hg i j a b hij hi hj hbefore (Or.inl (by omega))
    · intro g hg i j a b hij hi hj heq hbefore
      exact hpaints g hg j i b a (by omega) hj hi hbefore (Or.inr ⟨heq.symm, hij⟩)
  · -- on one layer whole heights follow by themselves, everywhere else by what is given
    rintro ⟨hfollow, hstands⟩ g hg i j a b hij hi hj hbefore habove
    have ha : a ∈ g := List.mem_of_getElem? hi
    have hb : b ∈ g := List.mem_of_getElem? hj
    have hle : paintHeight a ≤ paintHeight b := by
      by_cases hsame : layerRank layers a = layerRank layers b ∧ WholeHeights [a, b]
      · exact paintHeight_le hbefore hsame.1 hsame.2
          (elementRule_of_render hcss (mem_of_mem_groups hg ha))
          (elementRule_of_render hcss (mem_of_mem_groups hg hb))
      · refine hfollow g hg a ha b hb hbefore ?_
        by_cases hrank : layerRank layers a = layerRank layers b
        · exact Or.inr fun hwhole => hsame ⟨hrank, hwhole⟩
        · exact Or.inl hrank
    rcases habove with hlt | ⟨heq, hji⟩
    · omega
    · exact hstands g hg j i b a hji hj hi heq.symm hbefore

/-- Where heights are whole numbers and identities differ, siblings stand in drawing order. -/
theorem standsInOrder {layers : List Layer} {elements : List Element}
    (hids : DistinctIds elements) (hwhole : WholeHeights elements) :
    StandsInOrder layers elements (forest layers elements) := by
  intro g hg i j a b hij hi hj _
  exact not_drawnBefore_of_pair hids (orderedHeights_of_whole layers hwhole)
    ((pair_sublist hi hj hij).trans (group_sublist hids hg))

/-- **Siblings are painted in drawing order** iff heights follow it wherever layers make it and
siblings of one height stand in the document in that order.  Where heights are whole numbers and
identities differ, as declared, that is so iff no sibling on a lower layer is higher than one on a
higher layer. -/
theorem paintsInOrder_iff {s : PageSetting} {elements : List Element} {css : String}
    {ts : List Tree} (hcss : Stylesheet.render s elements = .ok css)
    (htree : renderTree s.layers elements = .ok ts) :
    (PaintsInOrder s.layers elements ts
        ↔ HeightsFollow s.layers elements ts ∧ StandsInOrder s.layers elements ts)
      ∧ (DistinctIds elements → WholeHeights elements →
          (PaintsInOrder s.layers elements ts
            ↔ ∀ g ∈ groups ts, ∀ a ∈ g, ∀ b ∈ g,
                layerRank s.layers a < layerRank s.layers b →
                wholeHeight a ≤ wholeHeight b)) := by
  -- the tree that is rendered is the forest, or there would be none
  have hforest : ts = forest s.layers elements := by
    rw [renderTree] at htree
    split at htree
    · exact (Except.ok.inj htree).symm
    · cases htree
  subst hforest
  refine ⟨paintsInOrder_iff_follow hcss, fun hids hwhole => ?_⟩
  have hheight : ∀ g ∈ groups (forest s.layers elements), ∀ e ∈ g,
      paintHeight e = wholeHeight e := by
    intro g hg e he
    have hmem := mem_of_mem_groups hg he
    exact paintHeight_eq_whole (elementRule_of_render hcss hmem) (hwhole e hmem)
  rw [paintsInOrder_iff_follow hcss]
  constructor
  · rintro ⟨hfollow, _⟩ g hg a ha b hb hrank
    rw [← hheight g hg a ha, ← hheight g hg b hb]
    refine hfollow g hg a ha b hb ?_ (Or.inl (by omega))
    rw [DrawnBefore, if_pos (by omega)]
    exact hrank
  · intro hlayers
    refine ⟨?_, standsInOrder hids hwhole⟩
    -- all heights are whole, so only layers can have made the order
    intro g hg a ha b hb hbefore hwhy
    have hpair : WholeHeights [a, b] := by
      intro e he
      rcases List.mem_cons.mp he with rfl | he
      · exact hwhole e (mem_of_mem_groups hg ha)
      · rw [List.mem_singleton.mp he]
        exact hwhole b (mem_of_mem_groups hg hb)
    rcases hwhy with hrank | hwhy
    · rw [DrawnBefore, if_pos hrank] at hbefore
      rw [hheight g hg a ha, hheight g hg b hb]
      exact hlayers g hg a ha b hb hbefore
    · exact absurd hpair hwhy

/-! ## §2. Two elements on two layers. -/

/-- A rectangle on a layer. -/
def plainElement (name layer : String) (height : Int) : Element :=
  ⟨.rectangle, Element.assign .rectangle
    [("id", .text name), ("name", .text name), ("layer_id", .text layer), ("z_index", .int height)]⟩

/-- The default layer and one over it. -/
def twoLayers : List Layer := [Layer.standard, { Layer.standard with id := "top", order := 1 }]

/-- An element on the default layer and one on the layer over it. -/
def twoElements (low high : Int) : List Element :=
  [plainElement "Base" "default" low, plainElement "Overlay" "top" high]

/-- The setting of a window with two layers. -/
def twoLayerSetting : PageSetting :=
  { PageSetting.ofWindow
      { id := "main", name := .text "Main", kind := .text "release", width := 4, height := 3
        backgroundColor := .text "#000", backgroundType := .text "color", gradient := none
        elementIds := [] } with
    layers := twoLayers }

theorem wholeHeights_two (low high : Int) : WholeHeights (twoElements low high) := by
  intro e he
  rcases List.mem_cons.mp he with rfl | he
  · exact ⟨low, rfl⟩
  · rw [List.mem_singleton.mp he]
    exact ⟨high, rfl⟩

theorem distinctIds_two (low high : Int) : DistinctIds (twoElements low high) := by
  constructor
  · intro e he
    rcases List.mem_cons.mp he with rfl | he
    · exact ⟨_, rfl⟩
    · rw [List.mem_singleton.mp he]
      exact ⟨_, rfl⟩
  · show [Value.text "Base", Value.text "Overlay"].Nodup
    simp

theorem hasOrder_two (low high : Int) : hasOrder twoLayers (twoElements low high) = true := by
  refine hasOrder_of_whole (wholeHeights_two low high) ?_
  intro e he
  rcases List.mem_cons.mp he with rfl | he
  · rfl
  · rw [List.mem_singleton.mp he]
    rfl

/-- The element on the higher layer is drawn last, whatever the heights are. -/
theorem ordered_two (low high : Int) :
    ordered twoLayers (twoElements low high) = twoElements low high := by
  refine List.mergeSort_of_pairwise (List.pairwise_pair.mpr ?_)
  rfl

theorem renderTree_two (low high : Int) :
    renderTree twoLayers (twoElements low high)
      = .ok ((twoElements low high).map fun e => .node e []) := by
  rw [renderTree, if_pos (hasOrder_two low high), forest, ordered_two]
  rfl

theorem renderOrder_two (low high : Int) :
    renderOrder twoLayers (twoElements low high) = .ok (twoElements low high) := by
  rw [renderOrder, if_pos (hasOrder_two low high), ordered_two]

theorem render_rising : ∃ css, Stylesheet.render twoLayerSetting (twoElements 1 10) = .ok css := by
  refine exists_of_isOk ?_
  unfold Stylesheet.render Stylesheet.sections elementSections
  rw [show twoLayerSetting.layers = twoLayers from rfl, renderOrder_two]
  decide

theorem render_falling : ∃ css, Stylesheet.render twoLayerSetting (twoElements 10 0) = .ok css := by
  refine exists_of_isOk ?_
  unfold Stylesheet.render Stylesheet.sections elementSections
  rw [show twoLayerSetting.layers = twoLayers from rfl, renderOrder_two]
  decide

/-- Heights that rise with the layers are painted in order. -/
theorem rising_paintsInOrder :
    ∃ css ts, Stylesheet.render twoLayerSetting (twoElements 1 10) = .ok css
      ∧ renderTree twoLayers (twoElements 1 10) = .ok ts
      ∧ DistinctIds (twoElements 1 10) ∧ WholeHeights (twoElements 1 10)
      ∧ PaintsInOrder twoLayers (twoElements 1 10) ts := by
  obtain ⟨css, hcss⟩ := render_rising
  have hids := distinctIds_two 1 10
  have hwhole := wholeHeights_two 1 10
  refine ⟨css, _, hcss, renderTree_two 1 10, hids, hwhole, ?_⟩
  refine ((paintsInOrder_iff hcss (renderTree_two 1 10)).2 hids hwhole).mpr ?_
  intro g hg a ha b hb hrank
  have hg : g = twoElements 1 10 ∨ g = [] := by
    simpa [groups, groupsIn, Tree.groups, Tree.element, twoElements] using hg
  rcases hg with rfl | rfl
  · simp only [twoElements, List.mem_cons, List.not_mem_nil, or_false] at ha hb
    rcases ha with rfl | rfl <;> rcases hb with rfl | rfl
    · exact Int.le_refl _
    · decide
    · exact absurd hrank (by decide)
    · exact Int.le_refl _
  · exact absurd ha List.not_mem_nil

/-- An element on the default layer that is higher than one on the layer over it covers it. -/
theorem falling_covers :
    ∃ css ts, Stylesheet.render twoLayerSetting (twoElements 10 0) = .ok css
      ∧ renderTree twoLayers (twoElements 10 0) = .ok ts
      ∧ ¬ PaintsInOrder twoLayers (twoElements 10 0) ts := by
  obtain ⟨css, hcss⟩ := render_falling
  refine ⟨css, _, hcss, renderTree_two 10 0, fun hpaints => ?_⟩
  have hrule := fun e he => elementRule_of_render hcss (e := e) he
  have hgroup : twoElements 10 0 ∈ groups ((twoElements 10 0).map fun e => .node e []) := by
    simp [groups, twoElements, Tree.element]
  have hbefore : DrawnBefore twoLayers (twoElements 10 0) (plainElement "Base" "default" 10)
      (plainElement "Overlay" "top" 0) := by
    rw [DrawnBefore, if_pos (by decide)]
    decide
  -- the one that is drawn first is the higher one
  refine hpaints _ hgroup 0 1 _ _ (by decide) rfl rfl hbefore (Or.inl ?_)
  rw [paintHeight_eq_whole (hrule _ (by simp [twoElements])) ⟨0, rfl⟩,
    paintHeight_eq_whole (hrule _ (by simp [twoElements])) ⟨10, rfl⟩]
  decide

end ControlSurface.Layout
