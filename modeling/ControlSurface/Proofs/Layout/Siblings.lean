/-
  ControlSurface.Proofs.Layout.Siblings
  ─────────────────────────────────────
  Siblings and their order.  The siblings of a forest are those elements that one holder holds
  (`held_eq_filter`), and they stand in it in drawing order: by the rank of their layer, then by
  height, then as listed (`pairwise_held`).  Heights have that order if they can be compared and none
  is not-a-number (`OrderedHeights`): then they are compared as their places are.
-/
import ControlSurface.Layout.Tree
import ControlSurface.Proofs.Layout.Identity
import ControlSurface.Proofs.Number.Order

namespace ControlSurface.Layout

/-! ## §1. Siblings. -/

mutual
/-- The lists of siblings below a node. -/
def Tree.groups : Tree → List (List Element)
  | .node _ children => children.map Tree.element :: groupsIn children

/-- The lists of siblings below some nodes. -/
def groupsIn : List Tree → List (List Element)
  | [] => []
  | t :: ts => t.groups ++ groupsIn ts
end

/-- The lists of siblings of a forest: those at the top and those that lie directly in one node,
each in the order of the document. -/
def groups (ts : List Tree) : List (List Element) := ts.map Tree.element :: groupsIn ts

theorem mem_groupsIn {ts : List Tree} {g : List Element} (h : g ∈ groupsIn ts) :
    ∃ t ∈ ts, g ∈ groups t.children := by
  induction ts with
  | nil => exact absurd h List.not_mem_nil
  | cons t ts ih =>
    rw [groupsIn] at h
    rcases List.mem_append.mp h with h | h
    · cases t with
      | node e children =>
        rw [Tree.groups] at h
        exact ⟨_, List.mem_cons_self .., h⟩
    · obtain ⟨t', ht', hg⟩ := ih h
      exact ⟨t', List.mem_cons_of_mem _ ht', hg⟩

/-- The elements drawn directly in a holder, in drawing order. -/
def held (elements sorted : List Element) (holder : Option Nat) : List Element :=
  (heldBy elements sorted holder).filterMap fun i => elements[i]?

/-- Siblings are the elements held by one holder, or none where the tree is cut off. -/
theorem mem_groups_grow {elements sorted : List Element} {depth : Nat} {holder : Option Nat}
    {g : List Element} (h : g ∈ groups (grow elements sorted depth (heldBy elements sorted holder))) :
    g = [] ∨ ∃ holder, g = held elements sorted holder := by
  -- over the depth to which the tree grows: one level is held by one holder
  induction depth generalizing holder with
  | zero =>
    rcases List.mem_cons.mp h with rfl | h
    · exact Or.inl rfl
    · exact absurd h List.not_mem_nil
  | succ depth ih =>
    rcases List.mem_cons.mp h with rfl | h
    · refine Or.inr ⟨holder, ?_⟩
      rw [grow, held, List.map_filterMap]
      refine congrArg (fun f => List.filterMap f (heldBy elements sorted holder)) (funext fun i => ?_)
      cases elements[i]? <;> rfl
    · obtain ⟨t, ht, hg⟩ := mem_groupsIn h
      rw [grow] at ht
      obtain ⟨i, _, hi⟩ := List.mem_filterMap.mp ht
      cases he : elements[i]? with
      | none =>
        rw [he] at hi
        cases hi
      | some e =>
        rw [he] at hi
        cases hi
        exact ih hg

theorem mem_groups_forest {layers : List Layer} {elements g : List Element}
    (h : g ∈ groups (forest layers elements)) :
    g = [] ∨ ∃ holder, g = held elements (ordered layers elements) holder := mem_groups_grow h

/-- Siblings are elements of the list. -/
theorem mem_of_mem_groups {layers : List Layer} {elements g : List Element} {e : Element}
    (h : g ∈ groups (forest layers elements)) (he : e ∈ g) : e ∈ elements := by
  rcases mem_groups_forest h with rfl | ⟨holder, rfl⟩
  · exact absurd he List.not_mem_nil
  · obtain ⟨i, _, hi⟩ := List.mem_filterMap.mp he
    exact List.mem_of_getElem? hi

/-- Where identities differ, what a holder holds are the elements that have it as their holder. -/
theorem held_eq_filter {layers : List Layer} {elements : List Element}
    (hids : DistinctIds elements) (holder : Option Nat) :
    held elements (ordered layers elements) holder
      = (ordered layers elements).filter fun e => holder? elements e == holder := by
  -- the place of an identity leads back to the element, so looking it up changes nothing
  have hsame : ∀ e ∈ (ordered layers elements).filter (fun e => holder? elements e == holder),
      ((position? elements e.id).bind fun i => elements[i]?) = some e := by
    intro e he
    have hmem : e ∈ elements := by
      have hordered := (List.filter_sublist).mem he
      rwa [ordered, List.mem_mergeSort] at hordered
    obtain ⟨i, hi, hat⟩ := hids.getElem?_position? hmem
    rw [hi]
    exact hat
  rw [held, heldBy, List.filterMap_filterMap, List.filterMap_congr hsame, List.filterMap_some]

theorem mem_held {layers : List Layer} {elements : List Element} (hids : DistinctIds elements)
    {holder : Option Nat} {e : Element} :
    e ∈ held elements (ordered layers elements) holder
      ↔ e ∈ elements ∧ holder? elements e = holder := by
  rw [held_eq_filter hids, List.mem_filter, ordered, List.mem_mergeSort, beq_iff_eq]

/-- Where identities differ, siblings stand in drawing order. -/
theorem group_sublist {layers : List Layer} {elements g : List Element}
    (hids : DistinctIds elements) (h : g ∈ groups (forest layers elements)) :
    List.Sublist g (ordered layers elements) := by
  rcases mem_groups_forest h with rfl | ⟨holder, rfl⟩
  · exact List.nil_sublist _
  · rw [held_eq_filter hids]
    exact List.filter_sublist

/-! ## §2. Heights. -/

/-- All heights are whole numbers, as they are declared. -/
def WholeHeights (elements : List Element) : Prop := ∀ e ∈ elements, ∃ i, e.zIndex = .int i

/-- A height as a whole number. -/
def wholeHeight (e : Element) : Int :=
  match e.zIndex with
  | .int i => i
  | _ => 0

theorem wholeHeight_eq {e : Element} {i : Int} (h : e.zIndex = .int i) : wholeHeight e = i := by
  rw [wholeHeight, h]

theorem precedes_int (i j : Int) : Value.precedes (.int i) (.int j) = decide (i < j) := rfl

theorem same_int (i j : Int) : (Value.int i).same (.int j) = (i == j) := by
  simp [Value.same, Value.sameNum, Value.num?, Num.eq]

/-- Whether some height is not-a-number, which is neither above nor below any other. -/
def HasNaNHeight (elements : List Element) : Prop := ∃ e ∈ elements, e.zIndex.IsNaN

/-- Heights that have an order: those on one layer can be compared, and none is not-a-number. -/
structure OrderedHeights (layers : List Layer) (elements : List Element) : Prop where
  comparable : ∀ a ∈ elements, ∀ b ∈ elements, comparable layers a b = true
  numbers : ¬ HasNaNHeight elements

/-- Elements have an order if layers are named by what can be looked up and heights on one layer can
be compared. -/
theorem hasOrder_iff {layers : List Layer} {elements : List Element} :
    hasOrder layers elements = true
      ↔ (∀ e ∈ elements, e.layerId.truthy = true → e.layerId.isKey = true)
        ∧ ∀ a ∈ elements, ∀ b ∈ elements, comparable layers a b = true := by
  simp [hasOrder, imp_iff_not_or]

/-- Numbers can be compared. -/
theorem comparable_of_num (layers : List Layer) {a b : Element} {n m : Num}
    (ha : a.zIndex.num? = some n) (hb : b.zIndex.num? = some m) :
    comparable layers a b = true := by
  rw [comparable, Value.less_of_num ha hb]
  exact Bool.or_true _

theorem orderedHeights_of_whole (layers : List Layer) {elements : List Element}
    (h : WholeHeights elements) : OrderedHeights layers elements := by
  refine ⟨fun a ha b hb => ?_, ?_⟩
  · obtain ⟨i, hi⟩ := h a ha
    obtain ⟨j, hj⟩ := h b hb
    exact comparable_of_num layers (n := .int i) (m := .int j) (by rw [hi]; rfl) (by rw [hj]; rfl)
  · rintro ⟨e, he, x, hx, -⟩
    obtain ⟨i, hi⟩ := h e he
    cases hi.symm.trans hx

/-- Elements whose heights are whole numbers have an order. -/
theorem hasOrder_of_whole {layers : List Layer} {elements : List Element}
    (hwhole : WholeHeights elements) (hkeys : ∀ e ∈ elements, e.layerId.isKey = true) :
    hasOrder layers elements = true :=
  hasOrder_iff.mpr ⟨fun e he _ => hkeys e he, (orderedHeights_of_whole layers hwhole).comparable⟩

/-! ## §3. Drawing order. -/

/-- What elements are ordered by, list order aside: the rank of the layer, then the height. -/
def drawKey (layers : List Layer) (e : Element) : ℤ ×ₗ Value.Place :=
  toLex (layerRank layers e, e.zIndex.place)

theorem drawKey_le {layers : List Layer} {a b : Element} :
    drawKey layers a ≤ drawKey layers b
      ↔ layerRank layers a < layerRank layers b
        ∨ layerRank layers a = layerRank layers b ∧ a.zIndex.place ≤ b.zIndex.place :=
  Prod.Lex.toLex_le_toLex

theorem drawKey_lt {layers : List Layer} {a b : Element} :
    drawKey layers a < drawKey layers b
      ↔ layerRank layers a < layerRank layers b
        ∨ layerRank layers a = layerRank layers b ∧ a.zIndex.place < b.zIndex.place :=
  Prod.Lex.toLex_lt_toLex

theorem drawKey_eq {layers : List Layer} {a b : Element} :
    drawKey layers a = drawKey layers b
      ↔ layerRank layers a = layerRank layers b ∧ a.zIndex.place = b.zIndex.place := by
  rw [drawKey, drawKey, toLex_inj, Prod.mk.injEq]

/-- Whether the key of an element is at most that of another one. -/
def keyAtMost (layers : List Layer) (a b : Element) : Bool :=
  decide (drawKey layers a ≤ drawKey layers b)

theorem keyAtMost_trans (layers : List Layer) (a b c : Element)
    (hab : keyAtMost layers a b = true) (hbc : keyAtMost layers b c = true) :
    keyAtMost layers a c = true :=
  decide_eq_true ((of_decide_eq_true hab).trans (of_decide_eq_true hbc))

theorem keyAtMost_total (layers : List Layer) (a b : Element) :
    (keyAtMost layers a b || keyAtMost layers b a) = true := by
  rw [Bool.or_eq_true]
  exact (le_total (drawKey layers a) (drawKey layers b)).imp decide_eq_true decide_eq_true

/-- Whether an element comes before another in drawing order: by the rank of its layer, then by its
height, then by its place in the list. -/
def DrawnBefore (layers : List Layer) (elements : List Element) (a b : Element) : Prop :=
  if layerRank layers a ≠ layerRank layers b then layerRank layers a < layerRank layers b
  else if a.zIndex.same b.zIndex then
    (position? elements a.id).getD 0 < (position? elements b.id).getD 0
  else Value.precedes a.zIndex b.zIndex = true

namespace OrderedHeights

variable {layers : List Layer} {elements : List Element}

/-- Heights on one layer are compared as their places. -/
theorem compared (h : OrderedHeights layers elements) {a b : Element} (ha : a ∈ elements)
    (hb : b ∈ elements) (hrank : layerRank layers a = layerRank layers b) :
    (Value.precedes a.zIndex b.zIndex = true ↔ a.zIndex.place < b.zIndex.place)
      ∧ (a.zIndex.same b.zIndex = true ↔ a.zIndex.place = b.zIndex.place) := by
  have hcomparable := h.comparable a ha b hb
  rw [Layout.comparable, hrank, Bool.or_eq_true, Bool.or_eq_true] at hcomparable
  refine Value.compared_as_places (fun hnan => h.numbers ⟨a, ha, hnan⟩)
    (fun hnan => h.numbers ⟨b, hb, hnan⟩) ?_
  simpa using hcomparable

theorem notAbove_eq (h : OrderedHeights layers elements) {a b : Element} (ha : a ∈ elements)
    (hb : b ∈ elements) : notAbove layers a b = keyAtMost layers a b := by
  rw [keyAtMost, Bool.eq_iff_iff, decide_eq_true_iff, drawKey_le, notAbove]
  by_cases hrank : layerRank layers a = layerRank layers b
  · have hprecedes := (h.compared hb ha hrank.symm).1
    rw [if_pos hrank, Bool.not_eq_true', ← Bool.not_eq_true, hprecedes, not_lt, hrank]
    simp
  · rw [if_neg hrank, decide_eq_true_iff]
    simp [hrank]

/-- Elements are sorted by their keys. -/
theorem ordered_eq (h : OrderedHeights layers elements) :
    ordered layers elements = elements.mergeSort (keyAtMost layers) := by
  -- sorting looks at no elements but those of the list
  have hmap := List.map_mergeSort (f := id) fun a ha b hb => h.notAbove_eq ha hb
  rwa [List.map_id, List.map_id] at hmap

/-- Drawing order is by key, then by place. -/
theorem drawnBefore_iff (h : OrderedHeights layers elements) {a b : Element} (ha : a ∈ elements)
    (hb : b ∈ elements) :
    DrawnBefore layers elements a b
      ↔ drawKey layers a < drawKey layers b
        ∨ drawKey layers a = drawKey layers b
          ∧ (position? elements a.id).getD 0 < (position? elements b.id).getD 0 := by
  rw [DrawnBefore, drawKey_lt, drawKey_eq]
  by_cases hrank : layerRank layers a = layerRank layers b
  · obtain ⟨hprecedes, hsame⟩ := h.compared ha hb hrank
    rw [if_neg (not_not_intro hrank)]
    by_cases hplace : a.zIndex.place = b.zIndex.place
    · rw [if_pos (hsame.mpr hplace)]
      simp [hrank, hplace]
    · rw [if_neg (mt hsame.mp hplace), hprecedes]
      simp [hrank, hplace]
  · rw [if_pos hrank]
    simp [hrank]

end OrderedHeights

/-- Two items that each stand once in a list stand in one order. -/
theorem not_both_orders {α : Type} {xs : List α} {a b : α} (h : xs.Nodup)
    (hab : List.Sublist [a, b] xs) : ¬ List.Sublist [b, a] xs := by
  intro hba
  induction xs with
  | nil => exact absurd hab (by simp)
  | cons x xs ih =>
    obtain ⟨hx, hxs⟩ := List.nodup_cons.mp h
    cases hab with
    | cons _ hab =>
      cases hba with
      | cons _ hba => exact ih hxs hab hba
      | cons_cons _ hba => exact hx (hab.subset (by simp))
    | cons_cons _ hab =>
      cases hba with
      | cons _ hba => exact hx (hba.subset (by simp))
      | cons_cons _ hba => exact hx (hba.subset (by simp))

/-- Items at two places of a list stand in the order of the places. -/
theorem pair_sublist {α : Type} {xs : List α} {i j : Nat} {a b : α} (ha : xs[i]? = some a)
    (hb : xs[j]? = some b) (hij : i < j) : List.Sublist [a, b] xs := by
  obtain ⟨hi, rfl⟩ := List.getElem?_eq_some_iff.mp ha
  have hdrop : xs[i] :: xs.drop (i + 1) = xs.drop i := List.getElem_cons_drop hi
  have hmem : b ∈ xs.drop (i + 1) := by
    refine List.mem_of_getElem? (i := j - (i + 1)) ?_
    rw [List.getElem?_drop, show i + 1 + (j - (i + 1)) = j by omega]
    exact hb
  have hpair : List.Sublist [xs[i], b] (xs[i] :: xs.drop (i + 1)) :=
    (List.singleton_sublist.mpr hmem).cons_cons _
  exact (hdrop ▸ hpair).trans (List.drop_sublist i xs)

/-- Where heights have an order and identities differ, what follows in drawing order is not drawn
before. -/
theorem not_drawnBefore_of_pair {layers : List Layer} {elements : List Element} {a b : Element}
    (hids : DistinctIds elements) (hheights : OrderedHeights layers elements)
    (h : List.Sublist [a, b] (ordered layers elements)) : ¬ DrawnBefore layers elements b a := by
  have ha : a ∈ elements := List.mem_mergeSort.mp (h.subset (by simp))
  have hb : b ∈ elements := List.mem_mergeSort.mp (h.subset (by simp))
  rw [hheights.ordered_eq] at h
  -- the list is sorted, so the key of the first of the two is at most that of the second
  have hsorted := List.pairwise_mergeSort (keyAtMost_trans layers) (keyAtMost_total layers) elements
  have hab : drawKey layers a ≤ drawKey layers b := by
    have hpair : keyAtMost layers a b = true := by simpa using hsorted.sublist h
    exact of_decide_eq_true hpair
  rw [hheights.drawnBefore_iff hb ha]
  rintro (hlt | ⟨hkey, hplace⟩)
  · exact absurd hab (not_le.mpr hlt)
  · -- of one key: the list decides, and sorting keeps its order
    obtain ⟨pa, hpa, hata⟩ := hids.getElem?_position? ha
    obtain ⟨pb, hpb, hatb⟩ := hids.getElem?_position? hb
    rw [hpa, hpb] at hplace
    have hba := List.pair_sublist_mergeSort (keyAtMost_trans layers) (keyAtMost_total layers)
      (decide_eq_true hkey.le) (pair_sublist hatb hata hplace)
    have hnodup := (List.mergeSort_perm elements (keyAtMost layers)).nodup_iff.mpr
      hids.elements_nodup
    exact not_both_orders hnodup h hba

/-- Of two elements that differ one is drawn before the other. -/
theorem drawnBefore_total {layers : List Layer} {elements : List Element}
    (hids : DistinctIds elements) (hheights : OrderedHeights layers elements) {a b : Element}
    (ha : a ∈ elements) (hb : b ∈ elements) (hne : a ≠ b) :
    DrawnBefore layers elements a b ∨ DrawnBefore layers elements b a := by
  obtain ⟨pa, hpa, hata⟩ := hids.getElem?_position? ha
  obtain ⟨pb, hpb, hatb⟩ := hids.getElem?_position? hb
  have hplaces : pa ≠ pb := by
    rintro rfl
    exact hne (Option.some.inj (hata.symm.trans hatb))
  rw [hheights.drawnBefore_iff ha hb, hheights.drawnBefore_iff hb ha, hpa, hpb]
  rcases lt_trichotomy (drawKey layers a) (drawKey layers b) with hlt | hkey | hgt
  · exact Or.inl (Or.inl hlt)
  · exact (lt_or_gt_of_ne hplaces).imp (fun h => Or.inr ⟨hkey, h⟩) fun h => Or.inr ⟨hkey.symm, h⟩
  · exact Or.inr (Or.inl hgt)

/-- **Elements are ordered by layer, height and place.** -/
theorem pairwise_ordered {layers : List Layer} {elements : List Element}
    (hids : DistinctIds elements) (hheights : OrderedHeights layers elements) :
    (ordered layers elements).Pairwise (DrawnBefore layers elements) := by
  have hnodup : (ordered layers elements).Nodup :=
    (List.mergeSort_perm elements _).nodup_iff.mpr hids.elements_nodup
  refine List.pairwise_iff_forall_sublist.mpr fun {a b} hab => ?_
  have ha : a ∈ elements := List.mem_mergeSort.mp (hab.subset (by simp))
  have hb : b ∈ elements := List.mem_mergeSort.mp (hab.subset (by simp))
  have hne : a ≠ b := by
    have hpair := hnodup.sublist hab
    simpa using hpair
  -- what follows in the sorted list is not drawn before
  rcases drawnBefore_total hids hheights ha hb hne with h | h
  · exact h
  · exact absurd h (not_drawnBefore_of_pair hids hheights hab)

/-- What one holder holds stands in drawing order. -/
theorem pairwise_held {layers : List Layer} {elements : List Element}
    (hids : DistinctIds elements) (hheights : OrderedHeights layers elements)
    (holder : Option Nat) :
    (held elements (ordered layers elements) holder).Pairwise (DrawnBefore layers elements) := by
  rw [held_eq_filter hids]
  exact (pairwise_ordered hids hheights).sublist List.filter_sublist

end ControlSurface.Layout
