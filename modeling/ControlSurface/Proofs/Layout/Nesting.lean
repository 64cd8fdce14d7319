/-
  ControlSurface.Proofs.Layout.Nesting
  ────────────────────────────────────
  The forest in which elements are nested.  `grow` cuts the forest off at a depth; that nothing is
  cut off follows from counting ancestors, of which each element has more than its holder.  What is
  gathered along a forest comes from its elements, and only containers hold others in it.

  Main results:
    * `walk_forest_perm` — no element is lost and none comes twice.
    * `forest_nests` — an element is a child of its holder and of nothing else, all others are
      roots, and roots and children stand in drawing order.
    * `nested_only_if_orderly` — an element whose parent identity is empty is a root, even if there
      is a container of that identity, and elements without order are not drawn.
-/
import ControlSurface.Proofs.Layout.Ancestors
import ControlSurface.Proofs.Layout.Preorder
import ControlSurface.Proofs.Layout.Siblings

namespace ControlSurface.Layout

open Relation

/-! ## §1. Nodes of a forest. -/

/-- The nodes of a forest: its roots, and the children of its nodes. -/
inductive IsNode (ts : List Tree) : Tree → Prop where
  | root {t : Tree} (h : t ∈ ts) : IsNode ts t
  | child {s t : Tree} (hs : IsNode ts s) (h : t ∈ s.children) : IsNode ts t

/-- Whether an element is a child of the node of another one. -/
def IsChild (ts : List Tree) (p e : Element) : Prop :=
  ∃ t, IsNode ts t ∧ t.element = p ∧ e ∈ t.children.map Tree.element

/-- The nodes of a forest are nodes of every forest of which its roots are nodes. -/
theorem IsNode.within {ts us : List Tree} (hroots : ∀ t ∈ ts, IsNode us t) {t : Tree}
    (h : IsNode ts t) : IsNode us t := by
  induction h with
  | root h => exact hroots _ h
  | child _ h ih => exact .child ih h

theorem IsChild.within {ts us : List Tree} (hroots : ∀ t ∈ ts, IsNode us t) {p e : Element}
    (h : IsChild ts p e) : IsChild us p e := by
  obtain ⟨t, ht, hp, he⟩ := h
  exact ⟨t, ht.within hroots, hp, he⟩

mutual
/-- What a walk through a tree passes is its root or a child. -/
theorem Tree.of_mem_walk (t : Tree) {e : Element} (h : e ∈ t.walk) :
    e = t.element ∨ ∃ p, IsChild [t] p e := by
  cases t with
  | node a children =>
    rw [Tree.walk] at h
    rcases List.mem_cons.mp h with rfl | h
    · exact Or.inl rfl
    · have hself : IsNode [Tree.node a children] (.node a children) := .root (by simp)
      rcases of_mem_walk children h with hroot | ⟨p, hp⟩
      · exact Or.inr ⟨a, _, hself, rfl, hroot⟩
      · exact Or.inr ⟨p, hp.within fun _ ht => .child hself ht⟩

/-- What a walk through a forest passes is a root or a child. -/
theorem of_mem_walk (ts : List Tree) {e : Element} (h : e ∈ walk ts) :
    e ∈ ts.map Tree.element ∨ ∃ p, IsChild ts p e := by
  cases ts with
  | nil =>
    rw [walk] at h
    exact absurd h List.not_mem_nil
  | cons t ts =>
    rw [walk] at h
    rcases List.mem_append.mp h with h | h
    · rcases Tree.of_mem_walk t h with rfl | ⟨p, hp⟩
      · exact Or.inl (List.mem_cons_self ..)
      · refine Or.inr ⟨p, hp.within fun s hs => .root ?_⟩
        rw [List.mem_singleton.mp hs]
        exact List.mem_cons_self ..
    · rcases of_mem_walk ts h with hroot | ⟨p, hp⟩
      · exact Or.inl (List.mem_cons_of_mem _ hroot)
      · exact Or.inr ⟨p, hp.within fun s hs => .root (List.mem_cons_of_mem _ hs)⟩
end

/-- A walk through nodes passes each element and then what lies in its node. -/
theorem walk_map_node (es : List Element) (below : Element → List Tree) :
    walk (es.map fun e => .node e (below e)) = es.flatMap fun e => e :: walk (below e) := by
  induction es with
  | nil => rw [List.map_nil, walk, List.flatMap_nil]
  | cons e es ih => rw [List.map_cons, walk, Tree.walk, ih, List.flatMap_cons]

/-! ## §2. One level. -/

section Levels

variable {layers : List Layer} {elements : List Element}

/-- What lies in a holder down to a depth, each element with what lies in it. -/
def level (layers : List Layer) (elements : List Element) (depth : Nat) (holder : Option Nat) :
    List Tree :=
  grow elements (ordered layers elements) depth
    (heldBy elements (ordered layers elements) holder)

theorem forest_eq : forest layers elements = level layers elements (elements.length + 1) none := rfl

/-- **A level**: the elements that the holder holds, in drawing order, each with its own level. -/
theorem level_succ (hids : DistinctIds elements) (depth : Nat) (holder : Option Nat) :
    level layers elements (depth + 1) holder
      = (held elements (ordered layers elements) holder).map fun e =>
          .node e (level layers elements depth (position? elements e.id)) := by
  have hplace : ∀ i ∈ heldBy elements (ordered layers elements) holder,
      ((elements[i]?).map fun e => Tree.node e (level layers elements depth (some i)))
        = (elements[i]?).map fun e =>
            Tree.node e (level layers elements depth (position? elements e.id)) := by
    intro i _
    cases hat : elements[i]? with
    | none => rfl
    | some e =>
      -- the place of an element is that of its identity
      obtain ⟨j, hj, hat'⟩ := hids.getElem?_position? (List.mem_of_getElem? hat)
      rw [Option.map_some, Option.map_some, hj, hids.index_inj hat' hat rfl]
  rw [level, grow, held, List.map_filterMap]
  exact List.filterMap_congr hplace

theorem walk_level_succ (hids : DistinctIds elements) (depth : Nat) (holder : Option Nat) :
    walk (level layers elements (depth + 1) holder)
      = (held elements (ordered layers elements) holder).flatMap fun e =>
          e :: walk (level layers elements depth (position? elements e.id)) := by
  rw [level_succ hids, walk_map_node]

theorem not_mem_walk_level_zero (e : Element) (holder : Option Nat) :
    e ∉ walk (level layers elements 0 holder) := by
  rw [level, grow, walk]
  exact List.not_mem_nil

/-- A walk through a level passes the elements that the holder holds and what lies in them. -/
theorem mem_walk_level_succ (hids : DistinctIds elements) {depth : Nat} {holder : Option Nat}
    {x : Element} :
    x ∈ walk (level layers elements (depth + 1) holder)
      ↔ ∃ e ∈ elements, holder? elements e = holder
          ∧ (x = e ∨ x ∈ walk (level layers elements depth (position? elements e.id))) := by
  rw [walk_level_succ hids, List.mem_flatMap]
  simp only [mem_held hids, List.mem_cons, and_assoc]

/-! ## §3. Nothing comes twice. -/

/-- The place of an element holds what the element holds. -/
theorem holder?_eq_position?_iff (hids : DistinctIds elements) {x e : Element}
    (hx : x ∈ elements) (he : e ∈ elements) :
    holder? elements x = position? elements e.id ↔ HeldBy elements x e := by
  obtain ⟨i, hi, hat⟩ := hids.getElem?_position? he
  rw [hi, holder?_eq_some_iff hids hx]
  constructor
  · rintro ⟨p, hp, hheld⟩
    cases hat.symm.trans hp
    exact hheld
  · intro hheld
    exact ⟨e, hat, hheld⟩

/-- What a level passes below an element is listed and held by it, maybe through others. -/
theorem of_mem_walk_level (hids : DistinctIds elements) {depth : Nat} {x e : Element}
    (he : e ∈ elements) (h : x ∈ walk (level layers elements depth (position? elements e.id))) :
    x ∈ elements ∧ TransGen (HeldBy elements) x e := by
  induction depth generalizing e with
  | zero => exact absurd h (not_mem_walk_level_zero x _)
  | succ depth ih =>
    obtain ⟨a, ha, hholder, hx⟩ := (mem_walk_level_succ hids).mp h
    have hheld : HeldBy elements a e := (holder?_eq_position?_iff hids ha he).mp hholder
    rcases hx with rfl | hx
    · exact ⟨ha, .single hheld⟩
    · obtain ⟨hmem, hbelow⟩ := ih ha hx
      exact ⟨hmem, hbelow.tail hheld⟩

/-- Of two siblings neither is held by the other: they would hold themselves. -/
theorem eq_of_siblings (hids : DistinctIds elements) {a b : Element} (ha : a ∈ elements)
    (hb : b ∈ elements) (hholder : holder? elements a = holder? elements b)
    (h : ReflTransGen (HeldBy elements) a b) : a = b := by
  rcases ReflTransGen.cases_head h with hab | ⟨p, hap, hpb⟩
  · exact hab
  · exfalso
    obtain ⟨i, hi⟩ := List.getElem?_of_mem hap.parent.1
    have hbp : HeldBy elements b p := by
      have hsome := (holder?_eq_some_iff hids ha).mpr ⟨p, hi, hap⟩
      rw [hholder] at hsome
      obtain ⟨q, hq, hheld⟩ := (holder?_eq_some_iff hids hb).mp hsome
      cases hi.symm.trans hq
      exact hheld
    exact heldBy_acyclic b (TransGen.head' hbp hpb)

/-- **No level passes an element twice.** -/
theorem nodup_walk_level (hids : DistinctIds elements) (depth : Nat) (holder : Option Nat) :
    (walk (level layers elements depth holder)).Nodup := by
  induction depth generalizing holder with
  | zero =>
    rw [level, grow, walk]
    exact List.nodup_nil
  | succ depth ih =>
    rw [walk_level_succ hids, List.nodup_flatMap]
    constructor
    · intro e he
      obtain ⟨hmem, _⟩ := (mem_held hids).mp he
      refine List.nodup_cons.mpr ⟨fun hin => ?_, ih _⟩
      exact heldBy_acyclic e (of_mem_walk_level hids hmem hin).2
    · have hnodup : (held elements (ordered layers elements) holder).Nodup := by
        rw [held_eq_filter hids]
        refine List.Nodup.filter _ ?_
        exact (List.mergeSort_perm elements _).nodup_iff.mpr hids.elements_nodup
      -- what two siblings have in common is held by both, so one holds the other
      refine hnodup.imp_of_mem fun {a b} ha hb hne => ?_
      obtain ⟨hamem, haholder⟩ := (mem_held hids).mp ha
      obtain ⟨hbmem, hbholder⟩ := (mem_held hids).mp hb
      have hup : ∀ {x e : Element}, e ∈ elements →
          x ∈ e :: walk (level layers elements depth (position? elements e.id)) →
          ReflTransGen (HeldBy elements) x e := by
        intro x e he hx
        rcases List.mem_cons.mp hx with rfl | hx
        · exact .refl
        · exact (of_mem_walk_level hids he hx).2.to_reflTransGen
      intro x hxa hxb
      rcases ReflTransGen.total_of_right_unique (heldBy_rightUnique hids) (hup hamem hxa)
        (hup hbmem hxb) with hab | hba
      · exact hne (eq_of_siblings hids hamem hbmem (haholder.trans hbholder.symm) hab)
      · exact hne (eq_of_siblings hids hbmem hamem (hbholder.trans haholder.symm) hba).symm

/-! ## §4. Nothing is lost. -/

/-- A deeper level passes at least as much. -/
theorem mem_walk_level_of_le (hids : DistinctIds elements) {depth more : Nat}
    (hle : depth ≤ more) {holder : Option Nat} {x : Element}
    (h : x ∈ walk (level layers elements depth holder)) :
    x ∈ walk (level layers elements more holder) := by
  induction depth generalizing more holder with
  | zero => exact absurd h (not_mem_walk_level_zero x _)
  | succ depth ih =>
    obtain ⟨more, rfl⟩ : ∃ m, more = m + 1 := ⟨more - 1, by omega⟩
    obtain ⟨e, he, hholder, hx⟩ := (mem_walk_level_succ hids).mp h
    refine (mem_walk_level_succ hids).mpr ⟨e, he, hholder, ?_⟩
    rcases hx with rfl | hx
    · exact Or.inl rfl
    · exact Or.inr (ih (by omega) hx)

/-- One level deeper stands what is held by what a level passes. -/
theorem mem_walk_level_of_heldBy (hids : DistinctIds elements) {depth : Nat}
    {holder : Option Nat} {x p : Element} (hx : x ∈ elements) (hheld : HeldBy elements x p)
    (h : p ∈ walk (level layers elements depth holder)) :
    x ∈ walk (level layers elements (depth + 1) holder) := by
  induction depth generalizing holder with
  | zero => exact absurd h (not_mem_walk_level_zero p _)
  | succ depth ih =>
    obtain ⟨e, he, hholder, hp⟩ := (mem_walk_level_succ hids).mp h
    refine (mem_walk_level_succ hids).mpr ⟨e, he, hholder, Or.inr ?_⟩
    rcases hp with rfl | hp
    · exact (mem_walk_level_succ hids).mpr
        ⟨x, hx, (holder?_eq_position?_iff hids hx he).mpr hheld, Or.inl rfl⟩
    · exact ih hp

open Classical in
/-- How many elements hold an element, itself or through others. -/
noncomputable def ancestors (elements : List Element) (x : Element) : Nat :=
  (elements.filter fun y => TransGen (HeldBy elements) x y).length

open Classical in
/-- A holder has fewer ancestors: all of its own are ancestors of what it holds, and so is it. -/
theorem ancestors_lt {x p : Element} (hheld : HeldBy elements x p) :
    ancestors elements p < ancestors elements x := by
  have hsub : List.Sublist (elements.filter fun y => TransGen (HeldBy elements) p y)
      (elements.filter fun y => TransGen (HeldBy elements) x y) := by
    refine List.monotone_filter_right elements fun y hy => ?_
    exact decide_eq_true (TransGen.head hheld (of_decide_eq_true hy))
  refine Nat.lt_of_le_of_ne hsub.length_le fun hlength => ?_
  have hp : p ∈ elements.filter fun y => TransGen (HeldBy elements) p y := by
    rw [hsub.eq_of_length hlength, List.mem_filter]
    exact ⟨hheld.parent.1, decide_eq_true (.single hheld)⟩
  exact heldBy_acyclic p (of_decide_eq_true (List.mem_filter.mp hp).2)

/-- **An element is passed as deep as it has ancestors.** -/
theorem mem_walk_level_ancestors (hids : DistinctIds elements) {x : Element}
    (hx : x ∈ elements) :
    x ∈ walk (level layers elements (ancestors elements x + 1) none) := by
  -- over the number of ancestors: a holder has fewer and is passed one level above
  induction hn : ancestors elements x using Nat.strong_induction_on generalizing x with
  | _ n ih =>
    subst hn
    cases hholder : holder? elements x with
    | none => exact (mem_walk_level_succ hids).mpr ⟨x, hx, hholder, Or.inl rfl⟩
    | some i =>
      obtain ⟨p, _, hheld⟩ := (holder?_eq_some_iff hids hx).mp hholder
      have hlt := ancestors_lt hheld
      have hp := ih _ hlt hheld.parent.1 rfl
      refine mem_walk_level_of_le hids ?_ (mem_walk_level_of_heldBy hids hx hheld hp)
      omega

/-- **No element is lost and none comes twice.** -/
theorem walk_forest_perm (hids : DistinctIds elements) :
    (walk (forest layers elements)).Perm elements := by
  rw [forest_eq]
  refine (List.perm_ext_iff_of_nodup (nodup_walk_level hids _ _) hids.elements_nodup).mpr
    fun x => ⟨?_, ?_⟩
  · intro h
    obtain ⟨e, he, _, hx⟩ := (mem_walk_level_succ hids).mp h
    rcases hx with rfl | hx
    · exact he
    · exact (of_mem_walk_level hids he hx).1
  · intro hx
    refine mem_walk_level_of_le hids ?_ (mem_walk_level_ancestors hids hx)
    exact Nat.succ_le_succ (List.length_filter_le _ _)

/-! ## §5. Roots and children. -/

/-- The elements at the top of a level are held by the holder, or the level is cut off. -/
theorem map_element_level (hids : DistinctIds elements) (depth : Nat) (holder : Option Nat) :
    (level layers elements depth holder).map Tree.element
      = if depth = 0 then [] else held elements (ordered layers elements) holder := by
  cases depth with
  | zero => rfl
  | succ depth =>
    rw [level_succ hids, List.map_map, if_neg (Nat.succ_ne_zero depth)]
    exact List.map_id _

/-- The children of a node are a level: what the element of the node holds. -/
theorem children_of_isNode (hids : DistinctIds elements) {depth : Nat} {holder : Option Nat}
    {t : Tree} (h : IsNode (level layers elements depth holder) t) :
    t.element ∈ elements ∧ ∃ d, t.children
      = level layers elements d (position? elements t.element.id) := by
  -- the nodes of a level are those of one level, and each has the next level as children
  have hlevel : ∀ {d : Nat} {holder : Option Nat} {t : Tree},
      t ∈ level layers elements d holder → t.element ∈ elements ∧ ∃ d, t.children
        = level layers elements d (position? elements t.element.id) := by
    intro d holder t ht
    cases d with
    | zero => exact absurd ht List.not_mem_nil
    | succ d =>
      rw [level_succ hids] at ht
      obtain ⟨e, he, rfl⟩ := List.mem_map.mp ht
      exact ⟨((mem_held hids).mp he).1, d, rfl⟩
  induction h with
  | root h => exact hlevel h
  | child _ h ih =>
    obtain ⟨_, d, hd⟩ := ih
    rw [hd] at h
    exact hlevel h

/-- What is a child of an element is held by it. -/
theorem heldBy_of_isChild (hids : DistinctIds elements) {p e : Element}
    (h : IsChild (forest layers elements) p e) : e ∈ elements ∧ HeldBy elements e p := by
  obtain ⟨t, ht, rfl, he⟩ := h
  rw [forest_eq] at ht
  obtain ⟨hmem, d, hd⟩ := children_of_isNode hids ht
  rw [hd, map_element_level hids] at he
  split at he
  · exact absurd he List.not_mem_nil
  · obtain ⟨hemem, hholder⟩ := (mem_held hids).mp he
    exact ⟨hemem, (holder?_eq_position?_iff hids hemem hmem).mp hholder⟩

/-- The roots are the elements that nothing holds. -/
theorem mem_roots_iff (hids : DistinctIds elements) {e : Element} :
    e ∈ (forest layers elements).map Tree.element
      ↔ e ∈ elements ∧ ∀ p, ¬ HeldBy elements e p := by
  rw [forest_eq, map_element_level hids, if_neg (Nat.succ_ne_zero _), mem_held hids]
  refine and_congr_right fun he => ?_
  exact holder?_eq_none_iff hids he

/-- **The children of an element are what it holds.** -/
theorem isChild_iff (hids : DistinctIds elements) {p e : Element} :
    IsChild (forest layers elements) p e ↔ e ∈ elements ∧ HeldBy elements e p := by
  constructor
  · exact heldBy_of_isChild hids
  · -- an element is passed as a root or as a child, and it has one holder at most
    rintro ⟨he, hheld⟩
    have hwalk : e ∈ walk (forest layers elements) := (walk_forest_perm hids).mem_iff.mpr he
    rcases of_mem_walk _ hwalk with hroot | ⟨q, hq⟩
    · exact absurd hheld (((mem_roots_iff hids).mp hroot).2 p)
    · have hpq : q = p := heldBy_rightUnique hids (heldBy_of_isChild hids hq).2 hheld
      exact hpq ▸ hq

/-- Roots, and the children of every node, stand in drawing order. -/
theorem pairwise_level (hids : DistinctIds elements) (hheights : OrderedHeights layers elements)
    (depth : Nat) (holder : Option Nat) :
    ((level layers elements depth holder).map Tree.element).Pairwise
      (DrawnBefore layers elements) := by
  rw [map_element_level hids]
  split
  · exact List.Pairwise.nil
  · exact pairwise_held hids hheights holder

end Levels

/-! ## §6. The forest. -/

/-- **Elements are nested in a forest** that passes each of them once; an element is a child of the
node of its holder, which is its listed parent if that is a container from which parents do not lead
back; all others are roots; and roots and the children of every node stand by layer, height and
place.  Layers must be named by what can be looked up, and heights must have an order. -/
theorem forest_nests {layers : List Layer} {elements : List Element}
    (hids : DistinctIds elements) (hheights : OrderedHeights layers elements)
    (hkeys : ∀ e ∈ elements, e.layerId.truthy = true → e.layerId.isKey = true) :
    ∃ ts, renderTree layers elements = .ok ts
      ∧ (walk ts).Perm elements
      ∧ (∀ p e, IsChild ts p e ↔ e ∈ elements ∧ HeldBy elements e p)
      ∧ (∀ e, e ∈ ts.map Tree.element ↔ e ∈ elements ∧ ∀ p, ¬ HeldBy elements e p)
      ∧ (ts.map Tree.element).Pairwise (DrawnBefore layers elements)
      ∧ ∀ t, IsNode ts t →
          (t.children.map Tree.element).Pairwise (DrawnBefore layers elements) := by
  refine ⟨forest layers elements, ?_, walk_forest_perm hids, fun p e => isChild_iff hids,
    fun e => mem_roots_iff hids, ?_, ?_⟩
  · rw [renderTree, if_pos (hasOrder_iff.mpr ⟨hkeys, hheights.comparable⟩)]
  · exact pairwise_level hids hheights _ _
  · intro t ht
    rw [forest_eq] at ht
    obtain ⟨_, d, hd⟩ := children_of_isNode hids ht
    rw [hd]
    exact pairwise_level hids hheights _ _

/-! ## §7. Small projects. -/

/-- A knob in a panel, at a height. -/
def knobAt (id : String) (height : Float) : Element :=
  ⟨.knob, Element.assign .knob
    [("id", .text id), ("parent_id", .text "a"), ("z_index", .float height)]⟩

/-- Two panels that lie in each other, and two knobs in the first of them, the higher one listed
first. -/
def ringWithKnobs : List Element := ring ++ [knobAt "c" 1.5, knobAt "d" 0.5]

theorem mem_ringWithKnobs {e : Element} :
    e ∈ ringWithKnobs ↔ e ∈ ring ∨ e = knobAt "c" 1.5 ∨ e = knobAt "d" 0.5 := by
  simp [ringWithKnobs]

theorem distinctIds_ringWithKnobs : DistinctIds ringWithKnobs := by
  constructor
  · intro e he
    rcases mem_ringWithKnobs.mp he with he | rfl | rfl
    · exact namedByText_ring e he
    · exact ⟨"c", rfl⟩
    · exact ⟨"d", rfl⟩
  · show [Value.text "a", Value.text "b", Value.text "c", Value.text "d"].Nodup
    simp

/-- An element that has its place and nothing else from a project lies on the default layer, at the
height of all. -/
theorem placed_plain (kind : Kind) (hkind : kind = .panel ∨ kind = .knob) (id : String)
    (parent : Value) :
    (placed kind id parent).zIndex = .int 0 ∧ (placed kind id parent).layerId.isKey = true := by
  rcases hkind with rfl | rfl
  · exact ⟨rfl, rfl⟩
  · exact ⟨rfl, rfl⟩

theorem mem_ring {e : Element} :
    e ∈ ring ↔ e = placed .panel "a" (.text "b") ∨ e = placed .panel "b" (.text "a") := by
  simp [ring]

/-- Halves are numbers, so the heights of the ring and of its knobs have an order. -/
theorem orderedHeights_ringWithKnobs : OrderedHeights [] ringWithKnobs := by
  have hheight : ∀ e ∈ ringWithKnobs,
      e.zIndex = .int 0 ∨ e.zIndex = .float 1.5 ∨ e.zIndex = .float 0.5 := by
    intro e he
    rcases mem_ringWithKnobs.mp he with he | rfl | rfl
    · rcases mem_ring.mp he with rfl | rfl
      · exact Or.inl (placed_plain _ (Or.inl rfl) _ _).1
      · exact Or.inl (placed_plain _ (Or.inl rfl) _ _).1
    · exact Or.inr (Or.inl rfl)
    · exact Or.inr (Or.inr rfl)
  have hnumber : ∀ e ∈ ringWithKnobs, ∃ n, e.zIndex.num? = some n := by
    intro e he
    rcases hheight e he with h | h | h
    · exact ⟨.int 0, by rw [h]; rfl⟩
    · exact ⟨.float 1.5, by rw [h]; rfl⟩
    · exact ⟨.float 0.5, by rw [h]; rfl⟩
  refine ⟨fun a ha b hb => ?_, ?_⟩
  · obtain ⟨n, hn⟩ := hnumber a ha
    obtain ⟨m, hm⟩ := hnumber b hb
    exact comparable_of_num [] hn hm
  · rintro ⟨e, he, x, hx, hnan⟩
    rcases hheight e he with h | h | h
    · cases h.symm.trans hx
    · cases h.symm.trans hx
      exact absurd hnan (by decide)
    · cases h.symm.trans hx
      exact absurd hnan (by decide)

/-- Round the ring, a parent of a panel is the other panel, whose parent is the first one. -/
theorem parent_in_ring {e p : Element} (he : e ∈ ring) (h : ListedParent ringWithKnobs e p) :
    p ∈ ring ∧ ListedParent ringWithKnobs p e := by
  obtain ⟨hp, _, hid⟩ := h
  have hlisted : e ∈ ringWithKnobs := mem_ringWithKnobs.mpr (Or.inl he)
  rcases mem_ring.mp he with rfl | rfl <;>
    rcases mem_ringWithKnobs.mp hp with hp | rfl | rfl
  · rcases mem_ring.mp hp with rfl | rfl
    · exact absurd (Value.text.inj hid) (by decide)
    · exact ⟨by simp [ring], hlisted, rfl, rfl⟩
  · exact absurd (Value.text.inj hid) (by decide)
  · exact absurd (Value.text.inj hid) (by decide)
  · rcases mem_ring.mp hp with rfl | rfl
    · exact ⟨by simp [ring], hlisted, rfl, rfl⟩
    · exact absurd (Value.text.inj hid) (by decide)
  · exact absurd (Value.text.inj hid) (by decide)
  · exact absurd (Value.text.inj hid) (by decide)

/-- Parents lead round the ring and not out of it. -/
theorem stays_in_ring {x : Element}
    (h : ReflTransGen (ListedParent ringWithKnobs) (placed .panel "a" (.text "b")) x) : x ∈ ring := by
  induction h with
  | refl => exact List.mem_cons_self ..
  | tail _ hlink ih => exact (parent_in_ring ih hlink).1

/-- In the ring no parent leads to a knob, so the knobs lie in the panel that is their parent, the
one at the height of a half below the one at one and a half; and the two panels, which lie in each
other, are drawn at the top. -/
theorem ringWithKnobs_nests :
    DistinctIds ringWithKnobs ∧ OrderedHeights [] ringWithKnobs
      ∧ (∀ e ∈ ringWithKnobs, e.layerId.truthy = true → e.layerId.isKey = true)
      ∧ DrawnBefore [] ringWithKnobs (knobAt "d" 0.5) (knobAt "c" 1.5)
      ∧ ∃ ts, renderTree [] ringWithKnobs = .ok ts ∧ (walk ts).Perm ringWithKnobs
          ∧ (∀ e ∈ [knobAt "c" 1.5, knobAt "d" 0.5], IsChild ts (placed .panel "a" (.text "b")) e)
          ∧ ∀ e ∈ ring, e ∈ ts.map Tree.element := by
  have hkeys : ∀ e ∈ ringWithKnobs, e.layerId.truthy = true → e.layerId.isKey = true := by
    intro e he _
    rcases mem_ringWithKnobs.mp he with he | rfl | rfl
    · rcases mem_ring.mp he with rfl | rfl
      · exact (placed_plain _ (Or.inl rfl) _ _).2
      · exact (placed_plain _ (Or.inl rfl) _ _).2
    · rfl
    · rfl
  have hbefore : DrawnBefore [] ringWithKnobs (knobAt "d" 0.5) (knobAt "c" 1.5) := by
    rw [DrawnBefore, if_neg (by decide), if_neg (by decide)]
    decide
  obtain ⟨ts, hts, hperm, hchild, hroot, _⟩ :=
    forest_nests distinctIds_ringWithKnobs orderedHeights_ringWithKnobs hkeys
  refine ⟨distinctIds_ringWithKnobs, orderedHeights_ringWithKnobs, hkeys, hbefore, ts, hts, hperm,
    fun e he => ?_, fun e he => ?_⟩
  · have hlisted : e ∈ ringWithKnobs := List.mem_append_right _ he
    have hparent : ListedParent ringWithKnobs e (placed .panel "a" (.text "b")) := by
      rcases List.mem_cons.mp he with rfl | he
      · exact ⟨by simp [ringWithKnobs, ring], rfl, rfl⟩
      · cases List.mem_singleton.mp he
        exact ⟨by simp [ringWithKnobs, ring], rfl, rfl⟩
    have hknob : e.kind = .knob := by
      rcases List.mem_cons.mp he with rfl | he
      · rfl
      · cases List.mem_singleton.mp he
        rfl
    refine (hchild _ _).mpr ⟨hlisted, hparent, rfl, fun hback => ?_⟩
    rcases mem_ring.mp (stays_in_ring hback) with rfl | rfl
    · cases hknob
    · cases hknob
  · refine (hroot e).mpr ⟨mem_ringWithKnobs.mpr (Or.inl he), fun p hheld => ?_⟩
    exact hheld.apart (.single (parent_in_ring he hheld.parent).2)

/-- Whether an element has the identity of another as its parent identity, be it empty or not. -/
def NamesParent (elements : List Element) (e p : Element) : Prop :=
  p ∈ elements ∧ p.id = e.parentId

/-- A knob whose parent identity is empty is no child of a panel of the empty identity, though that
is a container and names no parent itself. -/
theorem unnamed_has_no_child :
    DistinctIds unnamedPanel
      ∧ ∃ ts, renderTree [] unnamedPanel = .ok ts
          ∧ ¬ ∀ p e, IsChild ts p e
              ↔ e ∈ unnamedPanel ∧ NamesParent unnamedPanel e p ∧ p.kind.container = true
                ∧ ¬ ReflTransGen (NamesParent unnamedPanel) p e := by
  have hids : DistinctIds unnamedPanel := by
    refine ⟨namedByText_unnamedPanel, ?_⟩
    show [Value.text "", Value.text "b"].Nodup
    simp
  have hplain : ∀ e ∈ unnamedPanel, e.zIndex = .int 0 ∧ e.layerId.isKey = true := by
    intro e he
    rcases List.mem_cons.mp he with rfl | he
    · exact placed_plain _ (Or.inl rfl) _ _
    · rw [List.mem_singleton.mp he]
      exact placed_plain _ (Or.inr rfl) _ _
  have hwhole : WholeHeights unnamedPanel := fun e he => ⟨0, (hplain e he).1⟩
  refine ⟨hids, forest [] unnamedPanel, ?_, fun hall => ?_⟩
  · rw [renderTree, if_pos (hasOrder_of_whole hwhole fun e he => (hplain e he).2)]
  · have hchild : IsChild (forest [] unnamedPanel) (placed .panel "" .null)
        (placed .knob "b" (.text "")) := by
      refine (hall _ _).mpr ⟨by simp [unnamedPanel], ⟨by simp [unnamedPanel], rfl⟩, rfl,
        fun hback => ?_⟩
      -- no element has the identity that the panel gives for its parent
      rcases ReflTransGen.cases_head hback with heq | ⟨q, ⟨hq, hid⟩, _⟩
      · exact absurd (congrArg Element.kind heq) (by decide)
      · obtain ⟨s, hs⟩ := namedByText_unnamedPanel q hq
        rw [hs] at hid
        cases hid
    exact absurd ((isChild_iff hids).mp hchild).2.parent.2.1 (by decide)

/-- A label at a height, on a layer. -/
def labelAt (id name : String) (height layer : Value) : Element :=
  ⟨.label, Element.assign .label
    [("id", .text id), ("name", .text name), ("z_index", height), ("layer_id", layer)]⟩

/-- Two labels at two heights, on the default layer. -/
def twoLabels (low high : Value) : List Element :=
  [labelAt "a" "Low" low .null, labelAt "b" "High" high .null]

theorem distinctIds_twoLabels (low high : Value) : DistinctIds (twoLabels low high) := by
  constructor
  · intro e he
    rcases List.mem_cons.mp he with rfl | he
    · exact ⟨"a", rfl⟩
    · rw [List.mem_singleton.mp he]
      exact ⟨"b", rfl⟩
  · show [Value.text "a", Value.text "b"].Nodup
    simp

/-- Two labels one of which has not-a-number as its height. -/
def nanLabels : List Element := twoLabels (.float Number.nan) (.int 1)

/-- None of them is drawn before the other, in whatever order they stand. -/
theorem not_pairwise_nanLabels {drawn : List Element} (hall : ∀ e ∈ nanLabels, e ∈ drawn) :
    ¬ drawn.Pairwise (DrawnBefore [] nanLabels) := by
  intro hpairwise
  have hlow : ¬ DrawnBefore [] nanLabels (labelAt "a" "Low" (.float Number.nan) .null)
      (labelAt "b" "High" (.int 1) .null) := by
    rw [DrawnBefore, if_neg (by decide), if_neg (by decide)]
    decide
  have hhigh : ¬ DrawnBefore [] nanLabels (labelAt "b" "High" (.int 1) .null)
      (labelAt "a" "Low" (.float Number.nan) .null) := by
    rw [DrawnBefore, if_neg (by decide), if_neg (by decide)]
    decide
  have hne : labelAt "a" "Low" (.float Number.nan) .null ≠ labelAt "b" "High" (.int 1) .null :=
    fun h => absurd (Value.text.inj (congrArg Element.name h)) (by decide)
  have heither : drawn.Pairwise fun a b =>
      DrawnBefore [] nanLabels a b ∨ DrawnBefore [] nanLabels b a := hpairwise.imp Or.inl
  have : Std.Symm fun a b => DrawnBefore [] nanLabels a b ∨ DrawnBefore [] nanLabels b a :=
    ⟨fun _ _ => Or.symm⟩
  exact (heither.forall (hall _ (List.mem_cons_self ..))
    (hall _ (List.mem_cons_of_mem _ (List.mem_cons_self ..))) hne).elim hlow hhigh

/-- Elements need more than identities of their own to be nested by layer and height: parents need
names, heights on one layer have to be comparable, none may be not-a-number, and layers must be
named by what can be looked up. -/
theorem nested_only_if_orderly :
    (DistinctIds unnamedPanel
      ∧ ∃ ts, renderTree [] unnamedPanel = .ok ts
          ∧ ¬ ∀ p e, IsChild ts p e
              ↔ e ∈ unnamedPanel ∧ NamesParent unnamedPanel e p ∧ p.kind.container = true
                ∧ ¬ ReflTransGen (NamesParent unnamedPanel) p e)
      ∧ (DistinctIds (twoLabels (.text "high") (.int 1))
          ∧ renderTree [] (twoLabels (.text "high") (.int 1)) = .error .wrongType)
      ∧ (DistinctIds nanLabels
          ∧ ∃ ts, renderTree [] nanLabels = .ok ts
              ∧ ¬ (ts.map Tree.element).Pairwise (DrawnBefore [] nanLabels))
      ∧ renderTree [] [labelAt "a" "Low" (.int 0) (.list [.int 1])] = .error .wrongType := by
  refine ⟨unnamed_has_no_child, ⟨distinctIds_twoLabels _ _, ?_⟩, ⟨distinctIds_twoLabels _ _, ?_⟩, ?_⟩
  · rw [renderTree, if_neg (by decide)]
  · refine ⟨forest [] nanLabels, ?_, not_pairwise_nanLabels fun e he => ?_⟩
    · rw [renderTree, if_pos (by decide)]
    · refine (mem_roots_iff (distinctIds_twoLabels _ _)).mpr ⟨he, fun p hheld => ?_⟩
      have horphan : ∀ e ∈ nanLabels, e.hasParent = false := by decide
      exact absurd hheld.parent.2.1 (by rw [horphan e he]; exact Bool.false_ne_true)
  · rw [renderTree, if_neg (by decide)]

/-! ## §8. Gathering. -/

variable {α : Type}

section Gathering

variable (own : Element → List α → List α)

mutual
/-- What is gathered from a tree of elements; `own` tells what an element makes of what is gathered
from those in it. -/
def gather : Tree → List α
  | .node e children => own e (gatherAll children)

/-- What is gathered from a forest. -/
def gatherAll : List Tree → List α
  | [] => []
  | t :: ts => gather t ++ gatherAll ts
end

theorem gather_node (e : Element) (children : List Tree) :
    gather own (.node e children) = own e (gatherAll own children) := by rw [gather]

theorem gatherAll_cons (t : Tree) (ts : List Tree) :
    gatherAll own (t :: ts) = gather own t ++ gatherAll own ts := by rw [gatherAll]

end Gathering

/-- What every element adds of itself is gathered in the order of a walk. -/
theorem gatherAll_walk (f : Element → List α) (ts : List Tree) :
    gatherAll (fun e inside => f e ++ inside) ts = (walk ts).flatMap f := by
  induction ts using gatherAll.induct (fun t =>
      gather (fun e inside => f e ++ inside) t = t.walk.flatMap f) with
  | case1 e children ih => rw [gather_node, Tree.walk, List.flatMap_cons, ih]
  | case2 => rw [gatherAll, walk, List.flatMap_nil]
  | case3 t ts iht ihts => rw [gatherAll_cons, walk, List.flatMap_append, iht, ihts]

/-! ## §9. Holders. -/

/-- Whether only containers hold other elements. -/
def OnlyContainersHold (ts : List Tree) : Prop :=
  ∀ t, IsNode ts t → t.children ≠ [] → t.element.kind.container = true

theorem OnlyContainersHold.within {ts us : List Tree} (h : OnlyContainersHold us)
    (hroots : ∀ t ∈ ts, IsNode us t) : OnlyContainersHold ts :=
  fun t ht => h t (ht.within hroots)

/-- The nodes that grow at some places are those of places, with what they hold. -/
theorem exists_place_of_isNode {elements sorted : List Element} {depth : Nat} {places : List Nat}
    {t : Tree} (h : IsNode (grow elements sorted depth places) t) :
    ∃ i e below, elements[i]? = some e
      ∧ t = .node e (grow elements sorted below (heldBy elements sorted (some i))) := by
  have hgrown : ∀ depth places, ∀ t ∈ grow elements sorted depth places, ∃ i e below,
      elements[i]? = some e
        ∧ t = .node e (grow elements sorted below (heldBy elements sorted (some i))) := by
    intro depth places t ht
    cases depth with
    | zero => cases ht
    | succ depth =>
      obtain ⟨i, _, hi⟩ := List.mem_filterMap.mp ht
      obtain ⟨e, he, rfl⟩ := Option.map_eq_some_iff.mp hi
      exact ⟨i, e, depth, he, rfl⟩
  induction h with
  | root h => exact hgrown _ _ _ h
  | child _ h ih =>
    obtain ⟨i, e, below, _, rfl⟩ := ih
    exact hgrown _ _ _ h

/-- **Only containers hold other elements in a forest.** -/
theorem onlyContainersHold_forest (layers : List Layer) (elements : List Element) :
    OnlyContainersHold (forest layers elements) := by
  intro t ht hchildren
  obtain ⟨i, p, below, hp, rfl⟩ := exists_place_of_isNode ht
  have hheld : heldBy elements (ordered layers elements) (some i) ≠ [] := by
    intro hnone
    rw [hnone] at hchildren
    cases below with
    | zero => exact hchildren rfl
    | succ below => exact hchildren rfl
  obtain ⟨j, hj⟩ := List.exists_mem_of_ne_nil _ hheld
  obtain ⟨e, he, _⟩ := List.mem_filterMap.mp hj
  have hholder : holder? elements e = some i := by simpa using (List.mem_filter.mp he).2
  rw [holder?] at hholder
  split at hholder
  next => cases hholder
  next =>
    obtain ⟨j, _, hholder⟩ := Option.bind_eq_some_iff.mp hholder
    obtain ⟨q, hq, hholder⟩ := Option.bind_eq_some_iff.mp hholder
    split at hholder
    next hchecks =>
      cases hholder
      cases hp.symm.trans hq
      simp only [Bool.and_eq_true] at hchecks
      exact hchecks.1.1
    next => cases hholder

theorem renderTree_eq {layers : List Layer} {elements : List Element} {ts : List Tree}
    (h : renderTree layers elements = .ok ts) : ts = forest layers elements := by
  unfold renderTree at h
  split at h
  next => exact (Except.ok.inj h).symm
  next => cases h

/-- Elements are drawn in an order of all of them. -/
theorem renderOrder_perm {layers : List Layer} {elements ordered : List Element}
    (h : renderOrder layers elements = .ok ordered) : ordered.Perm elements := by
  unfold renderOrder at h
  split at h
  next =>
    cases h
    exact List.mergeSort_perm ..
  next => cases h

/-- A walk through a forest passes listed elements. -/
theorem mem_of_mem_walk_forest {layers : List Layer} {elements : List Element} {e : Element}
    (h : e ∈ walk (forest layers elements)) : e ∈ elements := by
  have hnode : ∀ t, IsNode (forest layers elements) t → t.element ∈ elements := by
    intro t ht
    obtain ⟨i, p, below, hp, rfl⟩ := exists_place_of_isNode ht
    exact List.mem_of_getElem? hp
  rcases of_mem_walk _ h with hroot | ⟨p, t, ht, _, hchild⟩
  · obtain ⟨t, ht, rfl⟩ := List.mem_map.mp hroot
    exact hnode t (.root ht)
  · obtain ⟨c, hc, rfl⟩ := List.mem_map.mp hchild
    exact hnode c (.child ht hc)

/-! ## §10. Flat forests. -/

/-- Elements that are listed in drawing order are drawn as listed. -/
theorem renderOrder_of_sorted {layers : List Layer} {elements : List Element}
    (horder : hasOrder layers elements = true)
    (hsorted : elements.Pairwise fun a b => notAbove layers a b = true) :
    renderOrder layers elements = .ok elements := by
  rw [renderOrder, if_pos horder, ordered, List.mergeSort_of_pairwise hsorted]

/-- Elements without parents that are listed in drawing order are the roots of their forest, in that
order, and nothing lies in them. -/
theorem renderTree_of_flat {layers : List Layer} {elements : List Element}
    (hids : DistinctIds elements) (horder : hasOrder layers elements = true)
    (hsorted : elements.Pairwise fun a b => notAbove layers a b = true)
    (hflat : ∀ e ∈ elements, e.hasParent = false) :
    renderTree layers elements = .ok (elements.map fun e => .node e []) := by
  have hordered : ordered layers elements = elements := List.mergeSort_of_pairwise hsorted
  have hroot : ∀ e ∈ elements, holder? elements e = none := fun e he => by
    rw [holder?, hflat e he]
    rfl
  have hheld : ∀ holder, held elements (ordered layers elements) holder
      = if holder = none then elements else [] := by
    intro holder
    rw [held_eq_filter hids, hordered]
    split
    next h =>
      subst h
      exact List.filter_eq_self.mpr fun e he => by rw [hroot e he]; rfl
    next h =>
      refine List.filter_eq_nil_iff.mpr fun e he => ?_
      rw [hroot e he]
      simpa using Ne.symm h
  have hbelow : ∀ depth i, level layers elements depth (some i) = [] := by
    intro depth i
    cases depth with
    | zero => rfl
    | succ depth =>
      rw [level_succ hids, hheld]
      rfl
  rw [renderTree, if_pos horder, forest_eq, level_succ hids, hheld, if_pos rfl]
  refine congrArg Except.ok (List.map_congr_left fun e he => ?_)
  obtain ⟨i, hi, _⟩ := hids.getElem?_position? he
  rw [hi, hbelow]

end ControlSurface.Layout
