/-
  ControlSurface.Proofs.Markup.Marks
  ──────────────────────────────────
  What markup says of its state: which attributes and classes a tag carries, and which of several
  nodes are marked.  Where the nodes of a list are marked by comparing their places with one place,
  that node is marked if there is one (`markedPlaces_numbered`).
-/
import ControlSurface.Markup.Node
import ControlSurface.Text.Search
import Mathlib.Data.List.Basic

namespace ControlSurface.Markup

/-! ## §1. Tags. -/

/-- Whether a tag carries an attribute; nothing and false leave it out. -/
def carries (attributes : Attributes) (name : String) : Bool :=
  match Value.find? attributes name with
  | none | some .null | some (.bool false) => false
  | _ => true

/-- Whether an attribute of a tag is a text. -/
def holds (attributes : Attributes) (name text : String) : Bool :=
  (Value.find? attributes name).any (Value.same (.text text))

/-- Whether a tag has a class among others. -/
def hasClass (attributes : Attributes) (cssClass : String) : Bool :=
  match Value.find? attributes "class" with
  | some (.text classes) => (Text.split classes " ").contains cssClass
  | _ => false

/-! ## §2. Marked nodes. -/

/-- The places of the nodes that are marked. -/
def markedPlaces (marked : Node → Bool) (nodes : List Node) : List Nat :=
  (List.range nodes.length).filter fun i => nodes[i]?.any marked

theorem length_numbered {α : Type} (items : List α) : (numbered items).length = items.length := by
  rw [numbered, List.length_map, List.length_zipIdx]

theorem getElem?_numbered {α : Type} (items : List α) (i : Nat) :
    (numbered items)[i]? = items[i]?.map fun x => ((i : Int), x) := by
  rw [numbered, List.getElem?_map, List.getElem?_zipIdx, Option.map_map]
  simp [Function.comp_def]

/-- One place among the first ones. -/
theorem filter_range_eq (count : Nat) (index : Int) :
    ((List.range count).filter fun i : Nat => decide ((i : Int) = index))
      = if 0 ≤ index ∧ index < count then [index.toNat] else ([] : List Nat) := by
  induction count with
  | zero =>
    rw [if_neg (by omega)]
    rfl
  | succ count ih =>
    rw [List.range_succ, List.filter_append, ih, List.filter_singleton]
    by_cases hlast : (count : Int) = index
    · rw [if_neg (by omega), if_pos (by omega), decide_eq_true hlast, ← hlast]
      rfl
    · rw [decide_eq_false hlast, cond_false, List.append_nil]
      exact if_congr (by omega) rfl rfl

/-- **Where each node is marked by its place, one node is marked or none.** -/
theorem markedPlaces_numbered {α : Type} {items : List α} {node : Int × α → Node}
    {marked : Node → Bool} {index : Int}
    (h : ∀ i x, marked (node (i, x)) = decide (i = index)) :
    markedPlaces marked ((numbered items).map node)
      = if 0 ≤ index ∧ index < items.length then [index.toNat] else [] := by
  rw [← filter_range_eq, markedPlaces, List.length_map, length_numbered]
  refine List.filter_congr fun i hi => ?_
  have hlt : i < items.length := List.mem_range.mp hi
  rw [List.getElem?_map, getElem?_numbered, List.getElem?_eq_getElem hlt]
  exact h i items[i]

end ControlSurface.Markup
