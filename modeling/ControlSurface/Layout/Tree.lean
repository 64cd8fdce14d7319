/-
  ControlSurface.Layout.Tree
  ──────────────────────────
  The elements that a window shows, the order in which they are drawn, and the forest in which they
  are nested.  A window lists identities; each element is followed by its descendants, depth first,
  and no element comes twice, so parents may even form a cycle.  Where two elements share an
  identity, the last one stands for it.  Elements are ordered by the rank of their layer, then by
  height, then as listed.  An element lies in its parent's node if the parent is listed, is a
  container and does not itself lie in the element.
-/
import ControlSurface.Project.Reader
import ControlSurface.Value.Number

namespace ControlSurface.Layout

/-! ## §1. Identities. -/

/-- The place of the last element of an identity. -/
def position? (elements : List Element) (id : Value) : Option Nat :=
  elements.zipIdx.foldl (fun found (e, i) => if e.id.same id then some i else found) none

/-- The last element of an identity. -/
def element? (elements : List Element) (id : Value) : Option Element :=
  (position? elements id).bind fun i => elements[i]?

/-- The identities of a list of elements, each once, where it first stands. -/
def index (elements : List Element) : List Value :=
  (elements.foldl (fun found e => if found.any (·.same e.id) then found else e.id :: found)
    []).reverse

/-- The elements that lie directly in an element, in list order. -/
def childrenOf (elements : List Element) (id : Value) : List Element :=
  elements.filter fun e => e.hasParent && e.parentId.same id

/-! ## §2. Depth first. -/

/-- Whether the element of an identity is among those not seen yet. -/
def isUnseen (elements : List Element) (unseen : List Nat) (id : Value) : Bool :=
  (position? elements id).any unseen.contains

/-- Works through a stack of identities.  Each place of `unseen` can still be visited once, which
bounds the recursion; identities that no element has, or whose element was visited, are skipped. -/
def visit (elements : List Element) (unseen : List Nat) (stack : List Value) : List Element :=
  match stack with
  | [] => []
  | id :: rest =>
    match position? elements id with
    | none => visit elements unseen rest
    | some i =>
      match elements[i]? with
      | none => visit elements unseen rest
      | some e =>
        if _h : i ∈ unseen then
          -- children go on top of the stack, before the next identity of the window
          e :: visit elements (unseen.erase i)
            (((childrenOf elements e.id).map Element.id).filter (isUnseen elements (unseen.erase i))
              ++ rest)
        else visit elements unseen rest
termination_by (unseen.length, stack.length)
decreasing_by
  · exact Prod.Lex.right _ (by simp)
  · exact Prod.Lex.right _ (by simp)
  · refine Prod.Lex.left _ _ ?_
    rw [List.length_erase_of_mem _h]
    exact Nat.sub_lt (List.length_pos_of_mem _h) Nat.one_pos
  · exact Prod.Lex.right _ (by simp)

/-- The elements that a window shows, each followed by its descendants. -/
def resolve (elements : List Element) (w : Window) : List Element :=
  visit elements (List.range elements.length) w.elementIds

/-- Whether elements can be looked up by their identities and by those of their parents. -/
def hasKeys (elements : List Element) : Bool :=
  elements.all fun e => e.id.isKey && (!e.hasParent || e.parentId.isKey)

/-- The elements that a window shows, if all elements can be looked up. -/
def shownBy (elements : List Element) (w : Window) : Except Fault (List Element) :=
  if hasKeys elements then .ok (resolve elements w) else .error .wrongType

/-! ## §3. Order. -/

/-- The rank of a layer: the last place at which its identity stands. -/
def rank? (layers : List Layer) (id : Value) : Option Int :=
  layers.zipIdx.foldl
    (fun found (layer, i) => if (Value.text layer.id).same id then some (i : Int) else found) none

/-- The rank of elements on no known layer: that of the default layer, or below all others. -/
def defaultRank (layers : List Layer) : Int :=
  (rank? layers (.text Layer.defaultId)).getD (-1)

/-- The rank of the layer that an element is on. -/
def layerRank (layers : List Layer) (e : Element) : Int :=
  (rank? layers (e.layerId.orElse (.text Layer.defaultId))).getD (defaultRank layers)

/-- Whether one element is drawn before another or may be, list order aside. -/
def notAbove (layers : List Layer) (a b : Element) : Bool :=
  let ra := layerRank layers a
  let rb := layerRank layers b
  if ra = rb then !Value.precedes b.zIndex a.zIndex else decide (ra < rb)

/-- Elements in the order in which they are drawn.  Among heights one of which is not-a-number there
is no such order: what is found then depends on how the sorting goes about it. -/
def ordered (layers : List Layer) (elements : List Element) : List Element :=
  elements.mergeSort (notAbove layers)

/-- Whether the heights of two elements can be compared, if their layers do not decide. -/
def comparable (layers : List Layer) (a b : Element) : Bool :=
  layerRank layers a ≠ layerRank layers b || a.zIndex.same b.zIndex || (a.zIndex.less b.zIndex).isOk

/-- Whether the elements have an order: layers are named by what can be looked up, and heights on
one layer can be compared. -/
def hasOrder (layers : List Layer) (elements : List Element) : Bool :=
  elements.all (fun e => !e.layerId.truthy || e.layerId.isKey)
    && elements.all fun a => elements.all fun b => comparable layers a b

/-- Elements in the order in which they are drawn, if they have one. -/
def renderOrder (layers : List Layer) (elements : List Element) : Except Fault (List Element) :=
  if hasOrder layers elements then .ok (ordered layers elements) else .error .wrongType

/-! ## §4. Nesting. -/

/-- Whether an identity is among the ancestors of an element.  Each place of `unseen` can still be
passed once, which bounds the climb. -/
def reaches (elements : List Element) (target : Value) (unseen : List Nat) (e : Element) : Bool :=
  if !e.hasParent then false
  else if e.parentId.same target then true
  else
    match position? elements e.parentId with
    | none => false
    | some i =>
      match elements[i]? with
      | none => false
      | some parent =>
        -- a place that comes again is on a circle, and the target is not on it
        if _h : i ∈ unseen then reaches elements target (unseen.erase i) parent else false
termination_by unseen.length
decreasing_by
  rw [List.length_erase_of_mem _h]
  exact Nat.sub_lt (List.length_pos_of_mem _h) Nat.one_pos

/-- The place of the element in whose node an element is drawn. -/
def holder? (elements : List Element) (e : Element) : Option Nat :=
  if !e.hasParent then none
  else do
    let i ← position? elements e.parentId
    let parent ← elements[i]?
    -- an element that lies in itself, directly or not, is drawn at the top
    if parent.kind.container && !parent.id.same e.id
        && !reaches elements e.id (List.range elements.length) parent then some i
    else none

/-- An element with the elements drawn inside it. -/
inductive Tree where
  | node (element : Element) (children : List Tree)
  deriving Inhabited

/-- The element of a node. -/
def Tree.element : Tree → Element
  | node e _ => e

/-- The nodes inside a node. -/
def Tree.children : Tree → List Tree
  | node _ ts => ts

/-- The places of the elements drawn directly in a holder, in drawing order; without a holder, of
those at the top. -/
def heldBy (elements sorted : List Element) (holder : Option Nat) : List Nat :=
  (sorted.filter fun e => holder? elements e == holder).filterMap fun e => position? elements e.id

/-- The nodes at some places, with what lies in them down to a depth. -/
def grow (elements sorted : List Element) : Nat → List Nat → List Tree
  | 0, _ => []
  | depth + 1, places =>
    places.filterMap fun i =>
      (elements[i]?).map fun e =>
        .node e (grow elements sorted depth (heldBy elements sorted (some i)))

/-- The forest of elements.  On a path from a root no element comes twice, so there are never more
levels than elements. -/
def forest (layers : List Layer) (elements : List Element) : List Tree :=
  let sorted := ordered layers elements
  grow elements sorted (elements.length + 1) (heldBy elements sorted none)

/-- The forest of elements, if they have an order. -/
def renderTree (layers : List Layer) (elements : List Element) : Except Fault (List Tree) :=
  if hasOrder layers elements then .ok (forest layers elements) else .error .wrongType

mutual
/-- The elements of a node, parents before children. -/
def Tree.walk : Tree → List Element
  | .node e children => e :: walk children

/-- The elements of a forest, parents before children. -/
def walk : List Tree → List Element
  | [] => []
  | t :: ts => t.walk ++ walk ts
end

end ControlSurface.Layout
