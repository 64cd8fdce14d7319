/-
  ControlSurface.Element.Table
  ────────────────────────────
  Tables with a row for every kind of element.  A table is complete if no kind of the catalog is
  missing, and then every element has a row in it.
-/
import ControlSurface.Element.Basic
import ControlSurface.Text.Search

namespace ControlSurface

/-- A table that gives names of kinds a row, with the name of its user. -/
structure KindTable (α : Type) where
  user : String
  rows : List (String × α)
  deriving Inhabited

namespace KindTable

variable {α : Type}

/-- The row of a name. -/
def row? (t : KindTable α) (name : String) : Option α :=
  (t.rows.find? fun r => r.1 == name).map (·.2)

/-- A table with a row for a name that has none. -/
def add (t : KindTable α) (name : String) (row : α) : KindTable α :=
  if (t.row? name).isSome then t else { t with rows := t.rows ++ [(name, row)] }

/-- The names of the kinds without a row, sorted. -/
def missing (t : KindTable α) : List String :=
  ((Kind.all.map Kind.name).filter fun k => (t.row? k).isNone).mergeSort
    fun a b => decide (a ≤ b)

/-- A table, if it is complete. -/
def complete (t : KindTable α) : Except Fault (KindTable α) :=
  match t.missing with
  | [] => .ok t
  | kinds => .error (.missingKinds t.user kinds)

/-- The row of an element. -/
def lookup (t : KindTable α) (e : Element) : Except Fault α :=
  match t.row? e.kind.name with
  | some row => .ok row
  | none => .error (.noRow t.user e.name.toText e.kind.name)

end KindTable

end ControlSurface
