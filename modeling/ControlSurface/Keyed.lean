/-
  ControlSurface.Keyed
  ────────────────────
  Lists of entries with keys, in the order in which the keys were first put.  Putting a key again
  changes its entry and leaves its place, so no key comes twice.
-/

namespace ControlSurface.Keyed

variable {κ α : Type} [BEq κ]

/-- The entry of a key. -/
def find? (key : κ) : List (κ × α) → Option α
  | [] => none
  | (k, x) :: rest => if k == key then some x else find? key rest

/-- Entries with one more: in the place of its key if the key is there, else at the end. -/
def put (key : κ) (x : α) : List (κ × α) → List (κ × α)
  | [] => [(key, x)]
  | (k, old) :: rest => if k == key then (k, x) :: rest else (k, old) :: put key x rest

/-- Entries put one after the other. -/
def putAll (entries more : List (κ × α)) : List (κ × α) :=
  more.foldl (fun done (k, x) => put k x done) entries

/-- Entries of a list in which a key may come again: the last one counts. -/
def ofList (entries : List (κ × α)) : List (κ × α) := putAll [] entries

/-- The keys in order. -/
def keys (entries : List (κ × α)) : List κ := entries.map (·.1)

end ControlSurface.Keyed
