/-
  ControlSurface.Json.Reader
  ──────────────────────────
  From tokens to a value.  A machine reads the tokens one by one and keeps the lists and objects
  that are still open on a stack; of a repeated key the last value counts, in the first place.
-/
import ControlSurface.Json.Token

namespace ControlSurface.Json

/-! ## §1. The machine. -/

/-- A list or object that is still open, with its finished items in reverse. -/
inductive Frame where
  | list (items : List Value)
  | object (fields : List (String × Value)) (key : String)
  deriving Inhabited

/-- What may come next. -/
inductive Phase where
  /-- A value. -/
  | value
  /-- A value, or the end of a list just opened. -/
  | firstItem
  /-- A comma or the end of the innermost open list or object. -/
  | after
  /-- A key, or the end of an object just opened. -/
  | firstKey (fields : List (String × Value))
  /-- A key. -/
  | key (fields : List (String × Value))
  /-- The colon after a key. -/
  | colon (fields : List (String × Value)) (key : String)
  /-- Nothing: the value is complete. -/
  | done (v : Value)
  deriving Inhabited

/-- The open lists and objects, the innermost first, and what may come next. -/
structure Machine where
  stack : List Frame
  phase : Phase
  deriving Inhabited

/-- Goes on after a complete value. -/
def Machine.deliver (stack : List Frame) (v : Value) : Machine :=
  match stack with
  | [] => ⟨[], .done v⟩
  | .list items :: rest => ⟨.list (v :: items) :: rest, .after⟩
  | .object fields key :: rest => ⟨.object (Value.put key v fields) key :: rest, .after⟩

/-- Reads one token where a value may come. -/
def Machine.start (stack : List Frame) : Token → Option Machine
  | .openList => some ⟨.list [] :: stack, .firstItem⟩
  | .openObject => some ⟨stack, .firstKey []⟩
  | .scalar v => some (Machine.deliver stack v)
  | _ => none

/-- Reads one token. -/
def Machine.step (m : Machine) (t : Token) : Option Machine :=
  match m.phase, t, m.stack with
  | .value, t, stack => Machine.start stack t
  -- only a list that was just opened may end here: no comma stands before an end
  | .firstItem, .closeList, .list _ :: stack => some (Machine.deliver stack (.list []))
  | .firstItem, t, stack => Machine.start stack t
  | .after, .comma, .list items :: stack => some ⟨.list items :: stack, .value⟩
  | .after, .comma, .object fields _ :: stack => some ⟨stack, .key fields⟩
  | .after, .closeList, .list items :: stack =>
    some (Machine.deliver stack (.list items.reverse))
  | .after, .closeObject, .object fields _ :: stack =>
    some (Machine.deliver stack (.object fields))
  | .firstKey _, .closeObject, stack => some (Machine.deliver stack (.object []))
  | .firstKey fields, .scalar (.text k), stack => some ⟨stack, .colon fields k⟩
  | .key fields, .scalar (.text k), stack => some ⟨stack, .colon fields k⟩
  | .colon fields k, .colon, stack => some ⟨.object fields k :: stack, .value⟩
  | _, _, _ => none

/-- Reads tokens until they end or one does not fit. -/
def Machine.run (m : Machine) : List Token → Option Machine
  | [] => some m
  | t :: ts => (m.step t).bind fun m' => m'.run ts

/-! ## §2. Reading. -/

/-- The value that tokens denote, if they denote exactly one. -/
def ofTokens? (ts : List Token) : Option Value :=
  match Machine.run ⟨[], .value⟩ ts with
  | some ⟨[], .done v⟩ => some v
  | _ => none

/-- Reads JSON text. -/
def read (s : String) : Except Fault Value := do
  let ts ← tokens s.toList
  match ofTokens? ts with
  | some v => .ok v
  | none => .error .badJson

end ControlSurface.Json
