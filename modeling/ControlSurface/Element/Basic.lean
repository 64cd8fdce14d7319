/-
  ControlSurface.Element.Basic
  ────────────────────────────
  Elements: a kind and a value for each of its fields.  `Element.ofFields` lays the fields of a
  project file, in either spelling of their keys, over the defaults of the kind, and `toFields`
  writes them out again; keys that the kind does not know are passed over.
-/
import ControlSurface.Element.Catalog
import ControlSurface.Name
import ControlSurface.Value.Number

namespace ControlSurface

/-- An element of a project. -/
structure Element where
  kind : Kind
  fields : Fields
  deriving Inhabited

namespace Element

/-! ## §1. Fields. -/

/-- The value of a field; null if the kind has no such field. -/
def get (e : Element) (field : String) : Value := (Value.find? e.fields field).getD .null

/-- The identity that other parts of a project refer to. -/
def id (e : Element) : Value := e.get "id"

/-- The name that the user sees. -/
def name (e : Element) : Value := e.get "name"

/-- The identity of the element it lies in, if any. -/
def parentId (e : Element) : Value := e.get "parent_id"

/-- The identity of its layer, if any. -/
def layerId (e : Element) : Value := e.get "layer_id"

/-- Its height within its layer. -/
def zIndex (e : Element) : Value := e.get "z_index"

/-- Whether it lies in another element. -/
def hasParent (e : Element) : Bool := e.parentId.truthy

/-- Whether a field counts as true. -/
def flag (e : Element) (field : String) : Bool := (e.get field).truthy

/-- The text of a field that may be absent. -/
def string (e : Element) (field : String) : Except Fault String := (e.get field).string

/-- The identifier of an element in the document. -/
def domId (e : Element) : Except Fault String := do
  .ok (Name.normalize (← e.name.string))

/-- The fields of an element with its kind, as a project file holds them. -/
def toFields (e : Element) : Fields := Value.put "type" (.text e.kind.name) e.fields

end Element

/-! ## §2. Lists of records inside fields. -/

/-- The fields of a record in snake case; of two spellings of one key the later one counts. -/
def snakeFields (fields : Fields) : Fields :=
  fields.foldl (fun done f => Value.put (Name.snakeCase f.1) f.2 done) []

/-- A record with the given keys and defaults; a key without default must be given, and no other
key may be. -/
def recordOf (shape : List (String × Option Value)) (given : Fields) : Except Fault Value := do
  if given.any fun f => !(shape.any fun s => s.1 == f.1) then throw .wrongType
  let fields ← shape.mapM fun (key, fallback) =>
    match Value.find? given key, fallback with
    | some v, _ => .ok (key, v)
    | none, some v => .ok (key, v)
    | none, none => .error .wrongType
  .ok (.object fields)

/-- The keys of a colour stop. -/
def colorStopShape : List (String × Option Value) := [("position", none), ("color", none)]

/-- The keys of an equalizer band. -/
def eqBandShape : List (String × Option Value) :=
  [("frequency", some (.float 1000.0)), ("gain", some (.float 0.0)), ("q", some (.float 1.0))]

/-- The objects of a list as records of a shape; other items are passed over, and nothing at all
counts as an empty list. -/
def recordsOf (shape : List (String × Option Value)) (v : Value) : Except Fault Value := do
  let items ← if v.truthy then v.items else .ok []
  let objects := items.filterMap Value.fields?
  let records ← objects.mapM fun fields => recordOf shape (snakeFields fields)
  .ok (.list records)

/-- The field of a kind that holds records, and their shape. -/
def Kind.recordField? : Kind → Option (String × List (String × Option Value))
  | .meter => some ("color_stops", colorStopShape)
  | .eqCurve => some ("bands", eqBandShape)
  | _ => none

/-! ## §3. Reading. -/

namespace Element

/-- The fields of a kind with the given values laid over the defaults. -/
def assign (k : Kind) (given : Fields) : Fields :=
  k.defaults.map fun (key, fallback) => (key, (Value.find? given key).getD fallback)

/-- An element of a kind with the given values. -/
def ofKind (k : Kind) (given : Fields) : Except Fault Element := do
  let fields := assign k given
  match k.recordField? with
  | none => .ok ⟨k, fields⟩
  | some (key, shape) =>
    let records ← recordsOf shape ((Value.find? fields key).getD .null)
    .ok ⟨k, Value.put key records fields⟩

/-- The name of the kind that the fields of an element give. -/
def kindName (fields : Fields) : String :=
  let find (key : String) : Value := (Value.find? fields key).getD .null
  (((find "type").orElse (find "kind")).orElse (.text "")).toText

/-- Reads an element from the fields of a project file. -/
def ofFields (fields : Fields) : Except Fault Element :=
  let name := kindName fields
  match Kind.ofName? name with
  | some k => ofKind k (snakeFields fields)
  | none => .error (.unknownKind name ((Value.find? fields "id").getD (.text "")).toText)

end Element

end ControlSurface
