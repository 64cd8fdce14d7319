/-
  ControlSurface.Proofs.Element.Saving
  ────────────────────────────────────
  Elements that are written out and read again.  The elements that can be read are the whole ones:
  each field of the kind has a value, in order, and the field of the records, if the kind has one,
  holds nothing but records (`exists_ofFields_iff`).  A whole element is read back from its own
  fields (`Whole.read_back`), so that saving and loading again changes no element that
  was loaded (`ofFields_toFields`).
-/
import ControlSurface.Proofs.Project.Respelling

namespace ControlSurface.Element

open ControlSurface.Outcome ControlSurface.Value ControlSurface.Project

/-! ## §1. The fields of a kind. -/

theorem nodup_groups :
    ∀ fields ∈ groups, (Keyed.keys (Catalog.commonFields ++ fields)).Nodup := by decide

/-- No two fields of a kind have one name. -/
theorem nodup_fieldNames (k : Kind) : k.fieldNames.Nodup :=
  Keyed.nodup_keys_putAll (nodup_groups _ (groupFields_mem_groups k))

/-- The key of the kind is not that of a field. -/
theorem type_not_mem (k : Kind) : "type" ∉ k.fieldNames := by
  intro h
  have hname := canNameField_of_mem h
  exact absurd hname (by decide)

/-- A kind is found by its name, and no name is empty. -/
theorem ofName?_name (k : Kind) : Kind.ofName? k.name = some k ∧ k.name ≠ "" := by
  have hall : ∀ k ∈ Kind.all, Kind.ofName? k.name = some k ∧ k.name ≠ "" := by decide +kernel
  exact hall k (mem_all k)

/-! ## §2. Whole elements. -/

/-- A record of a shape: an object with its keys, in order. -/
def IsRecord (shape : List (String × Option Value)) (v : Value) : Prop :=
  ∃ fields, v = .object fields ∧ Keyed.keys fields = shape.map Prod.fst

/-- An element with a value for each field of its kind, and with records where the kind has them. -/
structure Whole (e : Element) : Prop where
  keys : Keyed.keys e.fields = e.kind.fieldNames
  records : ∀ field shape, e.kind.recordField? = some (field, shape) →
    ∃ items, find? e.fields field = some (.list items) ∧ ∀ v ∈ items, IsRecord shape v

/-- What a record is read as has the keys of its shape. -/
theorem isRecord_of_recordOf {shape : List (String × Option Value)} {given : Fields} {v : Value}
    (h : recordOf shape given = .ok v) : IsRecord shape v := by
  rw [recordOf] at h
  -- a record with an unknown key is refused
  split at h
  · cases h
  obtain ⟨fields, hfields, h⟩ := (bind_eq_ok_iff _ _ _).mp h
  cases h
  refine ⟨fields, rfl, ?_⟩
  have hrows : List.Forall₂ (fun s f => s.1 = f.1) shape fields := by
    refine ((mapM_eq_ok_iff _ _ _).mp hfields).imp fun s f hf => ?_
    dsimp only at hf
    split at hf
    · cases hf
      rfl
    · cases hf
      rfl
    · cases hf
  rw [eq_comm, ← List.forall₂_eq_eq_eq, Keyed.keys, List.forall₂_map_left_iff,
    List.forall₂_map_right_iff]
  exact hrows

theorem recordsOf_eq (shape : List (String × Option Value)) (v : Value) : recordsOf shape v
    = (if v.truthy then v.items else .ok []) >>= fun items =>
        (items.filterMap fields?).mapM (fun fields => recordOf shape (snakeFields fields))
          >>= fun records => .ok (.list records) := by
  rw [recordsOf]
  split <;> rfl

/-- What a list of records is read as holds nothing but records. -/
theorem records_of_recordsOf {shape : List (String × Option Value)} {v records : Value}
    (h : recordsOf shape v = .ok records) :
    ∃ items, records = .list items ∧ ∀ r ∈ items, IsRecord shape r := by
  rw [recordsOf_eq] at h
  obtain ⟨items, -, h⟩ := (bind_eq_ok_iff _ _ _).mp h
  obtain ⟨read, hread, h⟩ := (bind_eq_ok_iff _ _ _).mp h
  cases h
  refine ⟨read, rfl, fun r hr => ?_⟩
  obtain ⟨fields, -, hr⟩ := (mem_mapM_iff hread r).mp hr
  exact isRecord_of_recordOf hr

theorem keys_assign (k : Kind) (given : Fields) :
    Keyed.keys (assign k given) = k.fieldNames := by
  rw [assign_eq, Keyed.keys, List.map_map]
  rfl

/-- **What is read is whole.** -/
theorem whole_of_ofKind {k : Kind} {given : Fields} {e : Element} (h : ofKind k given = .ok e) :
    e.Whole := by
  rw [ofKind] at h
  cases hk : k.recordField? with
  | none =>
    rw [hk] at h
    cases h
    refine ⟨keys_assign k given, fun field shape hfield => ?_⟩
    cases hk.symm.trans hfield
  | some found =>
    obtain ⟨field, shape⟩ := found
    rw [hk] at h
    obtain ⟨records, hrecords, h⟩ := (bind_eq_ok_iff _ _ _).mp h
    cases h
    obtain ⟨items, rfl, hitems⟩ := records_of_recordsOf hrecords
    have hmem : field ∈ Keyed.keys (assign k given) := by
      rw [keys_assign]
      exact (recordField?_small hk).2.1
    refine ⟨?_, fun field' shape' hfield => ?_⟩
    · show Keyed.keys (Keyed.put _ _ _) = _
      rw [Keyed.keys_put_of_mem _ _ _ hmem, keys_assign]
    · cases hk.symm.trans hfield
      refine ⟨items, ?_, hitems⟩
      show Keyed.find? _ (Keyed.put _ _ _) = _
      rw [Keyed.find?_put, if_pos rfl]

/-! ## §3. Reading what was written. -/

/-- Fields in snake case, each there once, are read as they are. -/
theorem snakeFields_eq_self {fields : Fields} (hnodup : (Keyed.keys fields).Nodup)
    (hsnake : ∀ name ∈ Keyed.keys fields, Name.snakeCase name = name) :
    snakeFields fields = fields := by
  have hsame : fields.map (fun f => (Name.snakeCase f.1, f.2)) = fields := by
    conv_rhs => rw [← List.map_id fields]
    refine List.map_congr_left fun f hf => ?_
    rw [hsnake f.1 (Keyed.mem_keys hf)]
    rfl
  rw [snakeFields_eq, hsame, Keyed.ofList_of_nodup _ hnodup]

/-- The keys of a shape are different, and in snake case. -/
structure Spelled (shape : List (String × Option Value)) : Prop where
  nodup : (shape.map Prod.fst).Nodup
  snake : ∀ name ∈ shape.map Prod.fst, Name.snakeCase name = name

theorem spelled_of_recordField? {k : Kind} {field : String} {shape : List (String × Option Value)}
    (h : k.recordField? = some (field, shape)) : Spelled shape := by
  refine ⟨?_, (recordField?_small h).2.2⟩
  cases k with
  | meter =>
    cases h
    decide
  | eqCurve =>
    cases h
    decide
  | _ => cases h

section Records

variable {shape : List (String × Option Value)}

/-- A record is read as it is. -/
theorem recordOf_eq_self {fields : Fields} (hshape : (shape.map Prod.fst).Nodup)
    (hkeys : Keyed.keys fields = shape.map Prod.fst) :
    recordOf shape fields = .ok (.object fields) := by
  have hall : ¬ (fields.any fun f => !(shape.any fun s => s.1 == f.1)) = true := by
    intro hany
    obtain ⟨f, hf, hnot⟩ := List.any_eq_true.mp hany
    have hmem : f.1 ∈ shape.map Prod.fst := hkeys ▸ Keyed.mem_keys hf
    obtain ⟨s, hs, hsame⟩ := List.mem_map.mp hmem
    have hknown : (shape.any fun s => s.1 == f.1) = true :=
      List.any_eq_true.mpr ⟨s, hs, beq_iff_eq.mpr hsame⟩
    rw [hknown] at hnot
    cases hnot
  have hrows := Keyed.forall₂_find? hkeys (hkeys ▸ hshape) fun f hf => hf
  rw [recordOf, if_neg hall]
  refine (bind_eq_ok_iff _ _ _).mpr ⟨fields, (mapM_eq_ok_iff _ _ _).mpr ?_, rfl⟩
  refine hrows.imp fun s f hrow => ?_
  obtain ⟨key, fallback⟩ := s
  obtain ⟨name, v⟩ := f
  obtain ⟨rfl, hfound⟩ := hrow
  simp only [find?, hfound]

/-- A list of records is read as it is. -/
theorem recordsOf_eq_self (hshape : Spelled shape) {items : List Value}
    (hitems : ∀ v ∈ items, IsRecord shape v) :
    recordsOf shape (.list items) = .ok (.list items) := by
  have hlist : (if (Value.list items).truthy then (Value.list items).items else .ok [])
      = .ok items := by
    cases items <;> rfl
  have hread : (items.filterMap fields?).mapM (fun fields => recordOf shape (snakeFields fields))
      = .ok items := by
    clear hlist
    rw [mapM_eq_ok_iff]
    induction items with
    | nil => exact .nil
    | cons v items ih =>
      obtain ⟨hv, hrest⟩ := List.forall_mem_cons.mp hitems
      obtain ⟨fields, rfl, hkeys⟩ := hv
      have hsnake : snakeFields fields = fields :=
        snakeFields_eq_self (hkeys ▸ hshape.nodup) (hkeys ▸ hshape.snake)
      refine .cons ?_ (ih hrest)
      rw [hsnake, recordOf_eq_self hshape.nodup hkeys]
  rw [recordsOf_eq, hlist, ok_bind, hread, ok_bind]

end Records

/-- What is written names the kind. -/
theorem kindName_toFields (e : Element) : kindName e.toFields = e.kind.name := by
  have htype : find? e.toFields "type" = some (.text e.kind.name) :=
    (Keyed.find?_put ..).trans (if_pos rfl)
  have htruthy : (Value.text e.kind.name).truthy = true :=
    bne_iff_ne.mpr (ofName?_name e.kind).2
  rw [kindName]
  simp only [htype, Option.getD_some, orElse, htruthy, if_true, toText]

section Written

variable {e : Element} (h : e.Whole)

include h

/-- The kind of a whole element is written after its fields. -/
theorem Whole.toFields_eq : e.toFields = e.fields ++ [("type", .text e.kind.name)] := by
  refine Keyed.put_of_not_mem _ _ _ ?_
  rw [h.keys]
  exact type_not_mem e.kind

theorem Whole.keys_toFields : Keyed.keys e.toFields = e.kind.fieldNames ++ ["type"] := by
  rw [h.toFields_eq, Keyed.keys_append, h.keys]
  rfl

theorem Whole.nodup_keys_toFields : (Keyed.keys e.toFields).Nodup := by
  rw [h.keys_toFields]
  exact (nodup_fieldNames e.kind).append (List.nodup_singleton _)
    (List.disjoint_singleton.mpr (type_not_mem e.kind))

/-- The keys that are written are read as they are. -/
theorem Whole.snakeFields_toFields : snakeFields e.toFields = e.toFields := by
  refine snakeFields_eq_self h.nodup_keys_toFields fun name hname => ?_
  rw [h.keys_toFields, List.mem_append, List.mem_singleton] at hname
  rcases hname with hname | rfl
  · exact snakeCase_of_mem hname
  · decide

/-- The fields that are written take the place of all defaults. -/
theorem Whole.assign_toFields : assign e.kind e.toFields = e.fields := by
  have hrows := Keyed.forall₂_find? h.keys h.nodup_keys_toFields fun f hf => by
    rw [h.toFields_eq]
    exact List.mem_append_left _ hf
  rw [assign_eq, ← List.forall₂_eq_eq_eq, List.forall₂_map_left_iff]
  refine hrows.imp fun row f hrow => ?_
  obtain ⟨name, v⟩ := f
  obtain ⟨hname, hfound⟩ := hrow
  rw [find?, hfound, Option.getD_some, hname]

/-- **A whole element is read back.** -/
theorem Whole.read_back : ofFields e.toFields = .ok e := by
  rw [ofFields, kindName_toFields, (ofName?_name e.kind).1, h.snakeFields_toFields]
  show ofKind e.kind e.toFields = .ok e
  rw [ofKind, h.assign_toFields]
  cases hk : e.kind.recordField? with
  | none => rfl
  | some found =>
    obtain ⟨field, shape⟩ := found
    obtain ⟨items, hfound, hitems⟩ := h.records field shape hk
    dsimp only
    rw [hfound, Option.getD_some, recordsOf_eq_self (spelled_of_recordField? hk) hitems, ok_bind,
      put, Keyed.put_of_find? hfound]

end Written

/-! ## §4. Saving and loading. -/

/-- What is loaded is whole. -/
theorem whole_of_ofFields {fields : Fields} {e : Element} (h : ofFields fields = .ok e) :
    e.Whole := by
  rw [ofFields] at h
  cases hk : Kind.ofName? (kindName fields) with
  | none =>
    rw [hk] at h
    cases h
  | some k =>
    rw [hk] at h
    exact whole_of_ofKind h

/-- **The elements that can be loaded are the whole ones.** -/
theorem exists_ofFields_iff (e : Element) : (∃ fields, ofFields fields = .ok e) ↔ e.Whole := by
  constructor
  · intro hloaded
    obtain ⟨fields, h⟩ := hloaded
    exact whole_of_ofFields h
  · intro h
    exact ⟨e.toFields, h.read_back⟩

/-- **Saving and loading change nothing**: an element that was loaded from any object is the one
that its own object gives. -/
theorem ofFields_toFields {fields : Fields} {e : Element} (h : ofFields fields = .ok e) :
    ofFields e.toFields = .ok e :=
  (whole_of_ofFields h).read_back

/-- A meter with keys in either spelling, an unknown key, a colour stop in camel case and an item
that is no colour stop. -/
def spelledMeter : Fields :=
  [("kind", .text "meter"), ("parentId", .int 7), ("colour", .bool true), ("z_index", .null),
    ("colorStops", .list [.object [("Color", .text "red"), ("position", .int 1)], .int 3])]

theorem ofFields_toFields_spelledMeter :
    ∃ e, ofFields spelledMeter = .ok e ∧ ofFields e.toFields = .ok e
      ∧ e.get "parent_id" = .int 7
      ∧ e.get "color_stops" = .list [colorStop (.int 1) (.text "red")] := by
  obtain ⟨e, he⟩ : ∃ e, ofFields spelledMeter = .ok e := ⟨_, rfl⟩
  refine ⟨e, he, ofFields_toFields he, ?_⟩
  cases he
  exact ⟨rfl, rfl⟩

end ControlSurface.Element
