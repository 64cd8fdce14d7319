/-
  ControlSurface.Proofs.Project.Respelling
  ────────────────────────────────────────
  Project objects whose keys are spelled in snake case.  `respelled` changes every key that is read,
  at any depth.  Elements, layers and fonts are read as before, whatever their keys
  (`ofFields_respelledElement`); projects, canvases, windows and gradients each have keys that are
  read in one spelling only, and these are as good as left out (`ofFields_respelled`).
-/
import ControlSurface.Proofs.Fault.Outcome
import ControlSurface.Proofs.Keyed.Entries
import ControlSurface.Project.Reader

namespace ControlSurface.Project

open ControlSurface.Outcome ControlSurface.Value

/-! ## §1. Objects with other keys. -/

/-- The objects among the items of a list; anything else has none. -/
def objects : Value → List Fields
  | .list items => items.filterMap fields?
  | _ => []

/-- A value with its fields changed, if it is an object. -/
def onObject (change : Fields → Fields) : Value → Value
  | .object fields => .object (change fields)
  | v => v

/-- A value with the objects among its items changed, if it is a list. -/
def onObjects (change : Fields → Fields) : Value → Value
  | .list items => .list (items.map (onObject change))
  | v => v

/-- Fields with the known keys in snake case, and with what stands in these fields changed. -/
def respell (known : String → Bool) (inside : String → Value → Value) (fields : Fields) : Fields :=
  fields.map fun f => if known f.1 then (Name.snakeCase f.1, inside f.1 f.2) else f

/-- Fields without some keys, and with what stands in the others changed. -/
def leaveOut (lost : List String) (inside : String → Value → Value) (fields : Fields) : Fields :=
  (fields.filter fun f => !lost.contains f.1).map fun f => (f.1, inside f.1 f.2)

/-- The known keys that become one key in snake case. -/
def forms (known : List String) (key : String) : List String :=
  known.filter fun k => Name.snakeCase k == key

/-- No two known keys of an object become one, so that their values stay apart. -/
def SpellsOnce (known : List String) (fields : Fields) : Prop :=
  ∀ a ∈ known, ∀ b ∈ known, a ≠ b → Name.snakeCase a = Name.snakeCase b →
    find? fields a = none ∨ find? fields b = none

instance (known : List String) (fields : Fields) : Decidable (SpellsOnce known fields) :=
  inferInstanceAs (Decidable (∀ a ∈ known, ∀ b ∈ known, a ≠ b →
    Name.snakeCase a = Name.snakeCase b → find? fields a = none ∨ find? fields b = none))

/-- What stands under a key is changed as its key asks. -/
theorem find?_map_inside (inside : String → Value → Value) (fields : Fields) (key : String) :
    find? (fields.map fun f => (f.1, inside f.1 f.2)) key = (find? fields key).map (inside key) := by
  induction fields with
  | nil => rfl
  | cons f rest ih =>
    obtain ⟨k, v⟩ := f
    simp only [find?, List.map_cons, Keyed.find?_cons] at ih ⊢
    by_cases hk : k = key
    · simp [hk]
    · simpa [hk] using ih

theorem find?_leaveOut (lost : List String) (inside : String → Value → Value) (fields : Fields)
    (key : String) : find? (leaveOut lost inside fields) key
      = if lost.contains key then none else (find? fields key).map (inside key) := by
  have hfilter := Keyed.find?_filter key (fun k => !lost.contains k) fields
  rw [leaveOut, find?_map_inside, find?, hfilter]
  cases lost.contains key <;> rfl

section Lookup

variable {known : List String} {inside : String → Value → Value} {fields : Fields} {key : String}

/-- Under a known key stands afterwards what stood first under one of its forms. -/
theorem find?_respell (hkey : key ∈ known) : find? (respell known.contains inside fields) key
    = (fields.find? fun f => (forms known key).contains f.1).map fun f => inside f.1 f.2 := by
  induction fields with
  | nil => rfl
  | cons f rest ih =>
    obtain ⟨k, v⟩ := f
    have hform : (forms known key).contains k
        = (known.contains k && (Name.snakeCase k == key)) := by
      rw [Bool.eq_iff_iff, List.contains_iff_mem, forms, List.mem_filter, Bool.and_eq_true,
        List.contains_iff_mem]
    simp only [respell, find?] at ih
    rw [List.find?_cons, hform]
    simp only [respell, find?, List.map_cons]
    cases hknown : known.contains k with
    | true =>
      rw [if_pos rfl, Keyed.find?_cons, ih, Bool.true_and]
      cases Name.snakeCase k == key <;> rfl
    | false =>
      -- a key that is not known is no other one
      have hne : (k == key) = false := by
        rw [beq_eq_false_iff_ne]
        rintro rfl
        rw [List.contains_iff_mem.mpr hkey] at hknown
        cases hknown
      rw [if_neg (by simp), Keyed.find?_cons, hne, ih, Bool.false_and]
      rfl

theorem find?_eq_map_find? (fields : Fields) (key : String) :
    find? fields key = (fields.find? fun f => f.1 == key).map Prod.snd := by
  induction fields with
  | nil => rfl
  | cons f rest ih =>
    rw [List.find?_cons, find?, Keyed.find?]
    cases f.1 == key
    · exact ih
    · rfl

theorem find?_respell_of_forms_nil (hforms : forms known key = []) (hkey : key ∈ known) :
    find? (respell known.contains inside fields) key = none := by
  rw [find?_respell hkey, hforms]
  simp

theorem find?_respell_of_forms_one {source : String} (hforms : forms known key = [source])
    (hkey : key ∈ known) : find? (respell known.contains inside fields) key
      = (find? fields source).map (inside source) := by
  rw [find?_respell hkey, hforms, find?_eq_map_find?]
  induction fields with
  | nil => rfl
  | cons f rest ih =>
    by_cases hf : f.1 = source
    · simp [hf]
    · simpa [List.find?_cons, beq_eq_false_iff_ne.mpr hf, hf] using ih

theorem find?_respell_of_forms_two {a b : String} (hforms : forms known key = [a, b])
    (hkey : key ∈ known) (ha : ∀ v, inside a v = v) (hb : ∀ v, inside b v = v)
    (honce : find? fields a = none ∨ find? fields b = none) :
    find? (respell known.contains inside fields) key
      = (find? fields a).or (find? fields b) := by
  rw [find?_respell hkey, hforms]
  induction fields with
  | nil => rfl
  | cons f rest ih =>
    obtain ⟨k, v⟩ := f
    simp only [find?, Keyed.find?_cons] at ih honce ⊢
    rw [List.find?_cons]
    by_cases hka : k = a
    · subst hka
      simp [ha]
    · by_cases hkb : k = b
      · subst hkb
        have hnone : Keyed.find? a rest = none := by simpa [hka] using honce
        simp [hka, hb, hnone]
      · simpa [hka, hkb] using ih (by simpa [hka, hkb] using honce)

end Lookup

/-! ## §2. The names of fields. -/

/-- Whether a character of a key is in no case but the small one: ASCII, and no capital. -/
def isSmallChar (c : Char) : Bool := c.toNat < 128 && !(65 ≤ c.toNat && c.toNat ≤ 90)

theorem of_isSmallChar {c : Char} (h : isSmallChar c = true) :
    c.toNat < 128 ∧ ¬ ('A' ≤ c ∧ c ≤ 'Z') := by
  simp only [isSmallChar, Bool.and_eq_true, decide_eq_true_eq, Bool.not_eq_true',
    Bool.and_eq_false_iff, decide_eq_false_iff_not] at h
  refine ⟨h.1, fun hcapital => ?_⟩
  simp only [Char.le_def, UInt32.le_iff_toNat_le] at hcapital
  have hlow : 65 ≤ c.toNat := hcapital.1
  have hhigh : c.toNat ≤ 90 := hcapital.2
  omega

theorem lowerFrom_of_small {cs before : List Char} (h : ∀ c ∈ cs, isSmallChar c = true) :
    Text.lowerFrom before cs = cs := by
  induction cs generalizing before with
  | nil => rfl
  | cons c cs ih =>
    obtain ⟨hascii, hcapital⟩ := of_isSmallChar (h c (List.mem_cons_self ..))
    have hsigma : c ≠ 'Σ' := by
      rintro rfl
      exact absurd hascii (by decide)
    have hdotted : c ≠ 'İ' := by
      rintro rfl
      exact absurd hascii (by decide)
    rw [Text.lowerFrom, if_neg hsigma, if_neg hdotted, Text.lowerChar, if_pos hascii,
      Text.asciiLower, if_neg hcapital, ih fun d hd => h d (List.mem_cons_of_mem _ hd)]
    rfl

theorem underscored_of_small {cs : List Char} (h : ∀ c ∈ cs, isSmallChar c = true) :
    Name.underscored cs = cs := by
  induction cs with
  | nil => rfl
  | cons c cs ih =>
    obtain ⟨-, hcapital⟩ := of_isSmallChar (h c (List.mem_cons_self ..))
    rw [Name.underscored, Name.isCapital, if_neg (by simpa using hcapital),
      ih fun d hd => h d (List.mem_cons_of_mem _ hd)]

/-- A key of small characters is its own form in snake case. -/
theorem snakeCase_of_small {name : String} (h : name.toList.all isSmallChar = true) :
    Name.snakeCase name = name := by
  have hall : ∀ c ∈ name.toList, isSmallChar c = true := List.all_eq_true.mp h
  rw [Name.snakeCase]
  cases hname : name.toList with
  | nil => exact (String.toList_inj.mp (hname.trans rfl)).symm
  | cons c cs =>
    rw [hname] at hall
    dsimp only
    rw [underscored_of_small fun d hd => hall d (List.mem_cons_of_mem _ hd), Text.lower,
      lowerFrom_of_small hall, ← hname, String.ofList_toList]

/-- Whether a name can be that of a field: it is in snake case, and it does not tell the kind. -/
def canNameField (name : String) : Bool :=
  name.toList.all isSmallChar && name != "type" && name != "kind"

theorem canNameField_commonFields :
    (Catalog.commonFields.all fun f => canNameField f.1) = true := by decide

theorem canNameField_ownFields :
    (Kind.all.all fun k => k.ownFields.all fun f => canNameField f.1) = true := by decide

/-- The fields that groups of kinds share. Kinds outside of a group share none. -/
def groups : List Fields :=
  [Catalog.rotaryFields, Catalog.linearFields, Catalog.switchFields, Catalog.selectionFields,
    Catalog.readoutFields, Catalog.canvasFields, Catalog.containerFields, []]

-- a group is checked once, and not again for each of its kinds
theorem canNameField_groups :
    (groups.all fun fields => fields.all fun f => canNameField f.1) = true := by decide

theorem groupFields_mem_groups (k : Kind) : k.groupFields ∈ groups := by
  cases k <;> simp only [Kind.groupFields, groups, List.mem_cons, true_or, or_true]

theorem mem_all (k : Kind) : k ∈ Kind.all := by cases k <;> decide

/-- The fields of a kind are named in snake case. -/
theorem canNameField_of_mem {k : Kind} {name : String} (h : name ∈ k.fieldNames) :
    canNameField name = true := by
  have hname : name ∈ Keyed.keys (Catalog.commonFields ++ k.groupFields)
      ∨ name ∈ Keyed.keys k.ownFields := Keyed.mem_keys_putAll h
  have hcommon := List.all_eq_true.mp canNameField_commonFields
  have hgroup := List.all_eq_true.mp
    (List.all_eq_true.mp canNameField_groups _ (groupFields_mem_groups k))
  have hown := List.all_eq_true.mp
    (List.all_eq_true.mp canNameField_ownFields k (mem_all k))
  rcases hname with hname | hname
  · obtain ⟨f, hf, rfl⟩ := List.mem_map.mp hname
    rcases List.mem_append.mp hf with hf | hf
    · exact hcommon f hf
    · exact hgroup f hf
  · obtain ⟨f, hf, rfl⟩ := List.mem_map.mp hname
    exact hown f hf

theorem snakeCase_of_mem {k : Kind} {name : String} (h : name ∈ k.fieldNames) :
    Name.snakeCase name = name := by
  have hname := canNameField_of_mem h
  simp only [canNameField, Bool.and_eq_true] at hname
  exact snakeCase_of_small hname.1.1

/-! ## §3. Elements. -/

/-- A record with its keys in snake case. -/
def respelledRecord (shape : List (String × Option Value)) : Fields → Fields :=
  respell (fun key => (shape.map Prod.fst).contains (Name.snakeCase key)) fun _ v => v

/-- What stands in a field of a kind, with the keys of records in it in snake case. -/
def respelledField (k : Kind) (name : String) : Value → Value :=
  match k.recordField? with
  | some (field, shape) => if name = field then onObjects (respelledRecord shape) else id
  | none => id

/-- An element with the keys of its fields, and of the records in them, in snake case. -/
def respelledElement (fields : Fields) : Fields :=
  match Kind.ofName? (Element.kindName fields) with
  | some k => respell (fun key => k.fieldNames.contains (Name.snakeCase key))
      (fun key => respelledField k (Name.snakeCase key)) fields
  | none => fields

/-- An entry that is changed as its key asks is put the same way. -/
theorem put_map_same (inside : String → Value → Value) (key : String) (v : Value)
    (entries : Fields) :
    Keyed.put key (inside key v) (entries.map fun f => (f.1, inside f.1 f.2))
      = (Keyed.put key v entries).map fun f => (f.1, inside f.1 f.2) := by
  induction entries with
  | nil => rfl
  | cons f rest ih =>
    obtain ⟨k, old⟩ := f
    rw [List.map_cons, Keyed.put, Keyed.put, ih]
    by_cases hk : k = key
    · subst hk
      simp
    · simp [hk]

/-- Entries that are changed as their keys ask are put the same way. -/
theorem putAll_map_inside (inside : String → Value → Value) (entries more : Fields) :
    Keyed.putAll (entries.map fun f => (f.1, inside f.1 f.2)) (more.map fun f => (f.1, inside f.1 f.2))
      = (Keyed.putAll entries more).map fun f => (f.1, inside f.1 f.2) := by
  induction more generalizing entries with
  | nil => rfl
  | cons f rest ih =>
    rw [List.map_cons, Keyed.putAll, Keyed.putAll, List.foldl_cons, List.foldl_cons]
    dsimp only
    rw [put_map_same]
    exact ih _

theorem snakeFields_eq (fields : Fields) :
    snakeFields fields = Keyed.ofList (fields.map fun f => (Name.snakeCase f.1, f.2)) := by
  rw [snakeFields, Keyed.ofList, Keyed.putAll, List.foldl_map]
  rfl

/-- **Reading snake case undoes respelling**, but for what stands in the fields. -/
theorem snakeFields_respell {names : List String} (hnames : ∀ n ∈ names, Name.snakeCase n = n)
    (inside : String → Value → Value) (fields : Fields) :
    snakeFields (respell (fun key => names.contains (Name.snakeCase key))
        (fun key => inside (Name.snakeCase key)) fields)
      = (snakeFields fields).map fun f =>
          (f.1, if names.contains f.1 then inside f.1 f.2 else f.2) := by
  rw [snakeFields_eq, snakeFields_eq, Keyed.ofList, Keyed.ofList,
    ← putAll_map_inside (fun key v => if names.contains key then inside key v else v), respell,
    List.map_map, List.map_map]
  refine congrArg (Keyed.putAll []) (List.map_congr_left fun f _ => ?_)
  simp only [Function.comp_apply]
  cases hknown : names.contains (Name.snakeCase f.1) with
  | true =>
    have hfixed := hnames _ (List.contains_iff_mem.mp hknown)
    rw [if_pos rfl]
    dsimp only
    rw [hfixed, if_pos rfl]
  | false => rw [if_neg (by simp), if_neg (by simp)]

theorem filterMap_fields?_map (change : Fields → Fields) (items : List Value) :
    (items.map (onObject change)).filterMap fields? = (items.filterMap fields?).map change := by
  rw [List.filterMap_map, List.map_filterMap]
  refine List.filterMap_congr fun v _ => ?_
  cases v <;> rfl

theorem truthy_onObjects (change : Fields → Fields) (v : Value) :
    (onObjects change v).truthy = v.truthy := by
  cases v with
  | list items => cases items <;> rfl
  | _ => rfl

theorem snakeFields_respelledRecord {shape : List (String × Option Value)}
    (hshape : ∀ n ∈ shape.map Prod.fst, Name.snakeCase n = n) (fields : Fields) :
    snakeFields (respelledRecord shape fields) = snakeFields fields := by
  rw [respelledRecord, snakeFields_respell hshape fun _ v => v]
  simp

/-- Records are read as before. -/
theorem recordsOf_onObjects {shape : List (String × Option Value)}
    (hshape : ∀ n ∈ shape.map Prod.fst, Name.snakeCase n = n) (v : Value) :
    recordsOf shape (onObjects (respelledRecord shape) v) = recordsOf shape v := by
  rw [recordsOf, recordsOf, truthy_onObjects]
  cases v with
  | list items =>
    have hread : ∀ items : List Value,
        ((items.map (onObject (respelledRecord shape))).filterMap fields?).mapM
            (fun fields => recordOf shape (snakeFields fields))
          = (items.filterMap fields?).mapM fun fields => recordOf shape (snakeFields fields) := by
      intro items
      rw [filterMap_fields?_map, List.mapM_map]
      refine congrArg (fun f => List.mapM f (items.filterMap fields?)) (funext fun fields => ?_)
      exact congrArg (recordOf shape) (snakeFields_respelledRecord hshape fields)
    cases items with
    | nil => rfl
    | cons item items =>
      show (do .ok (.list (← _)) : Except Fault Value) = (do .ok (.list (← _)))
      exact congrArg (fun x : Except Fault (List Value) => (do .ok (Value.list (← x))))
        (hread (item :: items))
  | _ => rfl

/-- The fields of records are named in snake case, each field once. -/
theorem recordField?_small {k : Kind} {field : String} {shape : List (String × Option Value)}
    (h : k.recordField? = some (field, shape)) :
    k.fieldNames.Nodup ∧ field ∈ k.fieldNames
      ∧ ∀ n ∈ shape.map Prod.fst, Name.snakeCase n = n := by
  cases k with
  | meter =>
    cases h
    exact ⟨by decide, by decide, by decide⟩
  | eqCurve =>
    cases h
    exact ⟨by decide, by decide, by decide⟩
  | _ => cases h

/-- What stood in a field does not matter once another value is put there. -/
theorem put_map_inside (inside inside' : String → Value → Value) {field : String} {ds : Fields}
    (hnodup : (Keyed.keys ds).Nodup) (hsame : ∀ n ≠ field, inside n = inside' n) (v : Value) :
    put field v (ds.map fun f => (f.1, inside f.1 f.2))
      = put field v (ds.map fun f => (f.1, inside' f.1 f.2)) := by
  have hkeep : ∀ ds : Fields, field ∉ Keyed.keys ds →
      ds.map (fun f => (f.1, inside f.1 f.2)) = ds.map fun f => (f.1, inside' f.1 f.2) := by
    intro ds hds
    refine List.map_congr_left fun f hf => ?_
    rw [hsame f.1 fun hfield => hds (hfield ▸ Keyed.mem_keys hf)]
  induction ds with
  | nil => rfl
  | cons f rest ih =>
    obtain ⟨k, old⟩ := f
    obtain ⟨hk, hrest⟩ := List.nodup_cons.mp hnodup
    rw [List.map_cons, List.map_cons, put, put, Keyed.put, Keyed.put]
    by_cases hfield : k = field
    · subst hfield
      rw [if_pos (by simp), if_pos (by simp), hkeep rest hk]
    · rw [if_neg (by simpa using hfield), if_neg (by simpa using hfield), hsame k hfield]
      exact congrArg _ (ih hrest)

theorem assign_eq (k : Kind) (given : Fields) : Element.assign k given
    = k.defaults.map fun f => (f.1, (find? given f.1).getD f.2) := rfl

theorem find?_assign (k : Kind) (given : Fields) (field : String) :
    find? (Element.assign k given) field
      = (find? k.defaults field).map fun fallback => (find? given field).getD fallback :=
  find?_map_inside (fun n fallback => (find? given n).getD fallback) k.defaults field

/-- What is given for the fields of a kind, with the keys of records in it in snake case. -/
def respelledGiven (k : Kind) (given : Fields) : Fields :=
  given.map fun f => (f.1, if k.fieldNames.contains f.1 then respelledField k f.1 f.2 else f.2)

section Given

variable {k : Kind} {field : String} {shape : List (String × Option Value)}

theorem respelledGiven_of_none (h : k.recordField? = none) (given : Fields) :
    respelledGiven k given = given := by
  have hid : ∀ name v, respelledField k name v = v := fun name v => by
    rw [respelledField, h]
    rfl
  simp [respelledGiven, hid]

/-- The field of the records alone is another one. -/
theorem find?_respelledGiven (h : k.recordField? = some (field, shape)) (given : Fields)
    (name : String) : find? (respelledGiven k given) name
      = if name = field then (find? given name).map (onObjects (respelledRecord shape))
        else find? given name := by
  rw [respelledGiven,
    find?_map_inside fun n v => if k.fieldNames.contains n then respelledField k n v else v]
  by_cases hname : name = field
  · have hcontains : k.fieldNames.contains name = true :=
      List.contains_iff_mem.mpr (hname ▸ (recordField?_small h).2.1)
    simp only [hcontains, if_true, if_pos hname, respelledField, h]
  · simp only [if_neg hname, respelledField, h, id_eq, ite_self, Option.map_id']

/-- Records take the place of what was read. -/
theorem put_assign_respelledGiven (h : k.recordField? = some (field, shape)) (given : Fields)
    (records : Value) : put field records (Element.assign k (respelledGiven k given))
      = put field records (Element.assign k given) := by
  rw [assign_eq, assign_eq]
  refine put_map_inside (fun n fallback => (find? (respelledGiven k given) n).getD fallback)
    (fun n fallback => (find? given n).getD fallback) (recordField?_small h).1 ?_ records
  intro n hn
  funext fallback
  rw [find?_respelledGiven h, if_neg hn]

/-- An element is read from records in either spelling. -/
theorem ofKind_respelledGiven (k : Kind) (given : Fields) :
    Element.ofKind k (respelledGiven k given) = Element.ofKind k given := by
  cases h : k.recordField? with
  | none => rw [respelledGiven_of_none h]
  | some found =>
    obtain ⟨field, shape⟩ := found
    have hrecords : ∀ fallback,
        recordsOf shape (((find? given field).map (onObjects (respelledRecord shape))).getD fallback)
          = recordsOf shape ((find? given field).getD fallback) := by
      intro fallback
      cases find? given field with
      | none => rfl
      | some v => exact recordsOf_onObjects (recordField?_small h).2.2 v
    have hput := put_assign_respelledGiven h given
    simp only [Element.ofKind, h, find?_assign, find?_respelledGiven h, if_true]
    cases find? k.defaults field with
    | none => simp only [Option.map_none, hput]
    | some fallback => simp only [Option.map_some, Option.getD_some, hrecords, hput]

end Given

/-- What does not name a field is found as before. -/
theorem find?_respell_other {names : List String} {inside : String → Value → Value} {key : String}
    (hkey : Name.snakeCase key = key) (hother : key ∉ names) (fields : Fields) :
    find? (respell (fun k => names.contains (Name.snakeCase k)) inside fields) key
      = find? fields key := by
  induction fields with
  | nil => rfl
  | cons f rest ih =>
    obtain ⟨k, v⟩ := f
    simp only [respell, find?, List.map_cons] at ih ⊢
    cases hknown : names.contains (Name.snakeCase k) with
    | true =>
      have hmem := List.contains_iff_mem.mp hknown
      have hnew : Name.snakeCase k ≠ key := fun h => hother (h ▸ hmem)
      have hold : k ≠ key := by
        rintro rfl
        exact hother (hkey ▸ hmem)
      rw [if_pos rfl, Keyed.find?_cons, Keyed.find?_cons, if_neg (by simpa using hnew),
        if_neg (by simpa using hold), ih]
    | false => rw [if_neg (by simp), Keyed.find?_cons, Keyed.find?_cons, ih]

/-- **Elements are read in either spelling.** -/
theorem ofFields_respelledElement (fields : Fields) :
    Element.ofFields (respelledElement fields) = Element.ofFields fields := by
  cases hkind : Kind.ofName? (Element.kindName fields) with
  | none => rw [respelledElement, hkind]
  | some k =>
    have hnot : ∀ key, canNameField key = false → key ∉ k.fieldNames := by
      intro key hkey hmem
      rw [canNameField_of_mem hmem] at hkey
      cases hkey
    have hname : Element.kindName (respelledElement fields) = Element.kindName fields := by
      rw [respelledElement, hkind]
      simp only [Element.kindName]
      rw [find?_respell_other (by decide) (hnot "type" (by decide)),
        find?_respell_other (by decide) (hnot "kind" (by decide))]
    rw [Element.ofFields, Element.ofFields, hname, hkind]
    dsimp only
    rw [respelledElement, hkind]
    dsimp only
    rw [snakeFields_respell (fun n hn => snakeCase_of_mem hn) (respelledField k)]
    exact ofKind_respelledGiven k (snakeFields fields)

end ControlSurface.Project
