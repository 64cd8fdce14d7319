/-
  ControlSurface.Proofs.Project.Spelling
  ──────────────────────────────────────
  A project read in snake case.  Elements, layers and fonts are read in either spelling, and so are
  the colours, the background and the elements of a window.  Other keys are read in camel case only:
  after respelling the project is read as if they were left out (`ofFields_respelled`).
-/
import ControlSurface.Proofs.Project.Respelling

namespace ControlSurface.Project

open ControlSurface.Outcome ControlSurface.Value

/-! ## §1. The keys that are read. -/

/-- The keys of a stop of a gradient. -/
def stopKeys : List String := ["color", "position"]

/-- The keys of a gradient. -/
def gradientKeys : List String := ["type", "angle", "colorStops", "stops"]

/-- The keys of a window. -/
def windowKeys : List String :=
  ["id", "name", "type", "kind", "width", "height", "backgroundColor", "background_color",
   "backgroundType", "background_type", "gradientConfig", "gradient", "elementIds", "element_ids"]

/-- The keys of a layer. -/
def layerKeys : List String := ["id", "name", "order", "visible", "locked", "color"]

/-- The keys of a font. -/
def fontKeys : List String := ["family", "filename", "file", "data_base64", "dataBase64"]

/-- The keys of the canvas of an old project. -/
def canvasKeys : List String := ["width", "height", "backgroundColor"]

/-- The keys of a project. -/
def projectKeys : List String :=
  ["name", "projectName", "elements", "windows", "layers", "fonts", "canvas", "canvasWidth",
   "canvasHeight", "backgroundColor"]

/-- What stands in a field of a gradient, with its stops changed. -/
def insideGradient (stop : Fields → Fields) (key : String) : Value → Value :=
  if key = "colorStops" ∨ key = "stops" then onObjects stop else id

/-- What stands in a field of a window, with its gradient changed. -/
def insideWindow (gradient : Fields → Fields) (key : String) : Value → Value :=
  if key = "gradientConfig" ∨ key = "gradient" then onObject gradient else id

/-- Changes of the parts of a project. -/
structure Changes where
  element : Fields → Fields := id
  window : Fields → Fields := id
  layer : Fields → Fields := id
  font : Fields → Fields := id
  canvas : Fields → Fields := id

/-- What stands in a field of a project, with its parts changed. -/
def insideProject (c : Changes) (key : String) : Value → Value :=
  if key = "elements" then onObjects c.element
  else if key = "windows" then onObjects c.window
  else if key = "layers" then onObjects c.layer
  else if key = "fonts" then onObjects c.font
  else if key = "canvas" then onObject c.canvas
  else id

/-! ## §2. Respelled projects. -/

/-- A stop of a gradient in snake case. -/
def respelledStop : Fields → Fields := respell stopKeys.contains fun _ v => v

/-- A gradient in snake case. -/
def respelledGradient : Fields → Fields :=
  respell gradientKeys.contains (insideGradient respelledStop)

/-- A window in snake case. -/
def respelledWindow : Fields → Fields :=
  respell windowKeys.contains (insideWindow respelledGradient)

/-- A layer in snake case. -/
def respelledLayer : Fields → Fields := respell layerKeys.contains fun _ v => v

/-- A font in snake case. -/
def respelledFont : Fields → Fields := respell fontKeys.contains fun _ v => v

/-- The canvas of an old project in snake case. -/
def respelledCanvas : Fields → Fields := respell canvasKeys.contains fun _ v => v

/-- A project with every key that is read in snake case, at any depth. -/
def respelled : Fields → Fields :=
  respell projectKeys.contains (insideProject
    { element := respelledElement, window := respelledWindow, layer := respelledLayer,
      font := respelledFont, canvas := respelledCanvas })

/-! ## §3. Keys with one spelling. -/

/-- A gradient without the keys that are read in camel case only. -/
def gradientWithoutCamel : Fields → Fields := leaveOut ["colorStops"] fun _ => id

/-- A window without the keys that are read in camel case only. -/
def windowWithoutCamel : Fields → Fields :=
  leaveOut ["gradientConfig"] (insideWindow gradientWithoutCamel)

/-- The canvas of an old project without the keys that are read in camel case only. -/
def canvasWithoutCamel : Fields → Fields := leaveOut ["backgroundColor"] fun _ => id

/-- A project without the keys that are read in camel case only, at any depth. -/
def withoutCamel : Fields → Fields :=
  leaveOut ["projectName", "canvasWidth", "canvasHeight", "backgroundColor"]
    (insideProject { window := windowWithoutCamel, canvas := canvasWithoutCamel })

/-- No window and no font of a project has a key in both spellings. -/
structure SpelledOnce (p : Fields) : Prop where
  windows : ∀ w ∈ objects (findOr p "windows" .null), SpellsOnce windowKeys w
  fonts : ∀ f ∈ objects (findOr p "fonts" .null), SpellsOnce fontKeys f

/-! ## §4. Parts read in either spelling. -/

theorem respell_eq_self {known : List String} (h : ∀ key ∈ known, Name.snakeCase key = key)
    (fields : Fields) : respell known.contains (fun _ v => v) fields = fields := by
  refine (List.map_congr_left fun f _ => ?_).trans (List.map_id fields)
  split
  next hknown =>
    rw [h f.1 (List.contains_iff_mem.mp hknown)]
    rfl
  next => rfl

theorem respelledStop_eq : respelledStop = id :=
  funext fun fields => respell_eq_self (by decide) fields

theorem respelledLayer_eq : respelledLayer = id :=
  funext fun fields => respell_eq_self (by decide) fields

theorem onObject_id : onObject id = id := by
  funext v
  cases v <;> rfl

theorem onObjects_id : onObjects id = id := by
  funext v
  cases v with
  | list items => rw [onObjects, onObject_id, List.map_id]; rfl
  | _ => rfl

theorem either_eq (fields : Fields) (first second : String) (fallback : Value) :
    either fields first second fallback
      = ((find? fields first).or (find? fields second)).getD fallback := by
  rw [either]
  cases find? fields first <;> rfl

/-- A font is read in either spelling. -/
theorem ofFields_respelledFont {fields : Fields} (h : SpellsOnce fontKeys fields) :
    FontAsset.ofFields (respelledFont fields) = FontAsset.ofFields fields := by
  have hone : ∀ key, forms fontKeys key = [key] → key ∈ fontKeys →
      find? (respelledFont fields) key = find? fields key := by
    intro key hforms hkey
    rw [respelledFont, find?_respell_of_forms_one hforms hkey, Option.map_id']
  have honce : find? fields "data_base64" = none ∨ find? fields "dataBase64" = none :=
    h _ (by decide) _ (by decide) (by decide) (by decide)
  have hdata : find? (respelledFont fields) "data_base64"
      = (find? fields "data_base64").or (find? fields "dataBase64") :=
    find?_respell_of_forms_two (by decide) (by decide) (fun _ => rfl) (fun _ => rfl) honce
  have hlost : find? (respelledFont fields) "dataBase64" = none :=
    find?_respell_of_forms_nil (by decide) (by decide)
  simp only [FontAsset.ofFields, findOr, either_eq, hdata, hlost, Option.or_none,
    hone "family" (by decide) (by decide), hone "filename" (by decide) (by decide),
    hone "file" (by decide) (by decide)]

/-! ## §5. Parts with keys in one spelling. -/

/-- A gradient in snake case has lost its colour stops. -/
theorem ofFields_respelledGradient (fields : Fields) :
    Gradient.ofFields (respelledGradient fields) = Gradient.ofFields (gradientWithoutCamel fields) := by
  have hone : ∀ key, forms gradientKeys key = [key] → key ∈ gradientKeys → key ≠ "colorStops" →
      find? (respelledGradient fields) key = find? (gradientWithoutCamel fields) key := by
    intro key hforms hkey hne
    rw [respelledGradient, find?_respell_of_forms_one hforms hkey, gradientWithoutCamel,
      find?_leaveOut, if_neg (by simpa using hne), respelledStop_eq, insideGradient, onObjects_id,
      ite_self]
  have hlost : find? (respelledGradient fields) "colorStops" = none :=
    find?_respell_of_forms_nil (by decide) (by decide)
  have hleft : find? (gradientWithoutCamel fields) "colorStops" = none := by
    rw [gradientWithoutCamel, find?_leaveOut, if_pos (by decide)]
  simp only [Gradient.ofFields, findOr, either_eq, hlost, hleft,
    hone "stops" (by decide) (by decide) (by decide),
    hone "type" (by decide) (by decide) (by decide),
    hone "angle" (by decide) (by decide) (by decide)]

/-- The keys of a window with one spelling. -/
theorem forms_windowKeys_one :
    ∀ key ∈ ["id", "name", "type", "kind", "width", "height", "gradient"],
      forms windowKeys key = [key] ∧ key ∈ windowKeys := by decide

/-- The keys of a window with two spellings. -/
theorem forms_windowKeys_two :
    ∀ pair ∈ [("backgroundColor", "background_color"), ("backgroundType", "background_type"),
        ("elementIds", "element_ids")],
      forms windowKeys pair.1 = [] ∧ forms windowKeys pair.2 = [pair.1, pair.2]
        ∧ pair.1 ∈ windowKeys ∧ pair.2 ∈ windowKeys ∧ pair.1 ≠ pair.2
        ∧ Name.snakeCase pair.1 = Name.snakeCase pair.2 := by decide

theorem insideWindow_other {key : String} (hkey : key ∉ ["gradientConfig", "gradient"])
    (change : Fields → Fields) (v : Value) : insideWindow change key v = v := by
  rw [insideWindow, if_neg (by simpa using hkey)]
  rfl

theorem find?_windowWithoutCamel_other {key : String} (hkey : key ∉ ["gradientConfig", "gradient"])
    (fields : Fields) : find? (windowWithoutCamel fields) key = find? fields key := by
  have hconfig : key ≠ "gradientConfig" := fun h => hkey (h ▸ List.mem_cons_self ..)
  rw [windowWithoutCamel, find?_leaveOut, if_neg (by simpa using hconfig),
    funext (insideWindow_other hkey _), Option.map_id']

section Window

variable {fields : Fields}

theorem find?_respelledWindow_one (key : String)
    (hone : key ∈ ["id", "name", "type", "kind", "width", "height", "gradient"])
    (hkey : key ∉ ["gradientConfig", "gradient"]) :
    find? (respelledWindow fields) key = find? (windowWithoutCamel fields) key := by
  obtain ⟨hforms, hknown⟩ := forms_windowKeys_one key hone
  rw [respelledWindow, find?_respell_of_forms_one hforms hknown,
    find?_windowWithoutCamel_other hkey, funext (insideWindow_other hkey _), Option.map_id']

/-- A key with two spellings stands under the second one, whichever was given. -/
theorem find?_respelledWindow_two (h : SpellsOnce windowKeys fields) (camel snake : String)
    (htwo : (camel, snake) ∈ [("backgroundColor", "background_color"),
      ("backgroundType", "background_type"), ("elementIds", "element_ids")])
    (hcamel : camel ∉ ["gradientConfig", "gradient"])
    (hsnake : snake ∉ ["gradientConfig", "gradient"]) :
    (find? (respelledWindow fields) camel).or (find? (respelledWindow fields) snake)
      = (find? (windowWithoutCamel fields) camel).or (find? (windowWithoutCamel fields) snake) := by
  obtain ⟨hlost, hforms, hknown, hknown', hne, hsame⟩ := forms_windowKeys_two _ htwo
  rw [find?_windowWithoutCamel_other hcamel, find?_windowWithoutCamel_other hsnake, respelledWindow,
    find?_respell_of_forms_nil hlost hknown, Option.none_or,
    find?_respell_of_forms_two hforms hknown' (insideWindow_other hcamel _)
      (insideWindow_other hsnake _) (h _ hknown _ hknown' hne hsame)]

/-- A window in snake case has lost its configured gradient. -/
theorem ofFields_respelledWindow (h : SpellsOnce windowKeys fields) :
    Window.ofFields (respelledWindow fields) = Window.ofFields (windowWithoutCamel fields) := by
  have hconfig : find? (respelledWindow fields) "gradientConfig" = none :=
    find?_respell_of_forms_nil (by decide) (by decide)
  have hleft : find? (windowWithoutCamel fields) "gradientConfig" = none := by
    rw [windowWithoutCamel, find?_leaveOut, if_pos (by decide)]
  have hgradient : find? (respelledWindow fields) "gradient"
      = (find? fields "gradient").map (onObject respelledGradient) := by
    obtain ⟨hforms, hknown⟩ := forms_windowKeys_one "gradient" (by decide)
    exact find?_respell_of_forms_one hforms hknown
  have hgradient' : find? (windowWithoutCamel fields) "gradient"
      = (find? fields "gradient").map (onObject gradientWithoutCamel) := by
    rw [windowWithoutCamel, find?_leaveOut, if_neg (by decide)]
    rfl
  have hcolor := find?_respelledWindow_two h "backgroundColor" "background_color"
    (by decide) (by decide) (by decide)
  have htype := find?_respelledWindow_two h "backgroundType" "background_type"
    (by decide) (by decide) (by decide)
  have hids := find?_respelledWindow_two h "elementIds" "element_ids"
    (by decide) (by decide) (by decide)
  have hone := @find?_respelledWindow_one fields
  simp only [Window.ofFields, findOr, either_eq, hconfig, hleft, hgradient, hgradient', hcolor, htype,
    hids, hone "id" (by decide) (by decide), hone "name" (by decide) (by decide),
    hone "type" (by decide) (by decide), hone "kind" (by decide) (by decide),
    hone "width" (by decide) (by decide), hone "height" (by decide) (by decide)]
  -- the gradients differ in nothing but their spelling
  cases find? fields "gradient" with
  | none => rfl
  | some v =>
    cases v with
    | object g =>
      simp only [Option.map_some, onObject, Option.getD_some, Option.getD_none, Value.orElse,
        Value.truthy, Bool.false_eq_true, if_false, ofFields_respelledGradient]
    | _ => rfl

end Window

/-- The canvas of an old project in snake case has lost its colour. -/
theorem find?_respelledCanvas (key : String) (hkey : key ∈ canvasKeys) (fields : Fields) :
    find? (respelledCanvas fields) key = find? (canvasWithoutCamel fields) key := by
  have hone : ∀ key, forms canvasKeys key = [key] → key ∈ canvasKeys → key ≠ "backgroundColor" →
      find? (respelledCanvas fields) key = find? (canvasWithoutCamel fields) key := by
    intro key hforms hkey hne
    rw [respelledCanvas, find?_respell_of_forms_one hforms hkey, canvasWithoutCamel,
      find?_leaveOut, if_neg (by simpa using hne)]
    rfl
  simp only [canvasKeys, List.mem_cons, List.not_mem_nil, or_false] at hkey
  rcases hkey with rfl | rfl | rfl
  · exact hone "width" (by decide) (by decide) (by decide)
  · exact hone "height" (by decide) (by decide) (by decide)
  · have hlost : find? (respelledCanvas fields) "backgroundColor" = none :=
      find?_respell_of_forms_nil (by decide) (by decide)
    rw [hlost, canvasWithoutCamel, find?_leaveOut, if_pos (by decide)]

/-! ## §6. Projects. -/

theorem filterMap_fields?_texts {α : Type} (name : α → String) (xs : List α) :
    (xs.map fun x => Value.text (name x)).filterMap fields? = [] := by
  rw [List.filterMap_map]
  exact List.filterMap_eq_nil_iff.mpr fun _ _ => rfl

/-- The objects that are read from a field are those of its value. -/
theorem eq_objects {fields : Fields} {key : String} {found : List Fields}
    (h : objectsIn fields key = .ok found) : found = objects (findOr fields key .null) := by
  rw [objectsIn, findOr] at h
  rw [findOr]
  cases hfound : find? fields key with
  | none =>
    rw [hfound] at h
    exact (Except.ok.inj h).symm
  | some v =>
    rw [hfound] at h
    cases v with
    | list items => exact (Except.ok.inj h).symm
    | text s => exact (Except.ok.inj h).symm.trans (filterMap_fields?_texts String.singleton s.toList)
    | object fs => exact (Except.ok.inj h).symm.trans (filterMap_fields?_texts Prod.fst fs)
    | _ => cases h

/-- Items are there in either spelling. -/
theorem objectsIn_onObjects {fields fields' : Fields} {key : String} {change : Fields → Fields}
    (h : find? fields' key = (find? fields key).map (onObjects change)) :
    objectsIn fields' key = (do .ok ((← objectsIn fields key).map change)) := by
  rw [objectsIn, objectsIn, findOr, findOr, h]
  cases find? fields key with
  | none => rfl
  | some v =>
    cases v with
    | list items => exact congrArg Except.ok (filterMap_fields?_map change items)
    | text s =>
      have hnone := filterMap_fields?_texts String.singleton s.toList
      exact congrArg Except.ok (hnone.trans (congrArg (List.map change) hnone).symm)
    | object fs =>
      have hnone := filterMap_fields?_texts Prod.fst fs
      exact congrArg Except.ok (hnone.trans (congrArg (List.map change) hnone).symm)
    | _ => rfl

theorem mapM_congr_left {α β : Type} {f g : α → Except Fault β} {xs : List α}
    (h : ∀ x ∈ xs, f x = g x) : xs.mapM f = xs.mapM g := by
  induction xs with
  | nil => rfl
  | cons x xs ih =>
    rw [List.mapM_cons, List.mapM_cons, h x (List.mem_cons_self ..),
      ih fun y hy => h y (List.mem_cons_of_mem _ hy)]

section Reading

variable {α : Type} (read : Fields → Except Fault α) {p respelt left : Fields} {key : String}
  {change change' : Fields → Fields}

/-- Where all objects of a field are read the same, so is the field. -/
theorem read_objects (h : find? respelt key = (find? p key).map (onObjects change))
    (h' : find? left key = (find? p key).map (onObjects change'))
    (hread : ∀ o ∈ objects (findOr p key .null), read (change o) = read (change' o)) :
    (do (← objectsIn respelt key).mapM read) = (do (← objectsIn left key).mapM read) := by
  rw [objectsIn_onObjects h, objectsIn_onObjects h']
  cases hfound : objectsIn p key with
  | error e => rfl
  | ok found =>
    rw [eq_objects hfound]
    show List.mapM read (List.map change _) = List.mapM read (List.map change' _)
    rw [List.mapM_map, List.mapM_map]
    exact mapM_congr_left hread

end Reading

theorem ofFields_eq (p : Fields) : ofFields p = (do
    let elements ← (do (← objectsIn p "elements").mapM Element.ofFields)
    let windows ← (do (← objectsIn p "windows").mapM Window.ofFields)
    let layers ← (do (← objectsIn p "layers").mapM Layer.ofFields)
    let fonts ← (do (← objectsIn p "fonts").mapM fun f => .ok (FontAsset.ofFields f))
    let windows ← if windows.isEmpty then do .ok [← canvasWindow p elements] else .ok windows
    .ok { name := either p "name" "projectName" (.text "Untitled"), elements := elements
          windows := windows, layers := layers, fonts := fonts }) := by
  have hpure : ∀ found : List Fields,
      (found.mapM fun f => (.ok (FontAsset.ofFields f) : Except Fault FontAsset))
        = .ok (found.map FontAsset.ofFields) := fun found => List.mapM_pure
  simp only [ofFields, bind_assoc, hpure, ok_bind]

/-- What stands in a field of a project in snake case, if the key of the field stays as it is. -/
theorem find?_respelled (key : String)
    (hkey : key ∈ ["name", "elements", "windows", "layers", "fonts", "canvas"]) (p : Fields) :
    find? (respelled p) key = (find? p key).map (insideProject
      { element := respelledElement, window := respelledWindow, layer := respelledLayer,
        font := respelledFont, canvas := respelledCanvas } key) := by
  have hstays : ∀ k ∈ ["name", "elements", "windows", "layers", "fonts", "canvas"],
      forms projectKeys k = [k] ∧ k ∈ projectKeys := by decide
  obtain ⟨hforms, hknown⟩ := hstays key hkey
  exact find?_respell_of_forms_one hforms hknown

theorem find?_withoutCamel (key : String)
    (hkey : ["projectName", "canvasWidth", "canvasHeight", "backgroundColor"].contains key = false)
    (p : Fields) : find? (withoutCamel p) key = (find? p key).map (insideProject
      { window := windowWithoutCamel, canvas := canvasWithoutCamel } key) := by
  rw [withoutCamel, find?_leaveOut, if_neg (Bool.eq_false_iff.mp hkey)]

/-- A key that is read in camel case only is found neither after respelling nor after leaving it
out. -/
theorem find?_camel (key : String)
    (hkey : ["projectName", "canvasWidth", "canvasHeight", "backgroundColor"].contains key = true)
    (p : Fields) : find? (respelled p) key = none ∧ find? (withoutCamel p) key = none := by
  constructor
  · have hboth : ∀ k ∈ ["projectName", "canvasWidth", "canvasHeight", "backgroundColor"],
        forms projectKeys k = [] ∧ k ∈ projectKeys := by decide
    obtain ⟨hforms, hknown⟩ := hboth key (List.contains_iff_mem.mp hkey)
    exact find?_respell_of_forms_nil hforms hknown
  · rw [withoutCamel, find?_leaveOut, if_pos hkey]

/-- The window of an old project is that of a canvas without the keys in camel case. -/
theorem canvasWindow_respelled (p : Fields) (elements : List Element) :
    canvasWindow (respelled p) elements = canvasWindow (withoutCamel p) elements := by
  obtain ⟨hwidth, hwidth'⟩ := find?_camel "canvasWidth" (by decide) p
  obtain ⟨hheight, hheight'⟩ := find?_camel "canvasHeight" (by decide) p
  obtain ⟨hcolor, hcolor'⟩ := find?_camel "backgroundColor" (by decide) p
  have hcanvas : find? (respelled p) "canvas" = (find? p "canvas").map (onObject respelledCanvas) :=
    find?_respelled "canvas" (by decide) p
  have hcanvas' : find? (withoutCamel p) "canvas"
      = (find? p "canvas").map (onObject canvasWithoutCamel) := find?_withoutCamel "canvas" (by decide) p
  simp only [canvasWindow, findOr, hwidth, hwidth', hheight, hheight', hcolor, hcolor', hcanvas,
    hcanvas']
  cases find? p "canvas" with
  | none => rfl
  | some v =>
    cases v with
    | object c =>
      simp only [Option.map_some, onObject, Option.getD_some,
        find?_respelledCanvas "width" (by decide),
        find?_respelledCanvas "height" (by decide),
        find?_respelledCanvas "backgroundColor" (by decide)]
    | _ => rfl

/-- **A project in snake case is read without the keys that are read in camel case only**: its
`projectName`, the size and colour of its canvas, and in its windows `gradientConfig` and
`colorStops`.  All other keys are read in either spelling. -/
theorem ofFields_respelled {p : Fields} (h : SpelledOnce p) :
    ofFields (respelled p) = ofFields (withoutCamel p) := by
  have helements := read_objects Element.ofFields
    (find?_respelled "elements" (by decide) p)
    (find?_withoutCamel "elements" (by decide) p)
    fun o _ => ofFields_respelledElement o
  have hwindows := read_objects Window.ofFields
    (find?_respelled "windows" (by decide) p)
    (find?_withoutCamel "windows" (by decide) p)
    fun o ho => ofFields_respelledWindow (h.windows o ho)
  have hlayers := read_objects Layer.ofFields
    (find?_respelled "layers" (by decide) p)
    (find?_withoutCamel "layers" (by decide) p)
    fun o _ => congrArg Layer.ofFields (congrFun respelledLayer_eq o)
  have hfonts := read_objects (fun f => .ok (FontAsset.ofFields f))
    (find?_respelled "fonts" (by decide) p)
    (find?_withoutCamel "fonts" (by decide) p)
    fun o ho => congrArg Except.ok (ofFields_respelledFont (h.fonts o ho))
  have hname : find? (respelled p) "name" = find? (withoutCamel p) "name" := by
    rw [find?_respelled "name" (by decide), find?_withoutCamel "name" (by decide)]
    rfl
  obtain ⟨hproject, hproject'⟩ := find?_camel "projectName" (by decide) p
  rw [ofFields_eq, ofFields_eq, helements, hwindows, hlayers, hfonts, either_eq, either_eq, hname,
    hproject, hproject']
  simp only [canvasWindow_respelled]

/-- A project with a knob in a window, none of whose keys is read in camel case only. -/
def knobProject : Fields :=
  [("name", .text "Synth"),
   ("elements", .list [.object [("type", .text "knob"), ("id", .text "k"), ("name", .text "Gain"),
     ("parameterId", .text "gain"), ("zIndex", .int 2)]]),
   ("windows", .list [.object [("id", .text "w"), ("backgroundColor", .text "#202020"),
     ("elementIds", .list [.text "k"])]])]

/-- A project that is read in either spelling. -/
theorem knobProject_respelled :
    SpelledOnce knobProject
      ∧ find? (respelled knobProject) "elements" = some (.list [.object [("type", .text "knob"),
          ("id", .text "k"), ("name", .text "Gain"), ("parameter_id", .text "gain"),
          ("z_index", .int 2)]])
      ∧ ofFields (respelled knobProject) = ofFields knobProject := by
  have honce : SpelledOnce knobProject := ⟨by decide, by decide⟩
  have hleft : withoutCamel knobProject = knobProject := by rfl
  refine ⟨honce, rfl, ?_⟩
  rw [ofFields_respelled honce, hleft]

/-- The project of an old canvas. -/
def canvasProject : Fields :=
  [("projectName", .text "Synth"), ("canvas", .object [("backgroundColor", .text "#202020")])]

/-- In snake case, an old project loses its name and the colour of its canvas. -/
theorem canvasProject_loses :
    SpelledOnce canvasProject
      ∧ ∃ s, ofFields canvasProject = .ok s ∧ ofFields (respelled canvasProject) ≠ .ok s := by
  refine ⟨⟨by decide, by decide⟩, _, rfl, ?_⟩
  intro h
  have hname := congrArg (fun r : Except Fault Project => r.toOption.map fun s => s.name.toText) h
  exact absurd hname (by decide)

end ControlSurface.Project
