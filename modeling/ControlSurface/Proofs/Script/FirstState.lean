/-
  ControlSurface.Proofs.Script.FirstState
  ───────────────────────────────────────
  The first state of an element, as its artifacts carry it: the custom properties of its rule, the
  fields of its configuration and the caption of its markup.  Rule and configuration compute the place
  of a value between its bounds in the same way, so both print the same number from 0 to 1; but the
  rule of loop points prints the fields as they are, and a caption shows the value as it is, also where
  it lies outside its bounds.

  Main results:
    * `properties_placed`, `config_stated` — each place in rule and configuration, kind by kind.
    * `rational?_settled` — the value that the place of a configuration stands for.
    * `first_state_agrees_iff` — rule and configuration agree for all kinds but loop points, for these
      exactly when both are at most half a unit of the last decimal outside 0 and 1, and a caption
      agrees exactly when the value lies between its bounds or is written like the nearer one.
-/
import ControlSurface.Markup.Element
import ControlSurface.Proofs.Markup.Kinds
import ControlSurface.Proofs.Readout.Place
import ControlSurface.Script.Binding
import ControlSurface.Stylesheet.Property

namespace ControlSurface.Script

open ControlSurface.Markup ControlSurface.Outcome ControlSurface.Stylesheet

/-! ## §1. Where places stand. -/

/-- A place of an element: the custom property and the field of the configuration that carry it, and
the value and bounds that it is computed from. -/
structure Stand where
  property : String
  field : String
  value : Value
  lo : Value
  hi : Value

/-- A place of the value of an element between its bounds. -/
def ownStand (e : Element) (property field source : String) : Stand :=
  ⟨property, field, e.get source, e.get "min", e.get "max"⟩

/-- A place of a field between 0 and 1. -/
def unitStand (e : Element) (property field source : String) : Stand :=
  ⟨property, field, e.get source, .int 0, .int 1⟩

/-- The places of an element. -/
def stands (e : Element) : List Stand :=
  match e.kind with
  | .knob | .steppedKnob | .centerDetentKnob | .dotIndicatorKnob | .arcSlider =>
    [ownStand e "--value" "value" "value", ownStand e "--value" "defaultValue" "value"]
  | .slider | .bipolarSlider | .notchedSlider | .crossfadeSlider | .meter =>
    [ownStand e "--value" "value" "value"]
  | .rangeSlider =>
    [ownStand e "--min-value" "minValue" "min_value",
     ownStand e "--max-value" "maxValue" "max_value"]
  | .gainReductionMeter =>
    [⟨"--value", "value", e.get "value", .int 0, e.get "max_reduction"⟩]
  | .xyPad => [unitStand e "--x" "x" "x_value", unitStand e "--y" "y" "y_value"]
  | .loopPoints =>
    [unitStand e "--loop-start" "start" "loop_start", unitStand e "--loop-end" "end" "loop_end"]
  | _ => []

/-- What the declarations of a property give. -/
def declared (ds : List Declaration) (property : String) : List (List String) :=
  (ds.filter (·.1 = property)).map (·.2)

/-- Whether declarations give a place, rounded to the decimals of a stylesheet. -/
def Placed (ds : List Declaration) (property : String) (value lo hi : Value) : Prop :=
  ∃ x, Readout.normalized value lo hi = .ok (.float x)
    ∧ declared ds property = [[Number.plainFloat 4 x]]

/-- Whether a configuration gives a place, rounded to the decimals of a state. -/
def Stated (c : Fields) (field : String) (value lo hi : Value) : Prop :=
  ∃ x, Readout.normalized value lo hi = .ok (.float x)
    ∧ Value.find? c field = some (.float (Number.roundTo stateDecimals x))

/-- Whether declarations and configuration give the same number from 0 to 1, each rounded to its own
decimals. -/
def OneState (ds : List Declaration) (c : Fields) (s : Stand) : Prop :=
  ∃ x q, Number.rational? x = some q ∧ 0 ≤ q ∧ q ≤ 1
    ∧ declared ds s.property = [[Number.plainFloat 4 x]]
    ∧ Value.find? c s.field = some (.float (Number.roundTo stateDecimals x))

theorem OneState.of_placed {ds : List Declaration} {c : Fields} {s : Stand}
    (hplaced : Placed ds s.property s.value s.lo s.hi)
    (hstated : Stated c s.field s.value s.lo s.hi) : OneState ds c s := by
  obtain ⟨x, hx, htext⟩ := hplaced
  obtain ⟨y, hy, hstate⟩ := hstated
  rw [hx] at hy
  cases hy
  obtain ⟨z, q, hz, hq, hlow, hhigh⟩ := Readout.normalized_unit hx
  cases hz
  exact ⟨x, q, hq, hlow, hhigh, htext, hstate⟩

/-! ## §2. The rule. -/

theorem declared_append (ds es : List Declaration) (property : String) :
    declared (ds ++ es) property = declared ds property ++ declared es property := by
  rw [declared, List.filter_append, List.map_append, declared, declared]

theorem declared_cons_ne {d : Declaration} {property : String} (h : d.1 ≠ property)
    (ds : List Declaration) : declared (d :: ds) property = declared ds property := by
  rw [declared, List.filter_cons_of_neg (by simpa using h), declared]

theorem declared_cons_eq {d : Declaration} {property : String} (h : d.1 = property)
    (ds : List Declaration) : declared (d :: ds) property = d.2 :: declared ds property := by
  rw [declared, List.filter_cons_of_pos (by simpa using h), List.map_cons, declared]

/-- The properties that places stand in. -/
def placeProperties : List String :=
  ["--value", "--min-value", "--max-value", "--x", "--y", "--loop-start", "--loop-end"]

/-- The fields that elements with places hand on as they are. -/
def handedOn : List String :=
  ["track_color", "fill_color", "indicator_color", "start_angle", "end_angle", "thumb_color",
   "thumb_width", "thumb_height", "center_color", "notch_color", "label_color", "label_font_size",
   "value_color", "value_font_size", "background_color", "font_size", "text_color", "cursor_color",
   "grid_color", "cursor_size", "region_color", "marker_color"]

/-- No field that is handed on has the name of a place. -/
theorem handedOn_apart : ∀ field ∈ handedOn, customName field ∉ placeProperties := by
  decide

/-- Declarations without a property. -/
def Lacks (property : String) (ds : List Declaration) : Prop := declared ds property = []

theorem lacks_of_names {property : String} {ds : List Declaration}
    (h : ∀ d ∈ ds, d.1 ≠ property) : Lacks property ds := by
  have hnone : ds.filter (·.1 = property) = [] :=
    List.filter_eq_nil_iff.mpr fun d hd => by simpa using h d hd
  rw [Lacks, declared, hnone, List.map_nil]

theorem Lacks.append {property : String} {ds es : List Declaration} (hd : Lacks property ds)
    (he : Lacks property es) : Lacks property (ds ++ es) := by
  rw [Lacks, declared_append, hd, he, List.nil_append]

section Rules

variable {property : String} {ds es : List Declaration} {value lo hi : Value}

theorem Placed.after (hes : Placed es property value lo hi) (hds : Lacks property ds) :
    Placed (ds ++ es) property value lo hi := by
  obtain ⟨x, hx, htext⟩ := hes
  exact ⟨x, hx, by rw [declared_append, hds, htext, List.nil_append]⟩

theorem Placed.before (hds : Placed ds property value lo hi) (hes : Lacks property es) :
    Placed (ds ++ es) property value lo hi := by
  obtain ⟨x, hx, htext⟩ := hds
  exact ⟨x, hx, by rw [declared_append, htext, hes, List.append_nil]⟩

/-- A declaration that hands on a field of an element. -/
def HandsOn (e : Element) (field : String) (d : Declaration) : Prop :=
  ∃ text, fieldText field (e.get field) = .ok text ∧ d = (customName field, [text])

theorem fieldsOf_handsOn (e : Element) (names : List String) :
    Ensures (List.Forall₂ (HandsOn e) names) (fieldsOf e names) := by
  intro ds hds
  refine ((mapM_eq_ok_iff _ _ _).mp hds).imp fun field d hd => ?_
  obtain ⟨text, htext, hd⟩ := (bind_eq_ok_iff _ _ _).mp hd
  exact ⟨text, htext, (Except.ok.inj hd).symm⟩

theorem lacks_of_handsOn {e : Element} {names : List String} (hnames : names ⊆ handedOn)
    (hproperty : property ∈ placeProperties) (hds : List.Forall₂ (HandsOn e) names ds) :
    Lacks property ds := by
  induction hds with
  | nil => rfl
  | cons hd _ ih =>
    obtain ⟨hfield, hrest⟩ := List.cons_subset.mp hnames
    obtain ⟨text, -, rfl⟩ := hd
    rw [Lacks, declared_cons_ne, ih hrest]
    rintro rfl
    exact handedOn_apart _ hfield hproperty

theorem fieldsOf_lacks (e : Element) {names : List String} (hnames : names ⊆ handedOn)
    (hproperty : property ∈ placeProperties) : Ensures (Lacks property) (fieldsOf e names) :=
  fun ds hds => lacks_of_handsOn hnames hproperty (fieldsOf_handsOn e names ds hds)

theorem captionFields_subset (e : Element) : captionFields e ⊆ handedOn := by
  rw [captionFields]
  split
  · decide
  · exact List.nil_subset _

theorem plain_float (x : Float) : (Value.float x).plain = .ok (Number.plainFloat 4 x) := by
  have hplaces : (Value.int Value.defaultPlaces).places = .ok 4 := by decide
  have hfixed : (Value.float x).fixed (.int Value.defaultPlaces)
      = .ok (String.ofList (Number.fixed 4 x)) := by
    show (do let n ← (Value.int Value.defaultPlaces).places; _) = _
    rw [hplaces]
    rfl
  show (do let s ← (Value.float x).fixed (.int Value.defaultPlaces); _) = _
  rw [hfixed, ok_bind, String.toList_ofList]
  rfl

/-- A place is printed with the decimals of a stylesheet. -/
theorem placeOf_eq (name : String) :
    Ensures (fun ds => ∃ x, Readout.normalized value lo hi = .ok (.float x)
      ∧ ds = [custom name (Number.plainFloat 4 x)]) (placeOf name value lo hi) := by
  intro ds hds
  obtain ⟨place, hplace, hds⟩ := (bind_eq_ok_iff _ _ _).mp hds
  obtain ⟨x, q, rfl, -⟩ := Readout.normalized_unit hplace
  rw [plain_float, ok_bind] at hds
  exact ⟨x, hplace, (Except.ok.inj hds).symm⟩

theorem placeOf_placed (name : String) :
    Ensures (fun ds => Placed ds ("--" ++ name) value lo hi) (placeOf name value lo hi) := by
  intro ds hds
  obtain ⟨x, hx, rfl⟩ := placeOf_eq name ds hds
  refine ⟨x, hx, ?_⟩
  simp [declared, custom]

theorem placeOf_lacks {name : String} (h : "--" ++ name ≠ property) :
    Ensures (Lacks property) (placeOf name value lo hi) := by
  intro ds hds
  obtain ⟨x, -, rfl⟩ := placeOf_eq name ds hds
  refine lacks_of_names fun d hd => ?_
  rw [List.mem_singleton.mp hd]
  exact h

end Rules

theorem rotary_placed (e : Element) :
    Ensures (fun ds => Placed ds "--value" (e.get "value") (e.get "min") (e.get "max"))
      (Stylesheet.rotary e) := by
  have hvalue : "--value" ∈ placeProperties := by decide
  have hthumb : (if e.kind = .arcSlider then ["thumb_color"] else []) ⊆ handedOn := by
    split <;> decide
  refine ensures_bind (fieldsOf_lacks e (by decide) hvalue) fun own hown => ?_
  refine ensures_bind (placeOf_placed "value") fun place hplace => ?_
  refine ensures_bind (fieldsOf_lacks e hthumb hvalue) fun thumb hthumb => ?_
  refine ensures_bind (fieldsOf_lacks e (captionFields_subset e) hvalue) fun captions hcaptions => ?_
  exact ensures_ok (((hplace.after hown).before hthumb).before hcaptions)

/-- What a slider adds after its place has another name. -/
theorem linear_tail_lacks (e : Element) {property : String} (h : property ∈ placeProperties)
    (placed : List Declaration) {center : List Declaration} (hcenter : Lacks property center) :
    Ensures (fun ds => ∃ rest, ds = placed ++ rest ∧ Lacks property rest) (do
      let notches ← fieldsOf e (if e.kind = .notchedSlider then ["notch_color"] else [])
      let labels : List String := ["label_color", "label_font_size"]
      let captions ←
        if e.kind = .crossfadeSlider then
          fieldsOf e (labels ++ (captionFields e).filter fun f => !labels.contains f)
        else fieldsOf e (captionFields e)
      .ok (placed ++ center ++ notches ++ captions)) := by
  have hnotches : (if e.kind = .notchedSlider then ["notch_color"] else []) ⊆ handedOn := by
    split <;> decide
  have hlabels (p : String → Bool) :
      ["label_color", "label_font_size"] ++ (captionFields e).filter p ⊆ handedOn :=
    List.append_subset.mpr ⟨by decide, fun f hf =>
      captionFields_subset e (List.mem_of_mem_filter hf)⟩
  refine ensures_bind (fieldsOf_lacks e hnotches h) fun notches hn => ?_
  dsimp only
  split
  · refine ensures_bind (fieldsOf_lacks e (hlabels _) h) fun captions hc => ensures_ok ?_
    exact ⟨_, by rw [List.append_assoc, List.append_assoc], hcenter.append (hn.append hc)⟩
  · refine ensures_bind (fieldsOf_lacks e (captionFields_subset e) h) fun captions hc =>
      ensures_ok ?_
    exact ⟨_, by rw [List.append_assoc, List.append_assoc], hcenter.append (hn.append hc)⟩

theorem linear_placed (e : Element) :
    Ensures (fun ds => Placed ds "--value" (e.get "value") (e.get "min") (e.get "max"))
      (Stylesheet.linear e) := by
  have hvalue : "--value" ∈ placeProperties := by decide
  have hcenter : "--" ++ "center" ≠ "--value" := by decide
  refine ensures_bind (fieldsOf_lacks e (by decide) hvalue) fun own hown => ?_
  refine ensures_bind (placeOf_placed "value") fun place hplace => ?_
  have hhead := hplace.after hown
  dsimp only
  split
  · refine ensures_bind (placeOf_lacks hcenter) fun middle hmiddle => ?_
    refine ensures_bind (fieldsOf_lacks e (by decide) hvalue) fun color hcolor => ?_
    intro ds hds
    obtain ⟨rest, rfl, hrest⟩ :=
      linear_tail_lacks e hvalue (own ++ place) (hmiddle.append hcolor) ds hds
    exact hhead.before hrest
  · intro ds hds
    obtain ⟨rest, rfl, hrest⟩ := linear_tail_lacks e hvalue (own ++ place)
      (rfl : Lacks "--value" []) ds hds
    exact hhead.before hrest

theorem range_placed (e : Element) :
    Ensures (fun ds =>
      Placed ds "--min-value" (e.get "min_value") (e.get "min") (e.get "max")
        ∧ Placed ds "--max-value" (e.get "max_value") (e.get "min") (e.get "max"))
      (Stylesheet.range e) := by
  have hlow : "--min-value" ∈ placeProperties := by decide
  have hhigh : "--max-value" ∈ placeProperties := by decide
  intro ds hds
  obtain ⟨own, hown, hds⟩ := (bind_eq_ok_iff _ _ _).mp hds
  obtain ⟨low, hlowPlace, hds⟩ := (bind_eq_ok_iff _ _ _).mp hds
  obtain ⟨high, hhighPlace, hds⟩ := (bind_eq_ok_iff _ _ _).mp hds
  obtain ⟨captions, hcaptions, hds⟩ := (bind_eq_ok_iff _ _ _).mp hds
  cases hds
  have hcaptionsLack {property : String} (h : property ∈ placeProperties) :=
    fieldsOf_lacks e (captionFields_subset e) h captions hcaptions
  constructor
  · exact (((placeOf_placed "min-value" low hlowPlace).after
      (fieldsOf_lacks e (by decide) hlow own hown)).before
      (placeOf_lacks (by decide) high hhighPlace)).before (hcaptionsLack hlow)
  · exact ((placeOf_placed "max-value" high hhighPlace).after
      ((fieldsOf_lacks e (by decide) hhigh own hown).append
        (placeOf_lacks (by decide) low hlowPlace))).before (hcaptionsLack hhigh)

theorem meter_placed (e : Element) :
    Ensures (fun ds => Placed ds "--value" (e.get "value") (e.get "min") (e.get "max"))
      (Stylesheet.meter e) := by
  have hvalue : "--value" ∈ placeProperties := by decide
  have hgradient : "--" ++ "meter-gradient" ≠ "--value" := by decide
  refine ensures_after fun stops => ensures_after fun gradient => ?_
  refine ensures_bind (placeOf_placed "value") fun place hplace => ?_
  refine ensures_bind (fieldsOf_lacks e (by decide) hvalue) fun own hown => ensures_ok ?_
  obtain ⟨x, hx, htext⟩ := hplace.before hown
  exact ⟨x, hx, by rw [← htext]; exact declared_cons_ne hgradient _⟩

theorem reductionMeter_placed (e : Element) :
    Ensures (fun ds => Placed ds "--value" (e.get "value") (.int 0) (e.get "max_reduction"))
      (Stylesheet.reductionMeter e) := by
  have hvalue : "--value" ∈ placeProperties := by decide
  have hgradient : "--" ++ "meter-gradient" ≠ "--value" := by decide
  refine ensures_bind (placeOf_placed "value") fun place hplace => ?_
  refine ensures_bind (fieldsOf_lacks e (by decide) hvalue) fun own hown => ensures_ok ?_
  obtain ⟨x, hx, htext⟩ := hplace.before hown
  exact ⟨x, hx, by rw [← htext]; exact declared_cons_ne hgradient _⟩

theorem xyPad_placed (e : Element) :
    Ensures (fun ds => Placed ds "--x" (e.get "x_value") (.int 0) (.int 1)
        ∧ Placed ds "--y" (e.get "y_value") (.int 0) (.int 1)) (Stylesheet.xyPad e) := by
  have hx : "--x" ∈ placeProperties := by decide
  have hy : "--y" ∈ placeProperties := by decide
  intro ds hds
  obtain ⟨x, hxPlace, hds⟩ := (bind_eq_ok_iff _ _ _).mp hds
  obtain ⟨y, hyPlace, hds⟩ := (bind_eq_ok_iff _ _ _).mp hds
  obtain ⟨own, hown, hds⟩ := (bind_eq_ok_iff _ _ _).mp hds
  cases hds
  constructor
  · exact ((placeOf_placed "x" x hxPlace).before (placeOf_lacks (by decide) y hyPlace)).before
      (fieldsOf_lacks e (by decide) hx own hown)
  · exact ((placeOf_placed "y" y hyPlace).after (placeOf_lacks (by decide) x hxPlace)).before
      (fieldsOf_lacks e (by decide) hy own hown)

/-- **The rule of an element gives its places**, for every kind but loop points. -/
theorem properties_placed {e : Element} (hkind : e.kind ≠ .loopPoints) :
    Ensures (fun ds => ∀ s ∈ stands e, Placed ds s.property s.value s.lo s.hi)
      (properties e) := by
  have hrotary := rotary_placed e
  have hlinear := linear_placed e
  rw [properties, stands]
  cases hk : e.kind
  case loopPoints => exact absurd hk hkind
  case knob | steppedKnob | centerDetentKnob | dotIndicatorKnob | arcSlider =>
    exact fun ds hds => List.forall_mem_cons.mpr ⟨hrotary ds hds,
      List.forall_mem_singleton.mpr (hrotary ds hds)⟩
  case slider | bipolarSlider | notchedSlider | crossfadeSlider =>
    exact fun ds hds => List.forall_mem_singleton.mpr (hlinear ds hds)
  case rangeSlider =>
    exact fun ds hds => List.forall_mem_cons.mpr ⟨(range_placed e ds hds).1,
      List.forall_mem_singleton.mpr (range_placed e ds hds).2⟩
  case meter => exact fun ds hds => List.forall_mem_singleton.mpr (meter_placed e ds hds)
  case gainReductionMeter =>
    exact fun ds hds => List.forall_mem_singleton.mpr (reductionMeter_placed e ds hds)
  case xyPad =>
    exact fun ds hds => List.forall_mem_cons.mpr ⟨(xyPad_placed e ds hds).1,
      List.forall_mem_singleton.mpr (xyPad_placed e ds hds).2⟩
  all_goals exact fun ds _ s hs => absurd hs List.not_mem_nil

/-- The rule of loop points prints their fields as they are. -/
theorem loopPoints_declared {e : Element} (hkind : e.kind = .loopPoints) :
    Ensures (fun ds => ∃ start stop,
        fieldText "loop_start" (e.get "loop_start") = .ok start
          ∧ fieldText "loop_end" (e.get "loop_end") = .ok stop
          ∧ declared ds "--loop-start" = [[start]] ∧ declared ds "--loop-end" = [[stop]])
      (properties e) := by
  have hstartName : customName "loop_start" = "--loop-start" := by decide
  have hstopName : customName "loop_end" = "--loop-end" := by decide
  have hstartOnly : customName "loop_start" ≠ "--loop-end" := by decide
  have hstopOnly : customName "loop_end" ≠ "--loop-start" := by decide
  intro ds hds
  rw [properties, hkind] at hds
  have hall := fieldsOf_handsOn e
    ["loop_start", "loop_end", "background_color", "region_color", "marker_color"] ds hds
  -- the first two of the fields are the places, the others have names of their own
  cases hall with
  | cons hstart hall =>
  cases hall with
  | cons hstop hrest =>
  obtain ⟨start, hstart, rfl⟩ := hstart
  obtain ⟨stop, hstop, rfl⟩ := hstop
  refine ⟨start, stop, hstart, hstop, ?_, ?_⟩
  · rw [declared_cons_eq hstartName, declared_cons_ne hstopOnly,
      lacks_of_handsOn (by decide) (by decide) hrest]
  · rw [declared_cons_ne hstartOnly, declared_cons_eq hstopName,
      lacks_of_handsOn (by decide) (by decide) hrest]

/-- The names that the placement of an element uses. -/
def placementNames : List String := ["left", "top", "width", "height", "transform", "z-index"]

/-- The placement of an element has no place. -/
theorem placement_lacks (e : Element) {property : String} (h : property ∈ placeProperties) :
    Ensures (Lacks property) (placement e) := by
  have hapart : ∀ name ∈ placementNames, name ∉ placeProperties := by decide
  have hnames {ds : List Declaration} (hds : ∀ d ∈ ds, d.1 ∈ placementNames) :
      Lacks property ds := by
    refine lacks_of_names fun d hd => ?_
    rintro rfl
    exact hapart _ (hds d hd) h
  have hbox (box : List (List String)) :
      ∀ d ∈ ["left", "top", "width", "height"].zip box, d.1 ∈ placementNames := by
    have hfour : ["left", "top", "width", "height"] ⊆ placementNames := by decide
    exact fun d hd => hfour (List.of_mem_zip hd).1
  have hheight : ∀ d ∈ (if e.zIndex.truthy then [("z-index", [e.zIndex.toText])] else []),
      d.1 ∈ placementNames := by
    split <;> simp [placementNames]
  refine ensures_after fun box => ?_
  dsimp only
  split
  · refine ensures_after fun angle => ensures_ok ?_
    exact ((hnames (hbox _)).append (hnames (by simp [placementNames]))).append (hnames hheight)
  · have hnone : Lacks property [] := rfl
    exact ensures_ok (((hnames (hbox _)).append hnone).append (hnames hheight))

/-- What the rule of an element declares of its places is what its properties do. -/
theorem elementRule_declared {e : Element} {r : Rule} (h : elementRule e = .ok r) :
    ∃ ds, properties e = .ok ds ∧ ∀ property ∈ placeProperties,
      declared r.declarations property = declared ds property := by
  obtain ⟨placed, hplaced, h⟩ := (bind_eq_ok_iff _ _ _).mp h
  obtain ⟨ds, hds, h⟩ := (bind_eq_ok_iff _ _ _).mp h
  obtain ⟨domId, -, h⟩ := (bind_eq_ok_iff _ _ _).mp h
  cases h
  refine ⟨ds, hds, fun property hproperty => ?_⟩
  show declared (placed ++ ds) property = _
  rw [declared_append, placement_lacks e hproperty placed hplaced, List.nil_append]

/-! ## §3. The configuration. -/

theorem state_eq {value lo hi : Value} :
    Ensures (fun v => ∃ x, Readout.normalized value lo hi = .ok (.float x)
      ∧ v = .float (Number.roundTo stateDecimals x)) (state value lo hi) := by
  intro v hv
  obtain ⟨place, hplace, hv⟩ := (bind_eq_ok_iff _ _ _).mp hv
  obtain ⟨x, q, rfl, -⟩ := Readout.normalized_unit hplace
  exact ⟨x, hplace, (Except.ok.inj hv).symm⟩

theorem Stated.of_state {c : Fields} {field : String} {value lo hi v : Value}
    (hv : ∃ x, Readout.normalized value lo hi = .ok (.float x)
      ∧ v = .float (Number.roundTo stateDecimals x))
    (hfield : Value.find? c field = some v) : Stated c field value lo hi := by
  obtain ⟨x, hx, rfl⟩ := hv
  exact ⟨x, hx, hfield⟩

theorem rotary_stated (e : Element) :
    Ensures (fun c => Stated c "value" (e.get "value") (e.get "min") (e.get "max")
        ∧ Stated c "defaultValue" (e.get "value") (e.get "min") (e.get "max")) (rotary e) := by
  refine ensures_bind state_eq fun value hvalue => ?_
  refine ensures_after fun size => ensures_ok ?_
  exact ⟨.of_state hvalue rfl, .of_state hvalue rfl⟩

theorem linear_stated (e : Element) :
    Ensures (fun c => Stated c "value" (e.get "value") (e.get "min") (e.get "max")) (linear e) := by
  refine ensures_bind state_eq fun value hvalue => ensures_ok ?_
  exact .of_state hvalue rfl

theorem range_stated (e : Element) :
    Ensures (fun c => Stated c "minValue" (e.get "min_value") (e.get "min") (e.get "max")
        ∧ Stated c "maxValue" (e.get "max_value") (e.get "min") (e.get "max")) (range e) := by
  refine ensures_bind state_eq fun low hlow => ?_
  refine ensures_bind state_eq fun high hhigh => ensures_ok ?_
  exact ⟨.of_state hlow rfl, .of_state hhigh rfl⟩

theorem xyPad_stated (e : Element) (parameter : String) :
    Ensures (fun c => Stated c "x" (e.get "x_value") (.int 0) (.int 1)
        ∧ Stated c "y" (e.get "y_value") (.int 0) (.int 1)) (xyPad e parameter) := by
  refine ensures_bind state_eq fun x hx => ?_
  refine ensures_bind state_eq fun y hy => ensures_ok ?_
  exact ⟨.of_state hx rfl, .of_state hy rfl⟩

/-- A configuration that there is. -/
theorem ensures_some {P : Fields → Prop} {x : Except Fault Fields} (hx : Ensures P x) :
    Ensures (fun o => ∀ c ∈ o, P c) (some <$> x) := by
  intro o ho
  cases x with
  | ok d =>
    cases ho
    exact fun c hc => Option.some.inj hc ▸ hx d rfl
  | error => cases ho

/-- **The configuration of an element gives its places**, for every kind. -/
theorem config_stated (e : Element) :
    Ensures (fun o => ∀ c ∈ o, ∀ s ∈ stands e, Stated c s.field s.value s.lo s.hi) (config e) := by
  rw [config, stands]
  cases hk : e.kind
  case knob | steppedKnob | centerDetentKnob | dotIndicatorKnob | arcSlider =>
    refine fun o ho c hc => List.forall_mem_cons.mpr ?_
    have hboth := ensures_some (rotary_stated e) o ho c hc
    exact ⟨hboth.1, List.forall_mem_singleton.mpr hboth.2⟩
  case slider | bipolarSlider | notchedSlider | crossfadeSlider =>
    refine fun o ho c hc => List.forall_mem_singleton.mpr ?_
    exact ensures_some (linear_stated e) o ho c hc
  case rangeSlider =>
    refine fun o ho c hc => List.forall_mem_cons.mpr ?_
    have hboth := ensures_some (range_stated e) o ho c hc
    exact ⟨hboth.1, List.forall_mem_singleton.mpr hboth.2⟩
  case meter | gainReductionMeter =>
    refine ensures_bind state_eq fun value hvalue => ensures_ok ?_
    rintro c ⟨⟩
    exact List.forall_mem_singleton.mpr (.of_state hvalue rfl)
  case xyPad =>
    refine ensures_after fun parameter o ho c hc => List.forall_mem_cons.mpr ?_
    have hboth := ensures_some (xyPad_stated e parameter) o ho c hc
    exact ⟨hboth.1, List.forall_mem_singleton.mpr hboth.2⟩
  case loopPoints =>
    refine ensures_bind state_eq fun start hstart => ?_
    refine ensures_bind state_eq fun stop hstop => ensures_ok ?_
    rintro c ⟨⟩
    exact List.forall_mem_cons.mpr
      ⟨.of_state hstart rfl, List.forall_mem_singleton.mpr (.of_state hstop rfl)⟩
  all_goals exact fun o _ c _ s hs => absurd hs List.not_mem_nil

/-! ## §4. Rule and configuration. -/

theorem stands_property (e : Element) : ∀ s ∈ stands e, s.property ∈ placeProperties := by
  rw [stands]
  cases e.kind <;> simp [ownStand, unitStand, placeProperties]

/-- **Rule and configuration carry one state**, for every kind but loop points. -/
theorem oneState_of_places {e : Element} {r : Rule} {c : Fields} (hrule : elementRule e = .ok r)
    (hconfig : config e = .ok (some c)) (hkind : e.kind ≠ .loopPoints) :
    ∀ s ∈ stands e, OneState r.declarations c s := by
  intro s hs
  obtain ⟨ds, hds, hdeclared⟩ := elementRule_declared hrule
  obtain ⟨x, hx, htext⟩ := properties_placed hkind ds hds s hs
  refine .of_placed ⟨x, hx, ?_⟩ (config_stated e _ hconfig c rfl s hs)
  rw [hdeclared s.property (stands_property e s hs), htext]

/-- Whether a number is at most half a unit of the last decimal of a stylesheet outside 0 and 1. -/
def NearUnit (q : ℚ) : Prop := -(1 / 20000) ≤ q ∧ q ≤ 20001 / 20000

/-- A place is that of the number that a value is. -/
theorem normalized_congr {v w : Value} (h : v.num = w.num) (lo hi : Value) :
    Readout.normalized v lo hi = Readout.normalized w lo hi := by
  rw [Readout.normalized, Readout.normalized, h]

section LoopPoints

variable {field text : String} {v : Value} {q : ℚ}

/-- A finite number is printed as it is, where it is no length and no angle. -/
theorem fieldText_cases (hunit : unitOf field = "") (hq : v.rational? = some q)
    (htext : fieldText field v = .ok text) :
    (∃ i : ℤ, q = i ∧ text = toString i ∧ v.num = .ok (.int i))
      ∨ ∃ x, Number.rational? x = some q ∧ text = Number.plainFloat 4 x ∧ v = .float x := by
  cases v with
  | bool b =>
    refine Or.inl ⟨if b then 1 else 0, (Option.some.inj hq).symm, ?_, rfl⟩
    rw [← Except.ok.inj htext]
    cases b <;> rfl
  | int i =>
    refine Or.inl ⟨i, (Option.some.inj hq).symm, ?_, rfl⟩
    rw [fieldText, hunit] at htext
    rw [← Except.ok.inj htext, String.append_empty]
  | float x =>
    refine Or.inr ⟨x, hq, ?_, rfl⟩
    rw [fieldText, hunit, plain_float, ok_bind] at htext
    rw [← Except.ok.inj htext, String.append_empty]
  | null => cases hq
  | text s => cases hq
  | list items => cases hq
  | object fields => cases hq

/-- The text of a number writes a number near it. -/
theorem fieldText_near (hunit : unitOf field = "") (hq : v.rational? = some q)
    (htext : fieldText field v = .ok text) :
    |Number.decimal text.toList - q| ≤ 1 / 20000 := by
  rcases fieldText_cases hunit hq htext with ⟨i, rfl, rfl, -⟩ | ⟨x, hx, rfl, -⟩
  · rw [Number.decimal_toString, sub_self, abs_zero]
    norm_num
  · have hnear := Number.decimal_plainFloat_near (by decide : 0 < 4) hx
    norm_num at hnear ⊢
    exact hnear

/-- The text of a number near 0 to 1 is that of its place there. -/
theorem fieldText_place (hunit : unitOf field = "") (hq : v.rational? = some q)
    (htext : fieldText field v = .ok text) (hnear : NearUnit q) {x : Float}
    (hplace : Readout.normalized v (.int 0) (.int 1) = .ok (.float x)) :
    text = Number.plainFloat 4 x := by
  rcases fieldText_cases hunit hq htext with ⟨i, rfl, rfl, hnum⟩ | ⟨y, hy, rfl, rfl⟩
  · have hwhole : i = 0 ∨ i = 1 := by
      have hlow : (-1 : ℚ) < i := by linarith [hnear.1]
      have hhigh : (i : ℚ) < 2 := by linarith [hnear.2]
      have : -1 < i := by exact_mod_cast hlow
      have : i < 2 := by exact_mod_cast hhigh
      omega
    rcases hwhole with rfl | rfl
    · rw [normalized_congr (w := .int 0) hnum, Readout.normalized_whole.1] at hplace
      cases hplace
      decide +kernel
    · rw [normalized_congr (w := .int 1) hnum, Readout.normalized_whole.2] at hplace
      cases hplace
      decide
  · rw [Readout.normalized_double hy] at hplace
    cases hplace
    exact (Readout.plainFloat_kept hy hnear.1 hnear.2).symm

/-- **A place that is printed as its field is agrees with the configuration** exactly when the field
is near 0 to 1. -/
theorem oneState_unit_iff {ds : List Declaration} {c : Fields} {s : Stand}
    (hunit : unitOf field = "") (hq : v.rational? = some q) (htext : fieldText field v = .ok text)
    (hdeclared : declared ds s.property = [[text]])
    (hstated : Stated c s.field v (.int 0) (.int 1)) : OneState ds c s ↔ NearUnit q := by
  obtain ⟨x, hx, hstate⟩ := hstated
  constructor
  · rintro ⟨y, r, hy, hlow, hhigh, hplain, -⟩
    have hsame : text = Number.plainFloat 4 y := by
      rw [hdeclared] at hplain
      simpa using hplain
    have hinside := Readout.decimal_unit hy hlow hhigh
    have hnear := abs_le.mp (fieldText_near hunit hq htext)
    rw [hsame] at hnear
    constructor <;> linarith
  · intro hnear
    obtain ⟨z, r, hz, hr, hlow, hhigh⟩ := Readout.normalized_unit hx
    cases hz
    refine ⟨x, r, hr, hlow, hhigh, ?_, hstate⟩
    rw [hdeclared, fieldText_place hunit hq htext hnear hx]

end LoopPoints

/-- **Loop points carry one state** exactly when both are near 0 to 1. -/
theorem loopPoints_oneState_iff {e : Element} {r : Rule} {c : Fields}
    (hrule : elementRule e = .ok r) (hconfig : config e = .ok (some c))
    (hkind : e.kind = .loopPoints) {start stop : ℚ}
    (hstart : (e.get "loop_start").rational? = some start)
    (hstop : (e.get "loop_end").rational? = some stop) :
    (∀ s ∈ stands e, OneState r.declarations c s) ↔ NearUnit start ∧ NearUnit stop := by
  obtain ⟨ds, hds, hdeclared⟩ := elementRule_declared hrule
  obtain ⟨first, second, hfirst, hsecond, hfirstDeclared, hsecondDeclared⟩ :=
    loopPoints_declared hkind ds hds
  have hstands : stands e = [unitStand e "--loop-start" "start" "loop_start",
      unitStand e "--loop-end" "end" "loop_end"] := by rw [stands, hkind]
  have hstated := config_stated e _ hconfig c rfl
  rw [hstands, List.forall_mem_cons, List.forall_mem_singleton] at hstated ⊢
  rw [← hdeclared _ (by decide)] at hfirstDeclared hsecondDeclared
  exact and_congr
    (oneState_unit_iff (by decide) hstart hfirst hfirstDeclared hstated.1)
    (oneState_unit_iff (by decide) hstop hsecond hsecondDeclared hstated.2)

/-! ## §5. Captions. -/

/-- The place of a number between two bounds, exactly; one half if the bounds are equal. -/
def exactPlace (v l h : ℚ) : ℚ := if h = l then 1 / 2 else min 1 (max 0 ((v - l) / (h - l)))

/-- Whether a number lies between two bounds, in whichever order they are. -/
def Between (v l h : ℚ) : Prop := (l ≤ v ∧ v ≤ h) ∨ (h ≤ v ∧ v ≤ l)

instance (v l h : ℚ) : Decidable (Between v l h) := inferInstanceAs (Decidable (_ ∨ _))

/-- The bound that is nearer to a number. -/
def nearerBound (lo hi : Value) (v l h : ℚ) : Value := if |v - l| ≤ |v - h| then lo else hi

/-- A value where it lies between its bounds, and the nearer bound elsewhere. -/
def settled (value lo hi : Value) (v l h : ℚ) : Value :=
  if Between v l h then value else nearerBound lo hi v l h

/-- A number is as far along between two different bounds as its share of their distance says. -/
theorem between_iff {l h : ℚ} (hne : h ≠ l) (t : ℚ) :
    Between (l + t * (h - l)) l h ↔ 0 ≤ t ∧ t ≤ 1 := by
  rw [Between]
  rcases lt_or_gt_of_ne hne with hlt | hgt
  · constructor
    · rintro (⟨hlow, hhigh⟩ | ⟨hlow, hhigh⟩) <;> constructor <;> nlinarith
    · rintro ⟨hlow, hhigh⟩
      exact Or.inr ⟨by nlinarith, by nlinarith⟩
  · constructor
    · rintro (⟨hlow, hhigh⟩ | ⟨hlow, hhigh⟩) <;> constructor <;> nlinarith
    · rintro ⟨hlow, hhigh⟩
      exact Or.inl ⟨by nlinarith, by nlinarith⟩

/-- The lower end is the nearer one in the lower half. -/
theorem nearer_iff {l h : ℚ} (hne : h ≠ l) (t : ℚ) :
    |l + t * (h - l) - l| ≤ |l + t * (h - l) - h| ↔ |t| ≤ |t - 1| := by
  have hpos : 0 < |h - l| := abs_pos.mpr (sub_ne_zero.mpr hne)
  have hlow : l + t * (h - l) - l = t * (h - l) := by ring
  have hhigh : l + t * (h - l) - h = (t - 1) * (h - l) := by ring
  rw [hlow, hhigh, abs_mul, abs_mul, mul_le_mul_iff_of_pos_right hpos]

/-- What a place stands for: the number itself between its bounds, and elsewhere the nearer bound. -/
theorem exactPlace_stands (v l h : ℚ) :
    l + exactPlace v l h * (h - l)
      = if Between v l h then v else if |v - l| ≤ |v - h| then l else h := by
  rcases eq_or_ne h l with rfl | hne
  · have hbetween : Between v h h → v = h := by
      rintro (⟨hlow, hhigh⟩ | ⟨hlow, hhigh⟩) <;> linarith
    rw [sub_self, mul_zero, add_zero]
    split_ifs with hv hnearer
    · exact (hbetween hv).symm
    · rfl
    · exact absurd le_rfl hnearer
  · obtain ⟨t, rfl⟩ : ∃ t, v = l + t * (h - l) :=
      ⟨(v - l) / (h - l), by rw [div_mul_cancel₀ _ (sub_ne_zero.mpr hne)]; ring⟩
    have hshare : (l + t * (h - l) - l) / (h - l) = t := by
      rw [add_sub_cancel_left, mul_div_cancel_right₀ _ (sub_ne_zero.mpr hne)]
    simp only [exactPlace, if_neg hne, hshare, between_iff hne, nearer_iff hne]
    rcases lt_or_ge t 0 with hlow | hlow
    · rw [max_eq_left hlow.le, min_eq_right zero_le_one, if_neg (by simp [hlow]), abs_of_neg hlow,
        abs_of_neg (by linarith), if_pos (by linarith)]
      ring
    rcases le_or_gt t 1 with hhigh | hhigh
    · rw [max_eq_right hlow, min_eq_right hhigh, if_pos ⟨hlow, hhigh⟩]
    · rw [max_eq_right hlow, min_eq_left hhigh.le, if_neg (by simp [hhigh]), abs_of_nonneg hlow,
        abs_of_pos (by linarith), if_neg (by linarith)]
      ring

/-- **The place of a value stands for what is settled**: the value between its bounds, and elsewhere
the nearer bound. -/
theorem rational?_settled {value lo hi : Value} {v l h : ℚ} (hv : value.rational? = some v)
    (hl : lo.rational? = some l) (hh : hi.rational? = some h) :
    (settled value lo hi v l h).rational? = some (l + exactPlace v l h * (h - l)) := by
  rw [exactPlace_stands, settled, nearerBound]
  split_ifs
  · exact hv
  · exact hl
  · exact hh

/-- The text of the last part of a node. -/
def lastText? : Node → Option String
  | .element _ _ body =>
    match body.getLast? with
    | some (.element _ _ [.text t]) => some t
    | _ => none
  | _ => none

/-- The caption of an element with a value. -/
def captionOf (e : Element) (value : Value) : Except Fault String :=
  Readout.format value (e.get "min") (e.get "max") (e.get "value_format")
    (e.get "value_decimal_places") (e.get "value_suffix")

/-- The captions of a control end in that of its value, if it is shown. -/
theorem captions_value {e : Element} (hshown : e.flag "show_value" = true) (group : String) :
    Ensures (fun nodes => ∃ before cssClass t, captionOf e (e.get "value") = .ok t
        ∧ nodes = before ++ [part "span" cssClass [.text t]]) (captions e group) := by
  intro nodes hnodes
  rw [captions] at hnodes
  dsimp only at hnodes
  rw [if_pos hshown] at hnodes
  obtain ⟨t, ht, hnodes⟩ := (bind_eq_ok_iff _ _ _).mp hnodes
  cases hnodes
  exact ⟨_, _, t, ht, rfl⟩

/-- The kinds of controls that have captions. -/
def captioned : Family → Bool
  | .rotary | .linear => true
  | _ => false

/-- A fragment that ends in the captions of an element. -/
def EndsInCaptions (e : Element) (f : Fragment) : Prop :=
  ∃ group before nodes, captions e group = .ok nodes ∧ f.body = before ++ nodes

theorem dial_captions (e : Element) : Ensures (EndsInCaptions e) (dial e) := by
  unfold dial
  refine ensures_after fun d => ensures_after fun track => ?_
  extract_lets size rest
  have hrest : ∀ fill, Ensures (EndsInCaptions e) (rest fill) := by
    intro fill
    refine ensures_after fun marks => ensures_after fun pointer => ?_
    refine ensures_bind (fun nodes hnodes => hnodes) fun nodes hnodes => ensures_ok ?_
    exact ⟨"knob", [_], nodes, hnodes, rfl⟩
  split
  next => exact ensures_after fun path => hrest _
  next => exact hrest _

theorem slider_captions (e : Element) : Ensures (EndsInCaptions e) (slider e) := by
  unfold slider
  extract_lets center ends rest
  have hrest : ∀ marks, Ensures (EndsInCaptions e) (rest marks) := by
    intro marks
    refine ensures_bind (fun nodes hnodes => hnodes) fun nodes hnodes => ensures_ok ?_
    exact ⟨"slider", _, nodes, hnodes, rfl⟩
  split
  next => exact ensures_after fun marks => hrest marks
  next => exact hrest _

theorem fragment_captions {s : PageSetting} {e : Element} {children : List Node}
    (hkind : captioned e.kind.family = true) :
    Ensures (EndsInCaptions e) (fragment s e children) := by
  rw [fragment]
  cases hk : e.kind <;> rw [hk] at hkind
  case knob | steppedKnob | centerDetentKnob | dotIndicatorKnob | arcSlider => exact dial_captions e
  case slider | bipolarSlider | notchedSlider | crossfadeSlider => exact slider_captions e
  all_goals cases hkind

/-- **The caption of a dial or slider is that of its value as it is.** -/
theorem lastText?_caption {s : PageSetting} {e : Element} {children : List Node} {n : Node}
    (hnode : elementNode s e children = .ok n) (hkind : captioned e.kind.family = true)
    (hshown : e.flag "show_value" = true) :
    ∃ t, lastText? n = some t ∧ captionOf e (e.get "value") = .ok t := by
  obtain ⟨f, domId, more, hf, -, rfl, -⟩ := exists_of_elementNode hnode
  obtain ⟨group, before, nodes, hnodes, hbody⟩ := fragment_captions hkind f hf
  obtain ⟨label, cssClass, t, ht, rfl⟩ := captions_value hshown group nodes hnodes
  refine ⟨t, ?_, ht⟩
  rw [lastText?, hbody, ← List.append_assoc, List.getLast?_append]
  rfl

/-! ## §6. All artifacts. -/

/-- **One first state in all artifacts.**  Rule and configuration of an element give the same number
from 0 to 1, those of loop points exactly when both are near 0 to 1.  The caption of a dial or slider
is that of the value that its place stands for exactly when its value lies between its bounds or is
written like the nearer one. -/
theorem first_state_agrees_iff (s : PageSetting) (children : List Node) :
    (∀ e r c, e.kind ≠ .loopPoints → elementRule e = .ok r → config e = .ok (some c) →
      ∀ p ∈ stands e, OneState r.declarations c p) ∧
    (∀ e r c start stop, e.kind = .loopPoints →
      elementRule e = .ok r → config e = .ok (some c) →
      (e.get "loop_start").rational? = some start → (e.get "loop_end").rational? = some stop →
      ((∀ p ∈ stands e, OneState r.declarations c p) ↔ NearUnit start ∧ NearUnit stop)) ∧
    (∀ e n v l h, captioned e.kind.family = true → e.flag "show_value" = true →
      elementNode s e children = .ok n →
      (e.get "value").rational? = some v → (e.get "min").rational? = some l →
      (e.get "max").rational? = some h →
      (settled (e.get "value") (e.get "min") (e.get "max") v l h).rational?
          = some (l + exactPlace v l h * (h - l)) ∧
      ∃ t, lastText? n = some t ∧
        (captionOf e (settled (e.get "value") (e.get "min") (e.get "max") v l h) = .ok t
          ↔ Between v l h
            ∨ captionOf e (nearerBound (e.get "min") (e.get "max") v l h) = .ok t)) := by
  refine ⟨?_, ?_, ?_⟩
  · exact fun e r c hkind hrule hconfig => oneState_of_places hrule hconfig hkind
  · exact fun e r c start stop hkind hrule hconfig hstart hstop =>
      loopPoints_oneState_iff hrule hconfig hkind hstart hstop
  · intro e n v l h hkind hshown hnode hv hl hh
    obtain ⟨t, htext, hcaption⟩ := lastText?_caption hnode hkind hshown
    refine ⟨rational?_settled hv hl hh, t, htext, ?_⟩
    rw [settled]
    split
    next hbetween => exact ⟨fun _ => Or.inl hbetween, fun _ => hcaption⟩
    next houtside => exact ⟨Or.inr, fun h => h.resolve_left houtside⟩

/-- A slider from 0 to 1 that shows its value. -/
def gainSlider (value : Float) : Element :=
  ⟨.slider, Element.assign .slider
    [("id", .text "gain"), ("name", .text "Gain"), ("value", .float value), ("min", .float 0.0),
     ("max", .float 1.0), ("show_value", .bool true)]⟩

/-- Loop points. -/
def sampleLoop (start stop : Float) : Element :=
  ⟨.loopPoints, Element.assign .loopPoints
    [("id", .text "loop"), ("name", .text "Loop"), ("loop_start", .float start),
     ("loop_end", .float stop)]⟩

theorem exists_config {e : Element} (h : (config e).toOption.any Option.isSome = true) :
    ∃ c, config e = .ok (some c) := by
  obtain ⟨o, ho, hsome⟩ := exists_of_any h
  obtain ⟨c, rfl⟩ := Option.isSome_iff_exists.mp hsome
  exact ⟨c, ho⟩

theorem rational?_float {x : Float} {d : Number.Dyadic} {q : ℚ} (hx : Number.parts x = .finite d)
    (hq : d.value = q) : (Value.float x).rational? = some q :=
  Number.rational?_eq_some_iff.mpr ⟨d, hx, hq⟩

/-- A slider at one half, and loop points at one quarter and three quarters. -/
theorem inner_state_agrees :
    (∃ r c, elementRule (gainSlider 0.5) = .ok r ∧ config (gainSlider 0.5) = .ok (some c) ∧
      ∀ p ∈ stands (gainSlider 0.5), OneState r.declarations c p) ∧
    (∃ r c, elementRule (sampleLoop 0.25 0.75) = .ok r ∧
      config (sampleLoop 0.25 0.75) = .ok (some c) ∧
      ∀ p ∈ stands (sampleLoop 0.25 0.75), OneState r.declarations c p) ∧
    (∃ n t, elementNode (PageSetting.ofWindow default) (gainSlider 0.5) [] = .ok n ∧
      lastText? n = some t ∧
      captionOf (gainSlider 0.5)
        (settled (.float 0.5) (.float 0.0) (.float 1.0) (1 / 2) 0 1) = .ok t) := by
  have hagree := first_state_agrees_iff (PageSetting.ofWindow default) []
  obtain ⟨r, hr⟩ := exists_of_isOk (x := elementRule (gainSlider 0.5)) (by decide)
  obtain ⟨c, hc⟩ := exists_config (e := gainSlider 0.5) (by decide)
  obtain ⟨r', hr'⟩ := exists_of_isOk (x := elementRule (sampleLoop 0.25 0.75)) (by decide)
  obtain ⟨c', hc'⟩ := exists_config (e := sampleLoop 0.25 0.75) (by decide)
  obtain ⟨n, hn⟩ := exists_of_isOk
    (x := elementNode (PageSetting.ofWindow default) (gainSlider 0.5) []) (by decide)
  have hquarter : (Value.float 0.25).rational? = some (1 / 4) :=
    rational?_float (d := ⟨false, 2 ^ 52, -54⟩) (by decide)
      (by norm_num [Number.Dyadic.value, Number.Dyadic.magnitude])
  have hmost : (Value.float 0.75).rational? = some (3 / 4) :=
    rational?_float (d := ⟨false, 3 * 2 ^ 51, -53⟩) (by decide)
      (by norm_num [Number.Dyadic.value, Number.Dyadic.magnitude])
  refine ⟨⟨r, c, hr, hc, hagree.1 _ r c (by decide) hr hc⟩, ⟨r', c', hr', hc', ?_⟩, ?_⟩
  · refine (hagree.2.1 _ r' c' (1 / 4) (3 / 4) rfl hr' hc' hquarter hmost).mpr ?_
    constructor <;> constructor <;> norm_num
  · obtain ⟨-, t, ht, hcaption⟩ := hagree.2.2 (gainSlider 0.5) n (1 / 2) 0 1 rfl rfl hn
      Readout.rational?_half Readout.rational?_zero Readout.rational?_one
    exact ⟨n, t, hn, ht, hcaption.mpr (Or.inl (Or.inl (by constructor <;> norm_num)))⟩

/-- Loop points that start behind the end are drawn there by the stylesheet, and a slider above its
upper bound shows a value that it does not stand at. -/
theorem outer_state_jumps :
    (∃ r c, elementRule (sampleLoop 2.0 0.75) = .ok r ∧
      config (sampleLoop 2.0 0.75) = .ok (some c) ∧
      declared r.declarations "--loop-start" = [["2"]] ∧
      Value.find? c "start" = some (.float 1.0) ∧
      ¬ ∀ p ∈ stands (sampleLoop 2.0 0.75), OneState r.declarations c p) ∧
    (∃ n, elementNode (PageSetting.ofWindow default) (gainSlider 5.0) [] = .ok n ∧
      lastText? n = some "5.0" ∧ captionOf (gainSlider 5.0) (.float 1.0) = .ok "1.0" ∧
      exactPlace 5 0 1 = 1) := by
  obtain ⟨r, hr, hstart⟩ := exists_of_any (x := elementRule (sampleLoop 2.0 0.75))
    (p := fun r => declared r.declarations "--loop-start" = [["2"]]) (by decide)
  obtain ⟨c, hc⟩ := exists_config (e := sampleLoop 2.0 0.75) (by decide)
  obtain ⟨n, hn, htext⟩ := exists_of_any
    (x := elementNode (PageSetting.ofWindow default) (gainSlider 5.0) [])
    (p := fun n => lastText? n = some "5.0") (by decide)
  have htwo : (Value.float 2.0).rational? = some 2 :=
    rational?_float (d := ⟨false, 2 ^ 52, -51⟩) (by decide)
      (by norm_num [Number.Dyadic.value, Number.Dyadic.magnitude])
  have hmost : (Value.float 0.75).rational? = some (3 / 4) :=
    rational?_float (d := ⟨false, 3 * 2 ^ 51, -53⟩) (by decide)
      (by norm_num [Number.Dyadic.value, Number.Dyadic.magnitude])
  refine ⟨⟨r, c, hr, hc, of_decide_eq_true hstart, ?_, ?_⟩,
    n, hn, of_decide_eq_true htext, by decide, by norm_num [exactPlace]⟩
  · obtain ⟨x, hx, hstate⟩ := config_stated (sampleLoop 2.0 0.75) _ hc c rfl
      (unitStand (sampleLoop 2.0 0.75) "--loop-start" "start" "loop_start")
      (by simp [stands, sampleLoop])
    have hplace : Readout.normalized (.float 2.0) (.int 0) (.int 1) = .ok (.float 1.0) := by
      with_unfolding_all rfl
    have hone : Number.roundTo stateDecimals 1.0 = 1.0 := by decide
    cases hplace.symm.trans hx
    rwa [hone] at hstate
  · rw [loopPoints_oneState_iff hr hc rfl htwo hmost]
    rintro ⟨⟨-, hhigh⟩, -⟩
    norm_num at hhigh

end ControlSurface.Script
