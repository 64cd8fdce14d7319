/-
  ControlSurface.Proofs.Markup.Parts
  ──────────────────────────────────
  What the elements of each kind are made of.  Apart from the markup that is put into it, what an
  element holds is regular, and no part has one of the attributes that tell elements apart: an
  identifier, a kind or a parameter.  The parts with an identifier of their own are those of
  checkboxes and combo boxes; containers are the matter of another module.
-/
import ControlSurface.Markup.Element
import ControlSurface.Proofs.Fault.Outcome
import ControlSurface.Proofs.Markup.Regular

namespace ControlSurface.Markup

open ControlSurface.Outcome

/-! ## §1. Building regular trees. -/

/-- Attributes with names from a list. -/
def Names (names : List String) (attributes : Attributes) : Prop := ∀ a ∈ attributes, a.1 ∈ names

theorem names_of {names : List String} {attributes : Attributes}
    (h : attributes.all (fun a => names.contains a.1) = true) : Names names attributes :=
  fun a ha => List.contains_iff_mem.mp (List.all_eq_true.mp h a ha)

theorem Names.append {names : List String} {as bs : Attributes} (has : Names names as)
    (hbs : Names names bs) : Names names (as ++ bs) :=
  fun a ha => (List.mem_append.mp ha).elim (has a) (hbs a)

/-- Markup that the renderers put into elements themselves. -/
def fixedMarkup : List String := ["&minus;", "+", "&#9662;", "kHz", "Hz", "dB"]

variable {names : List String} {inserted : String → Prop}

/-- Regular trees, one after the other. -/
def AllRegular (names : List String) (inserted : String → Prop) (ns : List Node) : Prop :=
  ∀ n ∈ ns, n.Regular names inserted

@[simp] theorem allRegular_nil : AllRegular names inserted [] := by simp [AllRegular]

@[simp] theorem allRegular_cons {n : Node} {ns : List Node} :
    AllRegular names inserted (n :: ns)
      ↔ n.Regular names inserted ∧ AllRegular names inserted ns := List.forall_mem_cons

@[simp] theorem allRegular_append {ns ms : List Node} :
    AllRegular names inserted (ns ++ ms)
      ↔ AllRegular names inserted ns ∧ AllRegular names inserted ms := List.forall_mem_append

theorem allRegular_map {α : Type} {f : α → Node} (h : ∀ x, (f x).Regular names inserted)
    (xs : List α) : AllRegular names inserted (xs.map f) :=
  List.forall_mem_map.mpr fun x _ => h x

@[simp] theorem regular_shown (v : Value) : (shown v).Regular names inserted := .text _

@[simp] theorem regular_text (s : String) : (Node.text s).Regular names inserted := .text s

/-- An element with regular trees inside. -/
theorem regular_tag {name : String} {attributes : Attributes} {body : List Node}
    (hname : (tagNames.contains name && !voidTags.contains name) = true)
    (hattributes : Names names attributes) (hbody : AllRegular names inserted body) :
    (tag name attributes body).Regular names inserted := by
  obtain ⟨htag, hfull⟩ := Bool.and_eq_true_iff.mp hname
  exact .element htag hattributes (fun hvoid => by rw [hvoid] at hfull; cases hfull) hbody

/-- An element with nothing inside. -/
theorem regular_leaf {name : String} {attributes : Attributes}
    (hname : tagNames.contains name = true) (hattributes : Names names attributes) :
    (tag name attributes []).Regular names inserted :=
  .element hname hattributes (fun _ => rfl) allRegular_nil

/-- An element around markup. -/
theorem regular_around {name : String} {attributes : Attributes} {markup : String}
    (hname : (tagNames.contains name && !voidTags.contains name) = true)
    (hattributes : Names names attributes) (hmarkup : inserted markup) :
    (tag name attributes [.raw markup]).Regular names inserted := by
  obtain ⟨htag, hfull⟩ := Bool.and_eq_true_iff.mp hname
  exact .around htag hattributes (by simpa using hfull) hmarkup

/-- A regular tree is regular for more names and more markup. -/
theorem Node.Regular.mono {more : List String} {other : String → Prop}
    (hnames : ∀ name ∈ names, name ∈ more) (hinserted : ∀ m, inserted m → other m) {n : Node}
    (h : n.Regular names inserted) : n.Regular more other := by
  induction h with
  | text s => exact .text s
  | element htag has hvoid _ ih => exact .element htag (fun a ha => hnames _ (has a ha)) hvoid ih
  | around htag has hfull hm => exact .around htag (fun a ha => hnames _ (has a ha)) hfull (hinserted _ hm)

/-- The node of a fragment before the attributes of all elements. -/
def Fragment.node (f : Fragment) : Node := .element f.tag f.attributes f.body

/-- A fragment whose parts are regular, with names from a list. -/
def Fragment.Regular (names : List String) (inserted : String → Prop) (f : Fragment) : Prop :=
  f.node.Regular names inserted

/-- A box with regular trees inside. -/
theorem regular_box {attributes : Attributes} {body : List Node}
    (hattributes : Names names attributes) (hbody : AllRegular names inserted body) :
    (box attributes body).Regular names inserted := regular_tag rfl hattributes hbody

/-- Fragments of which nothing but regular parts is known. -/
abbrev MadeOfParts (inserted : String → Prop) (x : Except Fault Fragment) : Prop :=
  Ensures (fun f => f.Regular partAttributes inserted) x

/-- A part with only a class. -/
theorem regular_part {name cssClass : String} {body : List Node}
    (hname : (tagNames.contains name && !voidTags.contains name) = true)
    (hbody : AllRegular partAttributes inserted body) :
    (part name cssClass body).Regular partAttributes inserted :=
  regular_tag hname (names_of rfl) hbody

/-! ## §2. Dials and sliders. -/

variable (inserted)

theorem regular_captions (e : Element) (group : String) :
    Ensures (AllRegular partAttributes inserted) (captions e group) := by
  have hspan : ∀ (cssClass : String) (n : Node), n.Regular partAttributes inserted →
      AllRegular partAttributes inserted [part "span" cssClass [n]] := fun cssClass n hn => by
    simpa using regular_part rfl (by simpa using hn)
  unfold captions
  extract_lets label rest
  have hlabel : AllRegular partAttributes inserted label := by
    unfold label
    split
    next => exact hspan _ _ (regular_shown _)
    next => exact allRegular_nil
  have hrest : ∀ value, AllRegular partAttributes inserted value →
      Ensures (AllRegular partAttributes inserted) (rest value) :=
    fun value hvalue => ensures_ok (allRegular_append.mpr ⟨hlabel, hvalue⟩)
  split
  next =>
    refine ensures_after fun text => ?_
    exact hrest _ (hspan _ _ (.text text))
  next => exact hrest _ allRegular_nil

theorem regular_arcNode (e : Element) (cssClass path : String) :
    (arcNode e cssClass path).Regular partAttributes inserted := regular_leaf rfl (names_of rfl)

theorem regular_spoke (cssClass : String) (d : DialShape) (inner outer angle : Num) :
    Ensures (Node.Regular partAttributes inserted) (spoke cssClass d inner outer angle) :=
  ensures_after fun _ => ensures_after fun _ => ensures_ok (regular_leaf rfl (names_of rfl))

theorem regular_dot (cssClass : String) (d : DialShape) (distance : Num) (radius : Value) :
    Ensures (Node.Regular partAttributes inserted) (dot cssClass d distance radius) :=
  ensures_after fun _ => ensures_ok (regular_leaf rfl (names_of rfl))

theorem regular_stepMarks (e : Element) (d : DialShape) :
    Ensures (AllRegular partAttributes inserted) (stepMarks e d) := by
  unfold stepMarks
  split
  next =>
    refine ensures_after fun count => ?_
    split
    next =>
      refine ensures_after fun width => ensures_after fun n => ensures_mapM (fun i => ?_) _
      exact ensures_after fun _ => ensures_after fun _ => ensures_after fun _ =>
        ensures_after fun _ => ensures_after fun _ => ensures_after fun _ =>
        ensures_after fun _ => ensures_after fun _ => regular_spoke _ _ d _ _ _
    next => exact ensures_ok allRegular_nil
  next => exact ensures_ok allRegular_nil

theorem regular_indicator (e : Element) (d : DialShape) :
    Ensures (Node.Regular partAttributes inserted) (indicator e d) := by
  unfold indicator
  split
  next => exact regular_dot _ _ d _ _
  next =>
    refine ensures_after fun rim => ?_
    split
    next => exact regular_dot _ _ d _ _
    next => exact ensures_after fun _ => regular_spoke _ _ d _ _ _

theorem regular_dial (e : Element) : MadeOfParts inserted (dial e) := by
  unfold dial
  refine ensures_after fun d => ensures_after fun track => ?_
  extract_lets size rest
  have hrest : ∀ fill, AllRegular partAttributes inserted fill →
      MadeOfParts inserted (rest fill) := by
    intro fill hfill
    refine ensures_bind (regular_stepMarks inserted e d) fun marks hmarks => ?_
    refine ensures_bind (regular_indicator inserted e d) fun pointer hpointer => ?_
    refine ensures_bind (regular_captions inserted e "knob") fun shownCaptions hcaptions => ensures_ok ?_
    refine regular_box (names_of rfl) (allRegular_cons.mpr ⟨?_, hcaptions⟩)
    exact regular_tag rfl (names_of rfl) (by simp [regular_arcNode, hfill, hmarks, hpointer])
  split
  next =>
    refine ensures_after fun path => ?_
    exact hrest _ (by simp [regular_arcNode])
  next => exact hrest _ allRegular_nil

/-- A part with nothing inside. -/
theorem regular_emptyPart {name : String} (cssClass : String)
    (hname : (tagNames.contains name && !voidTags.contains name) = true) :
    (part name cssClass []).Regular partAttributes inserted := regular_part hname allRegular_nil

/-- A part with text inside. -/
theorem regular_textPart {name : String} (cssClass : String) (v : Value)
    (hname : (tagNames.contains name && !voidTags.contains name) = true) :
    (part name cssClass [shown v]).Regular partAttributes inserted :=
  regular_part hname (by simp)

theorem regular_notches (e : Element) :
    Ensures (AllRegular partAttributes inserted) (notches e) := by
  refine ensures_after fun count => ensures_mapM (fun i => ?_) _
  extract_lets rest
  have hrest : ∀ place, Ensures (Node.Regular partAttributes inserted) (rest place) :=
    fun place => ensures_ok (regular_leaf rfl (names_of rfl))
  split
  next => exact ensures_after fun place => hrest place
  next => exact hrest _

theorem regular_slider (e : Element) : MadeOfParts inserted (slider e) := by
  unfold slider
  extract_lets center ends rest
  have hrest : ∀ marks, AllRegular partAttributes inserted marks →
      MadeOfParts inserted (rest marks) := by
    intro marks hmarks
    have hcenter : AllRegular partAttributes inserted center := by
      unfold center
      split
      next => simp (disch := decide) [regular_emptyPart]
      next => exact allRegular_nil
    have hends : AllRegular partAttributes inserted ends := by
      unfold ends
      split
      next => simp (disch := decide) [regular_textPart]
      next => exact allRegular_nil
    refine ensures_bind (regular_captions inserted e "slider") fun shownCaptions hcaptions => ensures_ok ?_
    exact regular_box (names_of rfl)
      (by simp (disch := decide) [regular_emptyPart, hmarks, hcenter, hends, hcaptions])
  split
  next => exact ensures_bind (regular_notches inserted e) hrest
  next => exact hrest _ allRegular_nil

theorem regular_handle (cssClass label : String) :
    (handle cssClass label).Regular partAttributes inserted := regular_leaf rfl (names_of rfl)

theorem regular_rangeSlider (e : Element) : MadeOfParts inserted (rangeSlider e) := by
  refine ensures_bind (regular_captions inserted e "slider")
    fun shownCaptions hcaptions => ensures_ok ?_
  exact regular_box (names_of rfl) (by simp (disch := decide) [regular_emptyPart, regular_handle, hcaptions])

/-- A style is one attribute of that name. -/
theorem style_of_barStyle (value : Value) : Ensures (fun a => a.1 = "style") (barStyle value) :=
  ensures_after fun _ => ensures_after fun _ => ensures_ok rfl

theorem regular_multiSlider (e : Element) : MadeOfParts inserted (multiSlider e) := by
  refine ensures_after fun count => ensures_after fun n => ?_
  refine ensures_bind (Q := AllRegular partAttributes inserted) (ensures_mapM (fun i => ?_) _)
    fun bands hbands => ensures_ok (regular_box (names_of rfl) hbands)
  refine ensures_after fun value => ensures_bind (style_of_barStyle value) fun style hstyle => ?_
  refine ensures_ok (regular_tag rfl ?_ (by simp (disch := decide) [regular_emptyPart]))
  simp [Names, hstyle, partAttributes]

theorem regular_harmonics (e : Element) : MadeOfParts inserted (harmonics e) := by
  refine ensures_after fun n => ?_
  refine ensures_bind (Q := AllRegular partAttributes inserted) (ensures_mapM (fun i => ?_) _)
    fun bars hbars => ensures_ok (regular_box (names_of rfl) hbars)
  refine ensures_after fun value => ensures_bind (style_of_barStyle value) fun style hstyle => ?_
  refine ensures_ok (regular_leaf rfl ?_)
  simp [Names, hstyle, partAttributes]

theorem regular_characters (e : Element) : MadeOfParts inserted (characters e) := by
  unfold characters
  split
  next => exact ensures_after fun bar => ensures_ok (regular_tag rfl (names_of rfl) (by simp))
  next => exact ensures_ok (regular_tag rfl (names_of rfl) (by simp))
  next => exact ensures_ok (regular_tag rfl (names_of rfl) (by simp))

/-! ## §3. Buttons and switches. -/

/-- The names of the attributes in a part of a kind that has a part with an identifier. -/
def namedPartAttributes : List String := "id" :: partAttributes

/-- Fragments with a part that has an identifier. -/
abbrev MadeOfNamedParts (inserted : String → Prop) (x : Except Fault Fragment) : Prop :=
  Ensures (fun f => f.Regular namedPartAttributes inserted) x

theorem regular_button (e : Element) : (button e).Regular partAttributes inserted := by
  unfold button
  extract_lets leads
  have hleads : Names partAttributes leads := by
    unfold leads
    split
    next => exact names_of rfl
    next => exact names_of rfl
  exact regular_tag rfl (Names.append (names_of rfl) hleads) (by simp)

theorem regular_iconButton {s : PageSetting} {e : Element}
    (hgraphic : Ensures (fun n => ∃ m, n = .raw m ∧ inserted m) (graphic s e)) :
    MadeOfParts inserted (iconButton s e) := by
  refine ensures_bind hgraphic fun n hn => ensures_ok ?_
  obtain ⟨m, rfl, hm⟩ := hn
  refine regular_tag rfl (names_of rfl) (allRegular_cons.mpr ⟨?_, allRegular_nil⟩)
  exact regular_around rfl (names_of rfl) hm

theorem regular_powerIcon : powerIcon.Regular partAttributes inserted :=
  regular_tag rfl (names_of rfl)
    (by simpa using ⟨regular_leaf rfl (names_of rfl), regular_leaf rfl (names_of rfl)⟩)

theorem regular_rocker (e : Element) : (rocker e).Regular partAttributes inserted := by
  unfold rocker
  extract_lets label paddle
  have hpaddle : paddle.Regular partAttributes inserted := regular_emptyPart inserted _ rfl
  have hlabel : ∀ which field, (label which field).Regular partAttributes inserted :=
    fun which field => regular_textPart inserted _ _ rfl
  refine regular_box (names_of rfl) ?_
  split
  next => simp [hpaddle, hlabel]
  next => simp [hpaddle]

theorem regular_checkbox (s : PageSetting) (e : Element) :
    MadeOfNamedParts inserted (checkbox s e) := by
  refine ensures_after fun domId => ensures_ok (regular_box (names_of rfl) ?_)
  simpa using ⟨regular_leaf rfl (names_of rfl), regular_tag rfl (names_of rfl) (by simp)⟩

/-! ## §4. Choices. -/

theorem regular_rotarySwitch (e : Element) : MadeOfParts inserted (rotarySwitch e) := by
  refine ensures_after fun positions => ?_
  extract_lets count
  refine ensures_bind (Q := AllRegular partAttributes inserted) (ensures_mapM (fun p => ?_) _)
    fun labels hlabels => ensures_ok (regular_box (names_of rfl) ?_)
  · refine ensures_after fun start => ?_
    extract_lets rest
    have hrest : ∀ turn, Ensures (Node.Regular partAttributes inserted) (rest turn) :=
      fun turn => ensures_after fun angle => ensures_ok (regular_tag rfl (names_of rfl) (by simp))
    split
    next => exact ensures_after fun _ => ensures_after fun _ => ensures_after fun _ =>
      ensures_after fun turn => hrest turn
    next => exact hrest _
  · refine allRegular_cons.mpr ⟨regular_part rfl ?_, hlabels⟩
    simpa using regular_emptyPart inserted _ rfl

theorem regular_segments (e : Element) : MadeOfParts inserted (segments e) :=
  ensures_after fun items => ensures_ok <| regular_box (names_of rfl) <|
    allRegular_map (fun _ => regular_tag rfl (names_of rfl) (by simp)) items

theorem regular_dropdown (e : Element) : MadeOfParts inserted (dropdown e) :=
  ensures_after fun items => ensures_ok <| regular_tag rfl (names_of rfl) <|
    allRegular_map (fun _ => regular_tag rfl (names_of rfl) (by simp)) items

theorem regular_comboBox (s : PageSetting) (e : Element) :
    MadeOfNamedParts inserted (comboBox s e) := by
  refine ensures_after fun domId => ensures_after fun items => ensures_after fun found =>
    ensures_ok (regular_box (names_of rfl) ?_)
  refine allRegular_cons.mpr ⟨regular_leaf rfl (names_of rfl), ?_⟩
  simpa using regular_tag rfl (names_of rfl)
    (allRegular_map (fun _ => regular_leaf rfl (names_of rfl)) items)

theorem regular_radioGroup (s : PageSetting) (e : Element) :
    MadeOfParts inserted (radioGroup s e) := by
  refine ensures_after fun domId => ensures_after fun items =>
    ensures_ok (regular_box (names_of rfl) (allRegular_map (fun p => ?_) items))
  refine regular_part rfl ?_
  simpa using ⟨regular_leaf rfl (names_of rfl), regular_tag rfl (names_of rfl) (by simp)⟩

theorem regular_tabBar (e : Element) : MadeOfParts inserted (tabBar e) :=
  ensures_after fun items => ensures_ok <| regular_box (names_of rfl) <|
    allRegular_map (fun _ => regular_tag rfl (names_of rfl) (by simp)) items

theorem regular_multiChoice (e : Element) : MadeOfParts inserted (multiChoice e) := by
  refine ensures_after fun chosenPlaces => ?_
  extract_lets rest
  have hrest : ∀ items, MadeOfParts inserted (rest items) := by
    intro items
    refine ensures_after fun chosen => ensures_after fun names => ensures_after fun entries =>
      ensures_ok (regular_box (names_of rfl) ?_)
    refine allRegular_cons.mpr ⟨regular_tag rfl (names_of rfl) (by simp),
      allRegular_cons.mpr ⟨regular_tag rfl (names_of rfl) (allRegular_map (fun p => ?_) entries),
        allRegular_nil⟩⟩
    refine regular_tag rfl (names_of rfl) (allRegular_cons.mpr ⟨?_, allRegular_nil⟩)
    exact regular_tag rfl (names_of rfl) (by simpa using regular_leaf rfl (names_of rfl))
  split
  next => exact hrest _
  next => exact ensures_after fun items => hrest items

theorem regular_menu (e : Element) : MadeOfParts inserted (menu e) := by
  refine ensures_after fun items => ensures_ok (regular_box (names_of rfl) ?_)
  simpa using ⟨regular_tag rfl (names_of rfl) (by simp), regular_tag rfl (names_of rfl)
    (allRegular_map (fun _ => regular_tag rfl (names_of rfl) (by simp)) items)⟩

theorem regular_textElement (e : Element) :
    (textElement e).Regular partAttributes inserted := by
  unfold textElement
  split
  next => exact regular_tag rfl (names_of rfl) (by simp)
  next => exact regular_leaf rfl (names_of rfl)

theorem regular_stepper (hfixed : ∀ m ∈ fixedMarkup, inserted m) (e : Element) :
    MadeOfParts inserted (stepper e) := by
  refine ensures_after fun value => ensures_ok (regular_box (names_of rfl) ?_)
  simpa using ⟨regular_around rfl (names_of rfl) (hfixed _ (by decide)),
    regular_part rfl (by simp), regular_around rfl (names_of rfl) (hfixed _ (by decide))⟩

/-! ## §5. Lists. -/

theorem regular_breadcrumb (e : Element) : MadeOfParts inserted (breadcrumb e) := by
  refine ensures_after fun items => ensures_ok (regular_tag rfl (names_of rfl) ?_)
  refine allRegular_cons.mpr ⟨regular_tag rfl (names_of rfl) ?_, allRegular_nil⟩
  intro n hn
  obtain ⟨p, _, hn⟩ := List.mem_flatMap.mp hn
  rcases List.mem_append.mp hn with hn | hn
  · split at hn
    next => cases hn
    next =>
      rw [List.mem_singleton.mp hn]
      exact regular_tag rfl (names_of rfl) (by simp)
  · rw [List.mem_singleton.mp hn]
    exact regular_tag rfl (names_of rfl) (by simp)

mutual
theorem regular_item (expanded : Bool) (t : Outline) :
    (Outline.item expanded t).Regular partAttributes inserted := by
  match t with
  | .node l [] =>
    exact regular_tag rfl (names_of rfl) (by simpa using regular_part rfl (by simp))
  | .node l (t :: ts) =>
    refine regular_tag rfl (names_of rfl) ?_
    simpa using ⟨regular_part rfl (by simp), regular_tag rfl (names_of rfl)
      (allRegular_cons.mpr ⟨regular_item expanded t, regular_items expanded ts⟩)⟩

theorem regular_items (expanded : Bool) (ts : List Outline) :
    AllRegular partAttributes inserted (Outline.items expanded ts) := by
  match ts with
  | [] => exact allRegular_nil
  | t :: ts => exact allRegular_cons.mpr ⟨regular_item expanded t, regular_items expanded ts⟩
end

theorem regular_presetRow (e : Element) (i : Int) (preset : String) :
    (presetRow e i preset).Regular partAttributes inserted := by
  unfold presetRow
  cases presetParts preset with
  | mk folder name =>
  dsimp only
  split
  next => exact regular_tag rfl (names_of rfl) (by simpa using regular_part rfl (by simp))
  next => exact regular_tag rfl (names_of rfl) (by simp)

theorem regular_presetBrowser (e : Element) : MadeOfParts inserted (presetBrowser e) := by
  unfold presetBrowser
  extract_lets search
  have hsearch : AllRegular partAttributes inserted search := by
    unfold search
    split
    next => simpa using regular_leaf rfl (names_of rfl)
    next => exact allRegular_nil
  refine ensures_after fun items => ensures_bind (Q := AllRegular partAttributes inserted)
    (ensures_mapM (fun p => ?_) _) fun rows hrows => ensures_ok (regular_box (names_of rfl) ?_)
  · exact ensures_after fun preset => ensures_ok (regular_presetRow inserted e p.1 preset)
  · simpa [hsearch] using regular_tag rfl (names_of rfl) hrows

/-! ## §6. Displays. -/

theorem regular_meter (e : Element) : MadeOfParts inserted (meter e) := by
  unfold meter
  extract_lets fill peak rest
  have hfill : fill.Regular partAttributes inserted := regular_emptyPart inserted _ rfl
  split
  next =>
    refine ensures_ok (regular_box (names_of rfl) (allRegular_cons.mpr ⟨hfill, ?_⟩))
    unfold peak
    split
    next => simpa using regular_emptyPart inserted _ rfl
    next => exact allRegular_nil
  next =>
    have hrest : ∀ readout, AllRegular partAttributes inserted readout →
        MadeOfParts inserted (rest readout) := fun readout hreadout =>
      ensures_ok (regular_box (names_of rfl) (allRegular_cons.mpr ⟨hfill, hreadout⟩))
    split
    next =>
      refine ensures_after fun text => ?_
      exact hrest _ (by simpa using regular_part rfl (by simp))
    next => exact hrest _ allRegular_nil

/-- The unit of a numeric display is one of three. -/
theorem unit_of_readoutParts (e : Element) :
    Ensures (fun p => p.2 ∈ fixedMarkup) (readoutParts e) := by
  unfold readoutParts
  extract_lets value auto
  split
  next =>
    refine ensures_after fun text => ?_
    extract_lets rest
    have hrest : ∀ kilo, Ensures (fun p => p.2 ∈ fixedMarkup) (rest kilo) := by
      intro kilo
      refine ensures_ok ?_
      show (if kilo then "kHz" else "Hz") ∈ fixedMarkup
      cases kilo <;> decide
    split
    next => exact ensures_after fun _ => hrest _
    next => exact hrest _
  next =>
    refine ensures_after fun text => ensures_ok ?_
    show "dB" ∈ fixedMarkup
    decide

theorem regular_readout (hfixed : ∀ m ∈ fixedMarkup, inserted m) (e : Element) :
    MadeOfParts inserted (readout e) := by
  refine ensures_bind (unit_of_readoutParts e) fun parts hunit => ensures_ok ?_
  refine regular_box (names_of rfl) (allRegular_cons.mpr ⟨regular_part rfl (by simp), ?_⟩)
  split
  next =>
    refine allRegular_cons.mpr ⟨?_, allRegular_nil⟩
    exact regular_around rfl (names_of rfl) (hfixed _ hunit)
  next => exact allRegular_nil

theorem regular_matrix (e : Element) : MadeOfParts inserted (matrix e) := by
  refine ensures_after fun active => ensures_after fun destinations => ensures_after fun sources =>
    ensures_ok (regular_box (names_of rfl) ?_)
  refine allRegular_cons.mpr ⟨regular_part rfl ?_, allRegular_nil⟩
  refine allRegular_cons.mpr ⟨regular_tag rfl (names_of rfl) ?_, allRegular_map (fun p => ?_) sources⟩
  · refine allRegular_cons.mpr ⟨regular_emptyPart inserted _ rfl, ?_⟩
    exact allRegular_map (fun p => regular_tag rfl (names_of rfl) (by simp)) destinations
  · refine regular_tag rfl (names_of rfl) ?_
    refine allRegular_cons.mpr ⟨regular_tag rfl (names_of rfl) (by simp), ?_⟩
    exact allRegular_map (fun p => regular_leaf rfl (names_of rfl)) destinations

theorem regular_canvas (e : Element) : MadeOfParts inserted (canvas e) := by
  refine ensures_after fun width => ensures_after fun height =>
    ensures_ok (regular_box (names_of rfl) ?_)
  simpa using regular_leaf rfl (names_of rfl)

/-! ## §7. Instruments. -/

theorem regular_keys (white : Nat) (notes : List Int) :
    AllRegular partAttributes inserted (keys white notes).1 := by
  induction notes generalizing white with
  | nil => exact allRegular_nil
  | cons note notes ih =>
    exact allRegular_cons.mpr ⟨regular_leaf rfl (names_of rfl), ih _⟩

theorem regular_keyboard (e : Element) : MadeOfParts inserted (keyboard e) := by
  refine ensures_after fun _ => ensures_after fun _ => ensures_after fun _ => ensures_after fun _ =>
    ensures_after fun _ => ensures_after fun _ => ensures_after fun _ => ensures_ok ?_
  exact regular_box (names_of rfl) (regular_keys inserted 0 _)

theorem regular_pad (e : Element) : MadeOfParts inserted (pad e) := by
  unfold pad
  split
  next => exact ensures_ok (regular_tag rfl (names_of rfl) (by simp))
  next =>
    refine ensures_after fun count => ensures_ok (regular_box (names_of rfl) ?_)
    exact allRegular_map (fun i => regular_tag rfl (names_of rfl) (by simp)) _

theorem regular_stepGrid (e : Element) : MadeOfParts inserted (stepGrid e) := by
  refine ensures_after fun active => ?_
  extract_lets rest
  have hrest : MadeOfParts inserted (rest ()) := ensures_after fun count =>
    ensures_ok (regular_box (names_of rfl)
      (allRegular_map (fun i => regular_leaf rfl (names_of rfl)) _))
  split
  next => exact ensures_after fun _ => hrest
  next => exact hrest

theorem regular_xyPad (e : Element) : (xyPad e).Regular partAttributes inserted := by
  refine regular_box (names_of rfl) (allRegular_cons.mpr ⟨?_, allRegular_nil⟩)
  exact regular_part rfl (by simpa using regular_emptyPart inserted _ rfl)

theorem regular_loopPoints : loopPoints.Regular partAttributes inserted :=
  regular_box (names_of rfl) (by simp (disch := decide) [regular_emptyPart, regular_handle])

end ControlSurface.Markup
