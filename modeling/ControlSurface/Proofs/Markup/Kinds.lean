/-
  ControlSurface.Proofs.Markup.Kinds
  ──────────────────────────────────
  What elements of every kind are made of (`regular_fragment`), and the node of an element around
  it (`regular_elementNode`).
-/
import ControlSurface.Proofs.Markup.Parts

namespace ControlSurface.Markup

open ControlSurface.Outcome

variable {inserted : String → Prop}

/-! ## §1. Containers and decoration. -/

/-- The names of the attributes in an element of a kind, as far as they are its own. -/
def ownNames : Kind → List String
  | .checkbox | .comboBox => namedPartAttributes
  | .panel | .frame | .groupBox | .collapsible => "data-custom-scrollbar" :: partAttributes
  | _ => partAttributes

theorem attributeNames_of_ownNames {name : String} {k : Kind} (h : name ∈ ownNames k) :
    name ∈ attributeNames := by
  have hpart : name ∈ partAttributes → name ∈ attributeNames := List.mem_append_right _
  unfold ownNames at h
  split at h
  all_goals
    first
    | exact hpart h
    | rcases List.mem_cons.mp h with rfl | h
      · decide
      · exact hpart h

theorem regular_header (hfixed : ∀ m ∈ fixedMarkup, inserted m) (e : Element) :
    AllRegular partAttributes inserted (header e) := by
  unfold header
  split
  next => simpa using regular_textPart inserted _ _ rfl
  next =>
    refine allRegular_cons.mpr ⟨regular_tag rfl (names_of rfl) ?_, allRegular_nil⟩
    simpa using regular_around rfl (names_of rfl) (hfixed _ (by decide))
  next => exact allRegular_nil

theorem names_contentAttributes (s : PageSetting) (e : Element) :
    Names ("data-custom-scrollbar" :: partAttributes) (contentAttributes s e) := by
  unfold contentAttributes
  extract_lets hidden scrollbar
  have hhidden : Names ("data-custom-scrollbar" :: partAttributes) hidden := by
    unfold hidden
    split
    next => exact names_of rfl
    next => exact names_of rfl
  have hscrollbar : Names ("data-custom-scrollbar" :: partAttributes) scrollbar := by
    unfold scrollbar
    split
    next => exact names_of rfl
    next => exact names_of rfl
  intro a ha
  rcases List.mem_cons.mp ha with rfl | ha
  · decide
  · exact hhidden.append hscrollbar a ha

/-- What stands for the markup of children that is given as text. -/
def childNodes (children : String) : List Node := if children = "" then [] else [.raw children]

theorem regular_container (hfixed : ∀ m ∈ fixedMarkup, inserted m) (s : PageSetting) (e : Element)
    {children : String} (hchildren : inserted children) :
    (container s e (childNodes children)).Regular ("data-custom-scrollbar" :: partAttributes)
      inserted := by
  have hheader : AllRegular ("data-custom-scrollbar" :: partAttributes) inserted (header e) :=
    fun n hn => (regular_header hfixed e n hn).mono (fun _ => List.mem_cons_of_mem _) fun _ h => h
  refine regular_box (names_of rfl) (allRegular_append.mpr
    ⟨hheader, allRegular_cons.mpr ⟨?_, allRegular_nil⟩⟩)
  unfold childNodes
  split
  next => exact regular_leaf rfl (names_contentAttributes s e)
  next => exact regular_around rfl (names_contentAttributes s e) hchildren

/-- What the graphic of an element may be: a prepared one, nothing, or its own without active
content. -/
inductive IsGraphic (s : PageSetting) (e : Element) : String → Prop where
  | prepared {markup : String} (h : s.graphic? e.id = some markup) : IsGraphic s e markup
  | nothing : IsGraphic s e ""
  | own {source markup : String} (hnone : s.graphic? e.id = none)
      (hsource : ((e.kind.svgField?.map e.get).getD .null).string = .ok source)
      (hclean : Svg.sanitize source = .ok markup) : IsGraphic s e markup

theorem isGraphic_graphic (s : PageSetting) (e : Element) :
    Ensures (fun n => ∃ m, n = .raw m ∧ IsGraphic s e m) (graphic s e) := by
  unfold graphic
  split
  next markup hfound => exact ensures_ok ⟨_, rfl, .prepared hfound⟩
  next hnone =>
    extract_lets own
    have hown : ∀ u, Ensures (fun n => ∃ m, n = .raw m ∧ IsGraphic s e m) (own u) := by
      intro u n hn
      obtain ⟨source, hsource, hn⟩ := (bind_eq_ok_iff _ _ _).mp hn
      split at hn
      next =>
        cases hn
        exact ⟨_, rfl, .nothing⟩
      next =>
        split at hn
        next markup hclean =>
          cases hn
          exact ⟨_, rfl, .own hnone hsource hclean⟩
        next =>
          cases hn
          exact ⟨_, rfl, .nothing⟩
    split
    next => exact ensures_after fun u => hown u
    next => exact hown ()

theorem regular_decoration {s : PageSetting} {e : Element}
    (hgraphic : Ensures (fun n => ∃ m, n = .raw m ∧ inserted m) (graphic s e)) :
    MadeOfParts inserted (decoration s e) := by
  unfold decoration
  split
  next => exact ensures_ok (regular_leaf rfl (names_of rfl))
  next =>
    refine ensures_bind hgraphic fun n hn => ensures_ok ?_
    obtain ⟨m, rfl, hm⟩ := hn
    exact regular_around rfl (names_of rfl) hm
  next =>
    refine ensures_ok (regular_box (names_of rfl) ?_)
    simpa using regular_emptyPart inserted _ rfl
  next => exact ensures_ok (regular_box (names_of rfl) allRegular_nil)

/-! ## §2. Kinds that share a family. -/

theorem regular_switch {s : PageSetting} {e : Element}
    (hgraphic : Ensures (fun n => ∃ m, n = .raw m ∧ inserted m) (graphic s e))
    (hfamily : e.kind.family = .switch) :
    Ensures (fun f => f.Regular (ownNames e.kind) inserted) (switch s e) := by
  have hkind : e.kind = .button ∨ e.kind = .iconButton ∨ e.kind = .toggleSwitch
      ∨ e.kind = .powerButton ∨ e.kind = .rockerSwitch ∨ e.kind = .checkbox := by
    revert hfamily
    cases e.kind <;> simp [Kind.family]
  rcases hkind with hk | hk | hk | hk | hk | hk <;> simp only [switch, hk]
  · exact ensures_ok (regular_button inserted e)
  · exact regular_iconButton inserted hgraphic
  · change MadeOfParts inserted _
    refine ensures_ok (regular_tag rfl (names_of rfl) ?_)
    simpa using regular_emptyPart inserted _ rfl
  · change MadeOfParts inserted _
    refine ensures_ok (regular_tag rfl (names_of rfl) ?_)
    simpa using ⟨regular_emptyPart inserted _ rfl, regular_powerIcon inserted⟩
  · exact ensures_ok (regular_rocker inserted e)
  · exact regular_checkbox inserted s e

theorem regular_choice (s : PageSetting) {e : Element} (hfamily : e.kind.family = .choice) :
    Ensures (fun f => f.Regular (ownNames e.kind) inserted) (choice s e) := by
  have hkind : e.kind = .rotarySwitch ∨ e.kind = .segmentButton ∨ e.kind = .dropdown
      ∨ e.kind = .comboBox ∨ e.kind = .radioGroup ∨ e.kind = .tabBar := by
    revert hfamily
    cases e.kind <;> simp [Kind.family]
  refine ensures_after fun domId => ?_
  rcases hkind with hk | hk | hk | hk | hk | hk <;> rw [hk]
  · exact regular_rotarySwitch inserted e
  · exact regular_segments inserted e
  · exact regular_dropdown inserted e
  · exact regular_comboBox inserted s e
  · exact regular_radioGroup inserted s e
  · exact regular_tabBar inserted e

theorem regular_listing (e : Element) : MadeOfParts inserted (listing e) := by
  unfold listing
  split
  next => exact regular_breadcrumb inserted e
  next =>
    refine ensures_after fun items => ensures_after fun paths => ensures_ok ?_
    refine regular_box (names_of rfl) (allRegular_cons.mpr ⟨?_, allRegular_nil⟩)
    exact regular_tag rfl (names_of rfl) (regular_items inserted _ _)
  next => exact regular_presetBrowser inserted e

/-! ## §3. Elements. -/

/-- **What an element of any kind is made of.** -/
theorem regular_fragment (hfixed : ∀ m ∈ fixedMarkup, inserted m) {s : PageSetting} {e : Element}
    (hgraphic : Ensures (fun n => ∃ m, n = .raw m ∧ inserted m) (graphic s e))
    {children : String} (hchildren : inserted children) :
    Ensures (fun f => f.Regular (ownNames e.kind) inserted) (fragment s e (childNodes children)) := by
  unfold fragment
  -- one renderer for each group of kinds
  split
  all_goals rename_i hk
  all_goals first
    | exact regular_switch hgraphic (by rw [hk]; rfl)
    | exact regular_choice s (by rw [hk]; rfl)
    | rw [hk]
      first
      | exact regular_dial inserted e
      | exact regular_slider inserted e
      | exact regular_rangeSlider inserted e
      | exact regular_multiSlider inserted e
      | exact regular_characters inserted e
      | exact regular_menu inserted e
      | exact regular_multiChoice inserted e
      | exact ensures_ok (regular_textElement inserted e)
      | exact regular_stepper inserted hfixed e
      | exact regular_listing e
      | exact regular_meter inserted e
      | exact regular_readout inserted hfixed e
      | exact regular_matrix inserted e
      | exact regular_canvas inserted e
      | exact regular_keyboard inserted e
      | exact regular_pad inserted e
      | exact regular_stepGrid inserted e
      | exact ensures_ok (regular_xyPad inserted e)
      | exact ensures_ok (regular_loopPoints inserted)
      | exact regular_harmonics inserted e
      | exact ensures_ok (regular_container hfixed s e hchildren)
      | exact regular_decoration hgraphic

/-- **The node of an element**: its fragment with the attributes that all elements have, which
stand before those of its own. -/
theorem exists_of_elementNode {s : PageSetting} {e : Element} {inner : List Node} {n : Node}
    (h : elementNode s e inner = .ok n) :
    ∃ f domId more, fragment s e inner = .ok f ∧ e.domId = .ok domId
      ∧ n = .element f.tag (("id", .text domId)
          :: ("class", .text (classes e (Value.find? f.attributes "class")))
          :: ("data-type", .text e.kind.name) :: more) f.body
      ∧ ∀ a ∈ more, a ∈ f.attributes ∨ a.1 ∈ ["data-parameter-id", "hidden"] := by
  obtain ⟨f, hf, h⟩ := (bind_eq_ok_iff _ _ _).mp h
  obtain ⟨domId, hdomId, h⟩ := (bind_eq_ok_iff _ _ _).mp h
  have hhidden : ∀ a ∈ (if e.flag "visible" then [] else [("hidden", Value.bool true)]),
      a.1 = "hidden" := by
    split <;> simp
  obtain ⟨parameter, hparameter, rfl⟩ : ∃ parameter : Attributes,
      (∀ a ∈ parameter, a.1 = "data-parameter-id")
        ∧ n = tag f.tag ([("id", .text domId), ("class", .text (classes e
            (Value.find? f.attributes "class"))), ("data-type", .text e.kind.name)] ++ parameter
              ++ (f.attributes.filter fun a => a.1 ≠ "class")
              ++ if e.flag "visible" then [] else [("hidden", Value.bool true)]) f.body := by
    dsimp only at h
    split at h
    next =>
      obtain ⟨parameter, _, h⟩ := (bind_eq_ok_iff _ _ _).mp h
      cases h
      exact ⟨_, by simp, rfl⟩
    next =>
      cases h
      exact ⟨[], by simp, rfl⟩
  refine ⟨f, domId, parameter ++ (f.attributes.filter fun a => a.1 ≠ "class")
    ++ (if e.flag "visible" then [] else [("hidden", Value.bool true)]), hf, hdomId, ?_, ?_⟩
  · rw [tag, List.append_assoc, List.append_assoc, List.append_assoc]
    rfl
  · intro a ha
    rcases List.mem_append.mp ha with ha | ha
    · rcases List.mem_append.mp ha with ha | ha
      · exact Or.inr (by simp [hparameter a ha])
      · exact Or.inl (List.mem_of_mem_filter ha)
    · exact Or.inr (by simp [hhidden a ha])

/-- A regular element stays regular with other attributes of the vocabulary. -/
theorem Node.Regular.withAttributes {names more : List String} {tag : String} {as bs : Attributes}
    {body : List Node} (h : (Node.element tag as body).Regular names inserted)
    (hmore : ∀ name ∈ names, name ∈ more) (hbs : Names more bs) :
    (Node.element tag bs body).Regular more inserted := by
  cases h with
  | element htag _ hvoid hbody =>
    exact .element htag hbs hvoid fun n hn => (hbody n hn).mono hmore fun _ h => h
  | around htag _ hfull hmarkup => exact .around htag hbs hfull hmarkup

theorem Node.Regular.names {names : List String} {tag : String} {attributes : Attributes}
    {body : List Node} (h : (Node.element tag attributes body).Regular names inserted) :
    Names names attributes := by
  cases h with
  | element _ hnames => exact hnames
  | around _ hnames => exact hnames

/-- **The node of an element is regular.** -/
theorem regular_elementNode (hfixed : ∀ m ∈ fixedMarkup, inserted m) {s : PageSetting}
    {e : Element} (hgraphic : Ensures (fun n => ∃ m, n = .raw m ∧ inserted m) (graphic s e))
    {children : String} (hchildren : inserted children) :
    Ensures (Node.Regular attributeNames inserted) (elementNode s e (childNodes children)) := by
  intro n hn
  obtain ⟨f, domId, more, hf, _, rfl, hmore⟩ := exists_of_elementNode hn
  have hregular := regular_fragment hfixed hgraphic hchildren f hf
  refine hregular.withAttributes (fun _ => attributeNames_of_ownNames) ?_
  have hshared : Names attributeNames [("id", .text domId),
      ("class", .text (classes e (Value.find? f.attributes "class"))),
      ("data-type", .text e.kind.name)] := names_of rfl
  refine hshared.append fun a ha => ?_
  rcases hmore a ha with hown | hextra
  · exact attributeNames_of_ownNames (hregular.names a hown)
  · have hall : ∀ name ∈ ["data-parameter-id", "hidden"], name ∈ attributeNames := by decide
    exact hall _ hextra

end ControlSurface.Markup
