/-
  ControlSurface.Proofs.Markup.Intact
  ───────────────────────────────────
  No text of an element breaks out of its markup.  Whatever the fields hold, the markup of an
  element is read as the tokens of its node, and these are balanced (`element_reads_back`): its tags
  and attributes have names of a fixed vocabulary, its texts and values are what was put there, and
  markup that is put in whole stays inside the part that it is put into.
-/
import ControlSurface.Keyed
import ControlSurface.Proofs.Markup.Graphics
import ControlSurface.Proofs.Markup.Kinds

namespace ControlSurface.Markup

open ControlSurface.Outcome

/-! ## §1. Markup that is put in. -/

/-- What is put into the node of an element as markup: the markup of its children, its graphic, or
what the renderers write there themselves. -/
def Inserted (s : PageSetting) (e : Element) (children markup : String) : Prop :=
  markup ∈ fixedMarkup ∨ markup = children ∨ graphic s e = .ok (.raw markup)

/-- The graphic of an element is a prepared one, or a page ends the nodes of its own one where a
reader of SVG ends them. -/
def GraphicEndsAlike (s : PageSetting) (e : Element) : Prop :=
  ∀ source d, s.graphic? e.id = none →
    ((e.kind.svgField?.map e.get).getD .null).string = .ok source →
    Svg.parse true source = .ok d → ∀ m ∈ Svg.nodesIn (Svg.strip d).root, EndsAlike m

theorem isBalanced_fixedMarkup : ∀ m ∈ fixedMarkup, IsBalanced m := by decide +kernel

theorem isBalanced_empty : IsBalanced "" := ⟨[], tokens?_nil, rfl⟩

theorem isBalanced_of_graphic? {s : PageSetting} (h : ∀ g ∈ s.graphics, IsBalanced g.2)
    (id : Value) : Finds IsBalanced (s.graphic? id) := by
  have hfound : ∀ entries : List (Value × String), (∀ g ∈ entries, IsBalanced g.2) →
      Finds IsBalanced (Keyed.find? id entries) := by
    intro entries hentries
    induction entries with
    | nil => exact finds_none
    | cons g entries ih =>
      obtain ⟨hg, hrest⟩ := List.forall_mem_cons.mp hentries
      rw [Keyed.find?]
      split
      next => exact finds_some hg
      next => exact ih hrest
  exact hfound s.graphics h

/-- **The graphic of an element is balanced markup.** -/
theorem isBalanced_graphic {s : PageSetting} {e : Element}
    (hprepared : ∀ g ∈ s.graphics, IsBalanced g.2) (hown : GraphicEndsAlike s e) :
    Ensures (fun n => ∃ m, n = .raw m ∧ IsBalanced m) (graphic s e) := by
  intro n hn
  obtain ⟨m, rfl, hm⟩ := isGraphic_graphic s e n hn
  refine ⟨m, rfl, ?_⟩
  cases hm with
  | prepared h => exact isBalanced_of_graphic? hprepared e.id m h
  | nothing => exact isBalanced_empty
  | own hnone hsource hclean =>
    exact isBalanced_sanitize hclean fun d => hown _ d hnone hsource

/-! ## §2. The vocabulary of tokens. -/

/-- A token of the vocabulary: a tag with its attributes, or a character. -/
def Token.IsKnown : Token → Prop
  | .opening name attributes _ =>
    tagNames.contains name = true ∧ ∀ a ∈ attributes, a.1 ∈ attributeNames
  | .closing name => tagNames.contains name = true
  | .note => False
  | .char _ => True

/-- A token of the markup that an element gets from outside the renderers. -/
def FromOutside (s : PageSetting) (e : Element) (children : String) (t : Token) : Prop :=
  ∃ markup ts, (markup = children ∨ graphic s e = .ok (.raw markup))
    ∧ tokens? markup.toList = some ts ∧ t ∈ ts

theorem Token.isKnown_chars (cs : List Char) : ∀ t ∈ cs.map Token.char, t.IsKnown := by
  intro t ht
  obtain ⟨c, _, rfl⟩ := List.mem_map.mp ht
  exact trivial

theorem name_attributeToken? {a : String × Value} {b : String × Option String}
    (h : attributeToken? a = some b) : b.1 = a.1 := by
  obtain ⟨name, value⟩ := a
  cases value with
  | null => cases h
  | bool on =>
    cases on with
    | false => cases h
    | true =>
      cases h
      rfl
  | _ =>
    cases h
    rfl

/-- The attributes of a tag are read with names of the vocabulary. -/
theorem names_attributeToken? {attributes : Attributes} (h : Names attributeNames attributes) :
    ∀ b ∈ attributes.filterMap attributeToken?, b.1 ∈ attributeNames := by
  intro b hb
  obtain ⟨a, ha, hread⟩ := List.mem_filterMap.mp hb
  rw [name_attributeToken? hread]
  exact h a ha

/-- A token of a row of nodes is one of a node. -/
theorem mem_tokensOfAll? {body : List Node} {ts : List Token} {t : Token}
    (h : tokensOfAll? body = some ts) (ht : t ∈ ts) :
    ∃ n ∈ body, ∃ us, tokensOf? n = some us ∧ t ∈ us := by
  induction body generalizing ts with
  | nil =>
    cases h
    cases ht
  | cons n body ih =>
    obtain ⟨us, hus, h⟩ := Option.bind_eq_some_iff.mp h
    obtain ⟨vs, hvs, h⟩ := Option.bind_eq_some_iff.mp h
    cases h
    rcases List.mem_append.mp ht with ht | ht
    · exact ⟨n, List.mem_cons_self .., us, hus, ht⟩
    · obtain ⟨k, hk, ws, hws, htw⟩ := ih hvs ht
      exact ⟨k, List.mem_cons_of_mem n hk, ws, hws, htw⟩

/-- A token of an element is one of its tags or a token of what is in it. -/
theorem mem_tokensOf?_element {tag : String} {attributes : Attributes} {body : List Node}
    {ts : List Token} {t : Token} (h : tokensOf? (.element tag attributes body) = some ts)
    (ht : t ∈ ts) :
    t = .opening tag (attributes.filterMap attributeToken?) false ∨ t = .closing tag
      ∨ ∃ n ∈ body, ∃ us, tokensOf? n = some us ∧ t ∈ us := by
  rw [tokensOf?] at h
  split at h
  next =>
    cases h
    exact Or.inl (List.mem_singleton.mp ht)
  next =>
    obtain ⟨us, hus, h⟩ := Option.map_eq_some_iff.mp h
    cases h
    rcases List.mem_cons.mp ht with rfl | ht
    · exact Or.inl rfl
    · rcases List.mem_append.mp ht with ht | ht
      · exact Or.inr (Or.inr (mem_tokensOfAll? hus ht))
      · exact Or.inr (Or.inl (List.mem_singleton.mp ht))

/-- **The tokens of a regular tree are of the vocabulary**, apart from those of the markup that is
put into it. -/
theorem Node.Regular.tokens_known {inserted : String → Prop} {n : Node}
    (h : n.Regular attributeNames inserted) {ts : List Token} (hts : tokensOf? n = some ts)
    {t : Token} (ht : t ∈ ts) :
    t.IsKnown ∨ ∃ markup us, inserted markup ∧ tokens? markup.toList = some us ∧ t ∈ us := by
  induction h generalizing ts with
  | text s =>
    cases hts
    exact Or.inl (Token.isKnown_chars _ t ht)
  | element htag hnames _ _ ih =>
    rcases mem_tokensOf?_element hts ht with rfl | rfl | ⟨k, hk, us, hus, htu⟩
    · exact Or.inl ⟨htag, names_attributeToken? hnames⟩
    · exact Or.inl htag
    · exact ih k hk hus htu
  | @around tag attributes markup htag hnames _ hmarkup =>
    rcases mem_tokensOf?_element hts ht with rfl | rfl | ⟨k, hk, us, hus, htu⟩
    · exact Or.inl ⟨htag, names_attributeToken? hnames⟩
    · exact Or.inl htag
    · rw [List.mem_singleton.mp hk] at hus
      exact Or.inr ⟨markup, us, hmarkup, hus, htu⟩

/-- What the renderers put in themselves is characters. -/
theorem isKnown_fixedMarkup : ∀ m ∈ fixedMarkup, ∀ ts, tokens? m.toList = some ts →
    ∀ t ∈ ts, t.IsKnown := by
  have hread : ∀ m ∈ fixedMarkup, (tokens? m.toList).any fun ts =>
      ts.all fun t => match t with | .char _ => true | _ => false := by decide +kernel
  intro m hm ts hts t ht
  have hall := hread m hm
  rw [hts] at hall
  have hchar := List.all_eq_true.mp hall t ht
  cases t with
  | char c => exact trivial
  | _ => cases hchar

/-! ## §3. Elements. -/

/-- **The markup of an element reads back.**  Whatever the fields of an element hold, its markup is
read as the tokens of its node and as nothing else, and these are balanced: every text and every
value is read as it was put there, and a tag or an attribute whose name is not of the vocabulary
comes from markup that was put in whole, as the children or the graphic of the element.  Prepared
graphics and the children have to be balanced. -/
theorem element_reads_back {s : PageSetting} {e : Element} {children out : String}
    (hprepared : ∀ g ∈ s.graphics, IsBalanced g.2) (hown : GraphicEndsAlike s e)
    (hchildren : IsBalanced children) (h : renderElement s e children = .ok out) :
    ∃ n ts, elementNode s e (childNodes children) = .ok n
      ∧ tokens? out.toList = some ts ∧ Balanced ts ∧ tokensOf? n = some ts
      ∧ n.Regular attributeNames (Inserted s e children)
      ∧ ∀ t ∈ ts, t.IsKnown ∨ FromOutside s e children t := by
  obtain ⟨n, hn, hout⟩ := (bind_eq_ok_iff _ _ _).mp h
  cases hout
  have hgraphic := isBalanced_graphic hprepared hown
  have hregular : n.Regular attributeNames (Inserted s e children) := by
    have hfixed : ∀ m ∈ fixedMarkup, Inserted s e children m := fun m => Or.inl
    refine regular_elementNode hfixed ?_ (Or.inr (Or.inl rfl)) n hn
    intro k hk
    obtain ⟨m, rfl, _⟩ := hgraphic k hk
    exact ⟨m, rfl, Or.inr (Or.inr hk)⟩
  have hbalanced : ∀ m, Inserted s e children m → IsBalanced m := by
    rintro m (hm | rfl | hm)
    · exact isBalanced_fixedMarkup m hm
    · exact hchildren
    · obtain ⟨k, hk, hread⟩ := hgraphic _ hm
      cases hk
      exact hread
  obtain ⟨ts, hts, hread⟩ := readsAs_print (fun _ => isTagName_of_attribute) hbalanced hregular
  refine ⟨n, ts, hn, hread.tokens?, hread.balanced, hts, hregular, fun t ht => ?_⟩
  rcases hregular.tokens_known hts ht with hknown | ⟨m, us, hm | hm, hus, htu⟩
  · exact Or.inl hknown
  · exact Or.inl (isKnown_fixedMarkup m hm us hus t htu)
  · exact Or.inr ⟨m, us, hm, hus, htu⟩

/-- A graphic with a name and an SVG of its own. -/
def drawing (name svg : String) : Element :=
  ⟨.svgGraphic, Element.assign .svgGraphic
    [("id", .text "logo"), ("name", .text name), ("svg_content", .text svg)]⟩

/-- The setting of a window in which a graphic is prepared for another element. -/
def drawingSetting : PageSetting :=
  { PageSetting.ofWindow default with graphics := [(.text "icon", "<svg></svg>")] }

/-- A name with a bracket and a quote around a graphic with an instruction, a comment and a tag. -/
theorem drawing_reads_back :
    ∃ out ts, renderElement drawingSetting
        (drawing "\"><b>" "<?xml version='1.0'?><svg><!-- a > b --><g id='&lt;'/></svg>") "" = .ok out
      ∧ tokens? out.toList = some ts ∧ Balanced ts := by
  obtain ⟨out, hout⟩ : ∃ out, renderElement drawingSetting
      (drawing "\"><b>" "<?xml version='1.0'?><svg><!-- a > b --><g id='&lt;'/></svg>") "" = .ok out :=
    exists_of_isOk (by decide +kernel)
  have hprepared : ∀ g ∈ drawingSetting.graphics, IsBalanced g.2 := by decide +kernel
  have hown : GraphicEndsAlike drawingSetting
      (drawing "\"><b>" "<?xml version='1.0'?><svg><!-- a > b --><g id='&lt;'/></svg>") := by
    intro source d _ hsource hd
    have hall : (Svg.parse true
        "<?xml version='1.0'?><svg><!-- a > b --><g id='&lt;'/></svg>").toOption.all
          (fun d => decide (∀ m ∈ Svg.nodesIn (Svg.strip d).root, EndsAlike m)) = true := by
      decide +kernel
    cases hsource
    rw [hd] at hall
    exact of_decide_eq_true hall
  obtain ⟨_, ts, _, hts, hbalanced, _⟩ := element_reads_back hprepared hown isBalanced_empty hout
  exact ⟨out, ts, hout, hts, hbalanced⟩

/-- The markup of a graphic named Logo around an SVG. -/
def logoMarkup (svg : String) : String :=
  "<div id=\"logo\" class=\"element decor-element svggraphic-element\" data-type=\"svggraphic\" "
    ++ "role=\"img\" aria-label=\"Logo\">" ++ svg ++ "</div>"

/-- A graphic brings the tags of its SVG, and a comment that a page ends before a reader of SVG does
leaves tags that are not balanced. -/
theorem drawing_brings_tags :
    IsBalanced "" ∧ tagNames.contains "g" = false
      ∧ (renderElement (PageSetting.ofWindow default) (drawing "Logo" "<svg><g/></svg>") ""
            = .ok (logoMarkup "<svg><g/></svg>")
          ∧ ∃ ts, tokens? (logoMarkup "<svg><g/></svg>").toList = some ts
            ∧ .opening "g" [] true ∈ ts)
      ∧ renderElement (PageSetting.ofWindow default) (drawing "Logo" "<svg><!--><g>--></svg>") ""
            = .ok (logoMarkup "<svg><!--><g>--></svg>")
          ∧ ¬ IsBalanced (logoMarkup "<svg><!--><g>--></svg>") := by
  have hgroup : (tokens? (logoMarkup "<svg><g/></svg>").toList).any
      (fun ts => decide (Token.opening "g" [] true ∈ ts)) = true := by decide +kernel
  obtain ⟨ts, hts, hmem⟩ := (Option.any_eq_true _ _).mp hgroup
  refine ⟨isBalanced_empty, by decide, ⟨?_, ts, hts, of_decide_eq_true hmem⟩, ?_, ?_⟩
  · decide +kernel
  · decide +kernel
  · decide +kernel

end ControlSurface.Markup
