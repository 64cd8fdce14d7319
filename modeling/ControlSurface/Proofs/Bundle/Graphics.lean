/-
  ControlSurface.Proofs.Bundle.Graphics
  ─────────────────────────────────────
  Which graphics survive being optimized.  An optimized graphic has lost the document type that its
  entities were declared in, so it can be sanitized just when no reference is left in it
  (`sanitizes_optimized_iff`).  A window's graphics are prepared element by element, and what is
  stored and reported of them is told by their sources (`graphics_records`).

  Main result:
    * `optimizing_keeps_iff` — where graphics are prepared without optimizing, they are prepared
      with it as well, and one that was stored is stored again, with markup and without a report,
      iff no reference to an entity is left in its optimized tree.
-/
import ControlSurface.Bundle.Window
import ControlSurface.Proofs.Keyed.Entries
import ControlSurface.Proofs.Svg.Reduction
import ControlSurface.Proofs.Xml.Refusing

namespace ControlSurface.Bundle

open ControlSurface.Outcome ControlSurface.Svg ControlSurface.Text ControlSurface.Xml

/-! ## §1. Sanitizing what was optimized. -/

theorem sanitize_eq_ok_iff {text markup : String} :
    sanitize text = .ok markup ↔ ∃ d, parse true text = .ok d ∧ markup = print (strip d).root := by
  rw [sanitize, bind_eq_ok_iff]
  constructor
  · rintro ⟨d, hd, h⟩
    cases h
    exact ⟨d, hd, rfl⟩
  · rintro ⟨d, hd, rfl⟩
    exact ⟨d, hd, rfl⟩

/-- Markup that was sanitized holds at least the brackets of its root. -/
theorem sanitized_ne_empty {text markup : String} (h : sanitize text = .ok markup) :
    markup ≠ "" := by
  obtain ⟨d, hd, rfl⟩ := sanitize_eq_ok_iff.mp h
  obtain ⟨_, hmarkup, _⟩ := root_of_parse hd
  intro hempty
  have htext : nodeText (strip d).root = [] := by
    rw [← String.toList_ofList (l := nodeText (strip d).root), ← Xml.print, hempty]
    rfl
  cases hroot : d.root with
  | element name declared attributes children =>
    rw [strip, hroot] at htext
    dsimp only at htext
    rw [dropBelow, mapAttributes, nodeText_element] at htext
    cases htext
  | _ =>
    rw [hroot] at hmarkup
    cases hmarkup

/-- **An optimized graphic is sanitized just when no reference is left in it.** -/
theorem sanitizes_optimized_iff {text : String} {d : Document} (h : parse false text = .ok d) :
    (∃ markup, sanitize (print (optimizeTree d)) = .ok markup)
      ↔ holdsReference (optimizeTree d) = false := by
  constructor
  · rintro ⟨markup, hmarkup⟩
    obtain ⟨again, hagain, _⟩ := sanitize_eq_ok_iff.mp hmarkup
    -- the printed tree is that of a regular element, whose text is read just without references
    have hread := (parse_eq_ok_iff.mp hagain).1
    rw [trim_print_optimizeTree h] at hread
    have hregular : (readBack d).Regular true [] := regular_of_keeps (regular_readBack h)
    have hsome := isSome_read?_nodeText hregular (proper_readBack h) (isSome_name?_readBack h)
    rw [hread, readBack, holdsReference_rescope] at hsome
    exact (Bool.not_eq_true' _).mp hsome.symm
  · intro hplain
    exact ⟨_, sanitize_eq_ok_iff.mpr ⟨_, parse_optimized h hplain true, rfl⟩⟩

/-- No reference is left in the tree that optimizing makes of a source, if it makes one. -/
def KeepsNoReference (source : String) : Prop :=
  ∀ d, parse false source = .ok d → holdsReference (optimizeTree d) = false

/-- A source that is sanitized as it stands is sanitized after being optimized iff that leaves no
reference. -/
theorem sanitizes_optimizedOrSame_iff {source markup : String}
    (h : sanitize source = .ok markup) :
    (∃ smaller, sanitize (optimizedOrSame source).svg = .ok smaller) ↔ KeepsNoReference source := by
  cases hparse : parse false source with
  | ok d =>
    obtain ⟨r, hr, hsvg⟩ := optimize_of_parse hparse
    have hsame : (optimizedOrSame source).svg = print (optimizeTree d) := by
      rw [optimizedOrSame, hr]
      exact hsvg
    rw [hsame, sanitizes_optimized_iff hparse]
    constructor
    · intro hplain d' hd'
      cases hparse.symm.trans hd'
      exact hplain
    · exact fun hall => hall d hparse
  | error fault =>
    -- what cannot be optimized stays as it is
    have hsame : (optimizedOrSame source).svg = source := by
      rw [optimizedOrSame, optimize, hparse]
      rfl
    rw [hsame]
    refine iff_of_true ⟨markup, h⟩ fun d hd => ?_
    cases hparse.symm.trans hd

/-! ## §2. What is stored and reported. -/

/-- The source of the inline graphic of an element; it may be blank. -/
def svgSource (e : Element) : Except Fault String :=
  ((e.kind.svgField?.map e.get).getD .null).string

/-- The source of the inline graphic of an element, if it has one that is not blank. -/
def inline? (e : Element) : Option String :=
  (svgSource e).toOption.filter fun source => !Text.isBlankString source

/-- The markup that is made of a source, if it can be read. -/
def markup? (optimize : Bool) (source : String) : Option String :=
  (sanitize (if optimize then (optimizedOrSame source).svg else source)).toOption

/-- What is reported of the graphic of an element that is left out. -/
def leftOut (e : Element) : String :=
  s!"SVG on \"{e.name.toText}\" could not be parsed and was left out"

/-- What is stored for the graphic of an element, and what is reported of it. -/
def record? (optimize : Bool) (e : Element) : Option ((Value × String) × Option String) :=
  (inline? e).map fun source =>
    match markup? optimize source with
    | some markup => ((e.id, markup), none)
    | none => ((e.id, ""), some (leftOut e))

/-- Graphics of elements as they are stored, the last one of an identity counting, and reported. -/
structure Records (optimize : Bool) (elements : List Element) (g : Graphics) : Prop where
  assets : g.assets = Keyed.ofList ((elements.filterMap (record? optimize)).map Prod.fst)
  warnings : g.warnings = (elements.filterMap (record? optimize)).filterMap Prod.snd

/-- An element adds what is stored and reported of its graphic. -/
theorem addGraphic_eq (optimize : Bool) (g : Graphics) (e : Element) :
    addGraphic optimize g e = (svgSource e).bind fun source =>
      if Text.isBlankString source then .ok g
      else if !e.id.isKey then .error .wrongType
      else .ok
        { results := if optimize then g.results ++ [optimizedOrSame source] else g.results
          assets := Keyed.put e.id ((markup? optimize source).getD "") g.assets
          warnings := g.warnings
            ++ if (markup? optimize source).isSome then [] else [leftOut e] } := by
  refine bind_congr fun source => ?_
  by_cases hblank : Text.isBlankString source = true
  · rw [if_pos hblank, if_pos hblank]
    rfl
  · rw [if_neg hblank, if_neg hblank]
    by_cases hkey : (!e.id.isKey) = true
    · rw [if_pos hkey, if_pos hkey]
      rfl
    · rw [if_neg hkey, if_neg hkey]
      rw [markup?]
      dsimp only
      cases sanitize (if optimize then (optimizedOrSame source).svg else source) with
      | ok markup =>
        exact congrArg (fun w => Except.ok (Graphics.mk _ _ w)) (List.append_nil _).symm
      | error fault => rfl

/-- What an element adds to the graphics before it is what its record tells. -/
theorem addGraphic_record {optimize : Bool} {g g' : Graphics} {e : Element}
    (h : addGraphic optimize g e = .ok g') :
    g'.assets = Keyed.putAll g.assets ((record? optimize e).toList.map Prod.fst)
      ∧ g'.warnings = g.warnings ++ (record? optimize e).toList.filterMap Prod.snd := by
  rw [addGraphic_eq] at h
  obtain ⟨source, hsource, h⟩ := (bind_eq_ok_iff _ _ _).mp h
  by_cases hblank : Text.isBlankString source = true
  · rw [if_pos hblank] at h
    cases h
    have hnone : record? optimize e = none := by
      rw [record?, inline?, hsource]
      simp [Except.toOption, Option.filter, hblank]
    rw [hnone]
    exact ⟨rfl, (List.append_nil _).symm⟩
  · rw [if_neg hblank] at h
    have hsome : inline? e = some source := by
      rw [inline?, hsource]
      simp [Except.toOption, Option.filter, hblank]
    by_cases hkey : (!e.id.isKey) = true
    · rw [if_pos hkey] at h
      cases h
    · rw [if_neg hkey] at h
      cases h
      rw [record?, hsome, Option.map_some]
      cases markup? optimize source with
      | some markup => exact ⟨rfl, rfl⟩
      | none => exact ⟨rfl, rfl⟩

theorem foldlM_addGraphic {optimize : Bool} {elements : List Element} {g g' : Graphics}
    (h : elements.foldlM (addGraphic optimize) g = .ok g') :
    g'.assets = Keyed.putAll g.assets ((elements.filterMap (record? optimize)).map Prod.fst)
      ∧ g'.warnings = g.warnings ++ (elements.filterMap (record? optimize)).filterMap Prod.snd := by
  induction elements generalizing g with
  | nil =>
    cases h
    exact ⟨rfl, (List.append_nil _).symm⟩
  | cons e rest ih =>
    rw [List.foldlM_cons] at h
    obtain ⟨between, hstep, hrest⟩ := (bind_eq_ok_iff _ _ _).mp h
    obtain ⟨hassets, hwarnings⟩ := addGraphic_record hstep
    obtain ⟨hassets', hwarnings'⟩ := ih hrest
    -- records are added in the order of their elements
    have hcons : (e :: rest).filterMap (record? optimize)
        = (record? optimize e).toList ++ rest.filterMap (record? optimize) := by
      rw [List.filterMap_cons]
      cases record? optimize e <;> rfl
    rw [hassets', hassets, hwarnings', hwarnings, hcons, List.map_append, List.filterMap_append,
      List.append_assoc, Keyed.putAll, Keyed.putAll, Keyed.putAll, List.foldl_append]
    exact ⟨rfl, rfl⟩

/-- **Graphics are stored and reported as their sources tell**, each by itself. -/
theorem graphics_records {optimize : Bool} {elements : List Element} {g : Graphics}
    (h : graphics optimize elements = .ok g) : Records optimize elements g := by
  obtain ⟨hassets, hwarnings⟩ := foldlM_addGraphic h
  exact ⟨hassets, hwarnings⟩

/-- Whether the graphic of an element can be added does not depend on whether it is optimized, nor
on those before it. -/
theorem isOk_addGraphic (optimize optimize' : Bool) (g g' : Graphics) (e : Element) :
    (addGraphic optimize g e).isOk = (addGraphic optimize' g' e).isOk := by
  rw [addGraphic_eq, addGraphic_eq]
  cases svgSource e with
  | error fault => rfl
  | ok source =>
    show Except.isOk (if _ then _ else _) = Except.isOk (if _ then _ else _)
    split_ifs <;> rfl

theorem isOk_foldlM_addGraphic (optimize optimize' : Bool) (elements : List Element)
    (g g' : Graphics) : (elements.foldlM (addGraphic optimize) g).isOk
      = (elements.foldlM (addGraphic optimize') g').isOk := by
  induction elements generalizing g g' with
  | nil => rfl
  | cons e rest ih =>
    rw [List.foldlM_cons, List.foldlM_cons]
    exact isOk_bind_congr (isOk_addGraphic optimize optimize' g g' e) ih

/-! ## §3. What optimizing costs. -/

theorem record?_eq_some_iff {optimize : Bool} {e : Element} {markup : String} :
    record? optimize e = some ((e.id, markup), none)
      ↔ ∃ source, inline? e = some source ∧ markup? optimize source = some markup := by
  rw [record?, Option.map_eq_some_iff]
  refine exists_congr fun source => and_congr_right fun _ => ?_
  cases markup? optimize source with
  | some found => simp
  | none => simp

theorem markup?_eq_some_iff {optimize : Bool} {source markup : String} :
    markup? optimize source = some markup
      ↔ sanitize (if optimize then (optimizedOrSame source).svg else source) = .ok markup := by
  rw [markup?]
  cases sanitize (if optimize then (optimizedOrSame source).svg else source) with
  | ok found => simp [Except.toOption]
  | error fault => simp [Except.toOption]

theorem record?_of_none {optimize : Bool} {e : Element} {source : String}
    (hsource : inline? e = some source) (h : markup? optimize source = none) :
    record? optimize e = some ((e.id, ""), some (leftOut e)) := by
  rw [record?, hsource, Option.map_some, h]

/-- A graphic in which a reference is left is left out itself. -/
theorem markup?_of_reference {source markup : String} {d : Document}
    (h : sanitize source = .ok markup) (hd : parse false source = .ok d)
    (hreference : holdsReference (optimizeTree d) = true) : markup? true source = none := by
  -- were it sanitized, no reference would be left in it
  refine Option.eq_none_iff_forall_ne_some.mpr fun smaller hsmaller => ?_
  have hsanitized : sanitize (optimizedOrSame source).svg = .ok smaller := by
    rwa [markup?_eq_some_iff, if_pos rfl] at hsmaller
  have hkept := (sanitizes_optimizedOrSame_iff h).mp ⟨smaller, hsanitized⟩
  rw [hkept d hd] at hreference
  cases hreference

/-- **Optimizing costs the graphics in which a reference is left, and no others.**  If the graphics
of some elements are prepared as they are, they are also prepared if they are to be optimized.  An
element for whose graphic markup is stored as it is, without a report, is stored markup that is not
empty when it is optimized, without a report, iff no reference to an entity is left in the tree that
optimizing makes of its source. -/
theorem optimizing_keeps_iff {elements : List Element} {plain : Graphics}
    (h : graphics false elements = .ok plain) :
    ∃ optimized, graphics true elements = .ok optimized
      ∧ Records false elements plain ∧ Records true elements optimized
      ∧ ∀ e ∈ elements, ∀ source markup, inline? e = some source →
          record? false e = some ((e.id, markup), none) →
          ((∃ smaller, record? true e = some ((e.id, smaller), none) ∧ smaller ≠ "")
            ↔ KeepsNoReference source) := by
  -- only a source or an identity can make preparing fail, and they are the same
  have hok := isOk_of_eq h
  rw [graphics, isOk_foldlM_addGraphic false true elements _ ⟨[], [], []⟩] at hok
  obtain ⟨optimized, hoptimized⟩ := exists_of_isOk hok
  refine ⟨optimized, hoptimized, graphics_records h, graphics_records hoptimized, ?_⟩
  intro e _ source markup hsource hrecord
  -- a record without a report tells that the source was sanitized
  have hrecorded (optimize : Bool) (m : String) : record? optimize e = some ((e.id, m), none)
      ↔ sanitize (if optimize then (optimizedOrSame source).svg else source) = .ok m := by
    rw [record?_eq_some_iff, hsource, ← markup?_eq_some_iff]
    simp
  have hplain : sanitize source = .ok markup := (hrecorded false markup).mp hrecord
  have hsmaller (m : String) : record? true e = some ((e.id, m), none)
      ↔ sanitize (optimizedOrSame source).svg = .ok m := hrecorded true m
  rw [← sanitizes_optimizedOrSame_iff hplain]
  refine exists_congr fun smaller => ?_
  rw [hsmaller smaller]
  exact and_iff_left_of_imp sanitized_ne_empty

/-! ## §4. Two graphics with an entity. -/

deriving instance DecidableEq for Doctype

/-- An element that shows a graphic. -/
def drawing (source : String) : Element :=
  ⟨.svgGraphic, [("id", .text "g"), ("name", .text "mark"), ("svg_content", .text source)]⟩

/-- The text of a graphic whose document type declares an entity. -/
def declaring (root : String) : String := "<!DOCTYPE svg [<!ENTITY e \"1.25\">]>" ++ root

/-- A document type that declares the entity. -/
def declared : Doctype := { Doctype.empty with entities := [("e", .internal "1.25".toList)] }

/-- A graphic that declares the entity is read from its root on. -/
theorem exists_parse_declaring (root : String)
    (htrim : trim (declaring root).toList = (declaring root).toList) (hlines : '\r' ∉ root.toList)
    (hentity : declaration? Doctype.empty ('<' :: ("!ENTITY e \"1.25\">]>".toList ++ root.toList))
      = some (declared, ']' :: '>' :: root.toList))
    (keepsNotes : Bool) (p : Document → Bool)
    (h : (readBehind keepsNotes declared root.toList).any (fun d =>
      decide ((d.root.name?.map Name.base).getD "" = rootName) && p d) = true) :
    ∃ d, parse keepsNotes (declaring root) = .ok d ∧ p d = true := by
  have hread : read? keepsNotes (trim (declaring root).toList)
      = readBehind keepsNotes declared root.toList := by
    have hopening : "<!DOCTYPE svg [<!ENTITY e \"1.25\">]>".toList
        = "<!DOCTYPE svg [".toList ++ '<' :: "!ENTITY e \"1.25\">]>".toList := by decide
    rw [htrim]
    unfold declaring
    rw [String.toList_append, hopening, List.append_assoc, List.cons_append]
    refine read?_declared hentity (by simp) fun hmem => ?_
    rcases List.mem_append.mp hmem with hmem | hmem
    · exact absurd hmem (by decide)
    · exact hlines hmem
  cases hfound : readBehind keepsNotes declared root.toList with
  | none =>
    rw [hfound] at h
    cases h
  | some d =>
    rw [hfound, Option.any_some, Bool.and_eq_true, decide_eq_true_iff] at h
    exact ⟨d, parse_eq_ok_iff.mpr ⟨hread.trans hfound, h.1⟩, h.2⟩

theorem exists_graphics_drawing (source : String) (h : isBlankString source = false) :
    ∃ plain, graphics false [drawing source] = .ok plain := by
  refine exists_of_isOk ?_
  rw [graphics, List.foldlM_cons, addGraphic_eq]
  show Except.isOk ((if isBlankString source = true then _ else _ : Except Fault _) >>= _) = true
  rw [h]
  rfl

/-- A graphic with an entity for a number, which is put in when the number is rounded. -/
def measured : String := declaring "<svg><path d=\"M &e; 2\"/></svg>"

theorem measured_kept :
    ∃ plain optimized smaller, graphics false [drawing measured] = .ok plain
      ∧ graphics true [drawing measured] = .ok optimized
      ∧ Records true [drawing measured] optimized
      ∧ record? true (drawing measured) = some ((.text "g", smaller), none) ∧ smaller ≠ "" := by
  obtain ⟨plain, hplain⟩ := exists_graphics_drawing measured (by decide)
  have hsource : inline? (drawing measured) = some measured := by decide
  have hread := exists_parse_declaring "<svg><path d=\"M &e; 2\"/></svg>" (by decide)
    (by decide) (by decide +kernel)
  obtain ⟨d, hd, _⟩ := hread true (fun _ => true) (by decide +kernel)
  have hrecord : record? false (drawing measured)
      = some (((drawing measured).id, print (strip d).root), none) :=
    record?_eq_some_iff.mpr
      ⟨measured, hsource, markup?_eq_some_iff.mpr (sanitize_eq_ok_iff.mpr ⟨d, hd, rfl⟩)⟩
  have hkept : KeepsNoReference measured := by
    obtain ⟨given, hgiven, hnone⟩ :=
      hread false (fun d => !holdsReference (optimizeTree d)) (by decide +kernel)
    intro d' hd'
    cases hgiven.symm.trans hd'
    exact (Bool.not_eq_true' _).mp hnone
  obtain ⟨optimized, hoptimized, _, hrecords, hiff⟩ := optimizing_keeps_iff hplain
  obtain ⟨smaller, hsmaller, hne⟩ :=
    (hiff _ (List.mem_singleton_self _) measured _ hsource hrecord).mpr hkept
  exact ⟨plain, optimized, smaller, hplain, hoptimized, hrecords, hsmaller, hne⟩

/-- A graphic with an entity for what it says. -/
def spoken : String := declaring "<svg><text>&e;</text></svg>"

/-- Markup of the graphic is stored as long as it is not optimized. -/
theorem spoken_lost :
    ∃ plain optimized, graphics false [drawing spoken] = .ok plain
      ∧ graphics true [drawing spoken] = .ok optimized
      ∧ plain.assets = [(.text "g", "<svg><text>&e;</text></svg>")] ∧ plain.warnings = []
      ∧ optimized.assets = [(.text "g", "")]
      ∧ optimized.warnings = ["SVG on \"mark\" could not be parsed and was left out"] := by
  obtain ⟨plain, hplain⟩ := exists_graphics_drawing spoken (by decide)
  have hok := isOk_of_eq hplain
  rw [graphics, isOk_foldlM_addGraphic false true _ _ ⟨[], [], []⟩] at hok
  obtain ⟨optimized, hoptimized⟩ := exists_of_isOk hok
  have hsource : inline? (drawing spoken) = some spoken := by decide
  have hread := exists_parse_declaring "<svg><text>&e;</text></svg>" (by decide)
    (by decide) (by decide +kernel)
  obtain ⟨d, hd, hprinted⟩ :=
    hread true (fun d => print (strip d).root == "<svg><text>&e;</text></svg>") (by decide +kernel)
  obtain ⟨given, hgiven, hholds⟩ :=
    hread false (fun d => holdsReference (optimizeTree d)) (by decide +kernel)
  have hsanitized : sanitize spoken = .ok "<svg><text>&e;</text></svg>" :=
    sanitize_eq_ok_iff.mpr ⟨d, hd, (eq_of_beq hprinted).symm⟩
  have hstored : record? false (drawing spoken)
      = some ((.text "g", "<svg><text>&e;</text></svg>"), none) :=
    record?_eq_some_iff.mpr ⟨spoken, hsource, markup?_eq_some_iff.mpr hsanitized⟩
  have hreported : record? true (drawing spoken)
      = some ((.text "g", ""), some "SVG on \"mark\" could not be parsed and was left out") :=
    record?_of_none hsource (markup?_of_reference hsanitized hgiven hholds)
  have hp := graphics_records hplain
  have ho := graphics_records hoptimized
  refine ⟨plain, optimized, hplain, hoptimized, ?_, ?_, ?_, ?_⟩
  · rw [hp.assets, List.filterMap_cons_some hstored]
    rfl
  · rw [hp.warnings, List.filterMap_cons_some hstored]
    rfl
  · rw [ho.assets, List.filterMap_cons_some hreported]
    rfl
  · rw [ho.warnings, List.filterMap_cons_some hreported]
    rfl

end ControlSurface.Bundle
