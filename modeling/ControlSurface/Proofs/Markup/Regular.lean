/-
  ControlSurface.Proofs.Markup.Regular
  ────────────────────────────────────
  Regular trees: their tags and attributes have names from fixed lists, and text that is markup
  already fills the whole inside of an element.  Printed, a regular tree is read as the tokens that
  its nodes stand for, and these are balanced (`readsAs_print`).
-/
import ControlSurface.Markup.Node
import ControlSurface.Proofs.Markup.Reading
import ControlSurface.Proofs.Number.Plain

namespace ControlSurface.Markup

open ControlSurface.Text

/-! ## §1. The vocabulary. -/

/-- The names of the tags of elements and their parts. -/
def tagNames : List String :=
  ["div", "span", "button", "label", "input", "select", "option", "datalist", "pre", "nav", "ul",
   "ol", "li", "table", "tr", "th", "td", "canvas", "img", "svg", "path", "line", "circle"]

/-- The names of the attributes of parts of elements. -/
def partAttributes : List String :=
  ["class", "style", "role", "type", "tabindex", "hidden", "value", "selected", "checked", "list",
   "name", "for", "placeholder", "maxlength", "scope", "src", "alt", "width", "height", "viewBox",
   "d", "fill", "stroke-width", "stroke-linecap", "x1", "y1", "x2", "y2", "cx", "cy", "r",
   "aria-label", "aria-hidden", "aria-valuemin", "aria-valuemax", "aria-valuenow",
   "aria-orientation", "aria-pressed", "aria-checked", "aria-selected", "aria-expanded",
   "aria-haspopup", "aria-current", "data-index", "data-style", "data-mode", "data-position",
   "data-orientation", "data-label-position", "data-navigate-window", "data-max-selections",
   "data-folder", "data-content-type", "data-source", "data-destination", "data-active",
   "data-note"]

/-- The names of the attributes of elements. -/
def attributeNames : List String :=
  ["id", "data-type", "data-parameter-id", "data-custom-scrollbar"] ++ partAttributes

/-! ## §2. What a tree stands for. -/

/-- An attribute as it is read: its value is the text that was given, or the plain text of a
number; one that is true has no value, and one that is false or nothing is not there. -/
def attributeToken? (a : String × Value) : Option (String × Option String) :=
  match a.2 with
  | .null => none
  | .bool b => if b then some (a.1, none) else none
  | .int i => some (a.1, some ((Num.int i).plain Value.defaultPlaces))
  | .float x => some (a.1, some ((Num.float x).plain Value.defaultPlaces))
  | v => some (a.1, some v.toText)

mutual
/-- The tokens that a piece of markup stands for; markup inside it is read. -/
def tokensOf? : Node → Option (List Token)
  | .text s => some (s.toList.map .char)
  | .raw markup => tokens? markup.toList
  | .element tag attributes body =>
    let opening := Token.opening tag (attributes.filterMap attributeToken?) false
    if voidTags.contains tag then some [opening]
    else (tokensOfAll? body).map fun ts => opening :: (ts ++ [.closing tag])

/-- The tokens that pieces of markup stand for, one after the other. -/
def tokensOfAll? : List Node → Option (List Token)
  | [] => some []
  | n :: rest => do
    let ts ← tokensOf? n
    let us ← tokensOfAll? rest
    some (ts ++ us)
end

/-- A tree with names from the lists, in which markup that is `inserted` fills elements. -/
inductive Node.Regular (names : List String) (inserted : String → Prop) : Node → Prop
  | text (s : String) : Node.Regular names inserted (.text s)
  | element {tag : String} {attributes : Attributes} {body : List Node}
      (htag : tagNames.contains tag = true) (hnames : ∀ a ∈ attributes, a.1 ∈ names)
      (hvoid : voidTags.contains tag = true → body = [])
      (hbody : ∀ n ∈ body, Node.Regular names inserted n) :
      Node.Regular names inserted (.element tag attributes body)
  | around {tag : String} {attributes : Attributes} {markup : String}
      (htag : tagNames.contains tag = true) (hnames : ∀ a ∈ attributes, a.1 ∈ names)
      (hfull : voidTags.contains tag = false) (hmarkup : inserted markup) :
      Node.Regular names inserted (.element tag attributes [.raw markup])

/-! ## §3. Names. -/

instance (name : String) : Decidable (IsTagName name) :=
  decidable_of_iff (name ≠ "" ∧ name.toList.all isTagNameChar = true)
    ⟨fun h => ⟨h.1, List.all_eq_true.mp h.2⟩, fun h => ⟨h.ne_empty, List.all_eq_true.mpr h.chars⟩⟩

theorem isTagName_of_tag {tag : String} (h : tagNames.contains tag = true) : IsTagName tag := by
  have hall : ∀ name ∈ tagNames, IsTagName name := by decide
  exact hall tag (List.contains_iff_mem.mp h)

theorem isTagName_of_attribute {name : String} (h : name ∈ attributeNames) : IsTagName name := by
  have hall : ∀ name ∈ attributeNames, IsTagName name := by decide
  exact hall name h

theorem isVoid_of_tag {tag : String} (h : tagNames.contains tag = true) :
    isVoid tag = voidTags.contains tag := by
  have hall : ∀ name ∈ tagNames, isVoid name = voidTags.contains name := by decide
  exact hall tag (List.contains_iff_mem.mp h)

/-! ## §4. Attributes are read. -/

theorem toList_escape (s : String) : (Text.escape s).toList = s.toList.flatMap escapeChar :=
  String.toList_ofList

/-- Escaped text holds no mark that a tag or a value could begin or end with. -/
theorem not_mem_escape {mark : Char} (hmark : mark ∈ escapedMarks) (s : String) :
    mark ∉ (Text.escape s).toList := by
  rw [toList_escape]
  intro hmem
  obtain ⟨c, _, hc⟩ := List.mem_flatMap.mp hmem
  exact not_mem_escapeChar hmark c hc

theorem decode_escaped (s : String) : String.ofList (decode (Text.escape s).toList) = s := by
  have h := decode_escape s.toList []
  rw [List.append_nil, show decode [] = [] from rfl, List.append_nil] at h
  rw [toList_escape, h, String.ofList_toList]

/-- A number holds neither a quote nor a reference. -/
theorem plain_number (n : Num) :
    '"' ∉ (n.plain Value.defaultPlaces).toList ∧ '&' ∉ (n.plain Value.defaultPlaces).toList :=
  ⟨fun h => absurd (Number.plain_chars _ n _ h) (by decide),
    fun h => absurd (Number.plain_chars _ n _ h) (by decide)⟩

/-- **An attribute is read as it was given.** -/
theorem attributesFrom_text {a : String × Value} (ha : IsTagName a.1)
    (passed : List (String × Option String)) {c : Char} (hc : c = ' ' ∨ c = '>') (rest : List Char) :
    attributesFrom passed ((attributeText a).toList ++ c :: rest)
      = attributesFrom ((attributeToken? a).toList ++ passed) (c :: rest) := by
  have hquoted : ∀ (value : String), '"' ∉ value.toList →
      attributesFrom passed ((s!" {a.1}=\"{value}\"").toList ++ c :: rest)
        = attributesFrom ((a.1, some (String.ofList (decode value.toList))) :: passed) (c :: rest) := by
    intro value hvalue
    rw [← attributesFrom_value ha hvalue]
    show attributesFrom passed ((" " ++ a.1 ++ "=\"" ++ value ++ "\"").toList ++ c :: rest) = _
    simp
  have hnumber : ∀ (n : Num),
      attributesFrom passed ((s!" {a.1}=\"{n.plain Value.defaultPlaces}\"").toList ++ c :: rest)
        = attributesFrom ((a.1, some (n.plain Value.defaultPlaces)) :: passed) (c :: rest) := by
    intro n
    rw [hquoted _ (plain_number n).1, decode_of_not_mem (plain_number n).2, String.ofList_toList]
  have hescaped : ∀ (s : String),
      attributesFrom passed ((s!" {a.1}=\"{Text.escape s}\"").toList ++ c :: rest)
        = attributesFrom ((a.1, some s) :: passed) (c :: rest) := by
    intro s
    rw [hquoted _ (not_mem_escape (by decide) s), decode_escaped]
  obtain ⟨name, value⟩ := a
  cases value with
  | null => rfl
  | bool b =>
    cases b with
    | false => rfl
    | true =>
      show attributesFrom passed ((" " ++ name).toList ++ c :: rest)
        = attributesFrom ((name, none) :: passed) (c :: rest)
      rw [← attributesFrom_bare ha hc, String.toList_append]
      rfl
  | int i => exact hnumber (.int i)
  | float x => exact hnumber (.float x)
  | text s => exact hescaped s
  | list items => exact hescaped _
  | object fields => exact hescaped _

theorem attributesText_cons (a : String × Value) (attributes : Attributes) :
    (attributesText (a :: attributes)).toList
      = (attributeText a).toList ++ (attributesText attributes).toList := by
  rw [attributesText, List.map_cons, String.join_cons, String.toList_append]
  rfl

/-- An attribute is written after a space, if at all. -/
theorem attributeText_start (a : String × Value) :
    (attributeText a).toList = [] ∨ ∃ more, (attributeText a).toList = ' ' :: more := by
  have hspace : ∀ (name text : String),
      ∃ more, (s!" {name}=\"{text}\"").toList = ' ' :: more := by
    intro name text
    refine ⟨(name ++ "=\"" ++ text ++ "\"").toList, ?_⟩
    show (" " ++ name ++ "=\"" ++ text ++ "\"").toList = _
    simp
  obtain ⟨name, value⟩ := a
  cases value with
  | null => exact Or.inl rfl
  | bool b =>
    cases b with
    | false => exact Or.inl rfl
    | true => exact Or.inr ⟨name.toList, String.toList_append⟩
  | _ => exact Or.inr (hspace _ _)

/-- After the name or an attribute of a tag stands a space or the bracket. -/
theorem exists_after_attributes (attributes : Attributes) (rest : List Char) :
    ∃ c more, (attributesText attributes).toList ++ '>' :: rest = c :: more
      ∧ (c = ' ' ∨ c = '>') := by
  induction attributes with
  | nil => exact ⟨'>', rest, rfl, Or.inr rfl⟩
  | cons a attributes ih =>
    rw [attributesText_cons, List.append_assoc]
    rcases attributeText_start a with hnil | ⟨more, hmore⟩
    · rw [hnil]
      exact ih
    · rw [hmore]
      exact ⟨' ', _, rfl, Or.inl rfl⟩

/-- **The attributes of a tag are read as they were given.** -/
theorem attributesFrom_attributesText {attributes : Attributes}
    (h : ∀ a ∈ attributes, IsTagName a.1) (passed : List (String × Option String))
    (rest : List Char) :
    attributesFrom passed ((attributesText attributes).toList ++ '>' :: rest)
      = some (passed.reverse ++ attributes.filterMap attributeToken?, false, rest) := by
  induction attributes generalizing passed with
  | nil =>
    rw [List.filterMap_nil, List.append_nil]
    exact attributesFrom_open passed rest
  | cons a attributes ih =>
    obtain ⟨c, more, hmore, hc⟩ := exists_after_attributes attributes rest
    have hrest := ih (fun b hb => h b (List.mem_cons_of_mem a hb))
    rw [attributesText_cons, List.append_assoc, hmore,
      attributesFrom_text (h a (List.mem_cons_self ..)) passed hc, ← hmore, hrest]
    cases hread : attributeToken? a with
    | none => rw [List.filterMap_cons_none hread]; rfl
    | some b => rw [List.filterMap_cons_some hread]; simp

/-! ## §5. Trees are read. -/

/-- A tag that begins an element is read with its attributes. -/
theorem tokens?_tag {tag : String} (htag : tagNames.contains tag = true) {attributes : Attributes}
    (hnames : ∀ a ∈ attributes, IsTagName a.1) (rest : List Char) :
    tokens? ('<' :: (tag.toList ++ ((attributesText attributes).toList ++ '>' :: rest)))
      = (tokens? rest).map (.opening tag (attributes.filterMap attributeToken?) false :: ·) := by
  obtain ⟨c, more, hmore, hc⟩ := exists_after_attributes attributes rest
  have hends : EndsTagName ((attributesText attributes).toList ++ '>' :: rest) := by
    intro d hd
    rw [hmore] at hd
    cases hd
    rcases hc with rfl | rfl <;> decide
  exact tokens?_opening (isTagName_of_tag htag) hends (attributesFrom_attributesText hnames [] rest)
    (by simp; omega)

theorem print_void {tag : String} (h : voidTags.contains tag = true) (attributes : Attributes)
    (body : List Node) : (print (.element tag attributes body)).toList
      = '<' :: (tag.toList ++ ((attributesText attributes).toList ++ ['>'])) := by
  rw [print, h]
  simp

theorem print_full {tag : String} (h : voidTags.contains tag = false) (attributes : Attributes)
    (body : List Node) : (print (.element tag attributes body)).toList
      = '<' :: (tag.toList ++ ((attributesText attributes).toList
          ++ '>' :: ((printAll body).toList ++ '<' :: '/' :: (tag.toList ++ ['>'])))) := by
  rw [print, h]
  simp

/-- An element is read as its tags around what its inside is read as before the end tag. -/
theorem readsAs_element {tag : String} (htag : tagNames.contains tag = true)
    (hfull : voidTags.contains tag = false) {attributes : Attributes}
    (hnames : ∀ a ∈ attributes, IsTagName a.1) {body : List Node} {ts : List Token}
    (hbody : ∀ rest, tokens? ((printAll body).toList ++ '<' :: rest)
      = (tokens? ('<' :: rest)).map (ts ++ ·)) (hbalanced : Balanced ts) :
    ReadsAs (print (.element tag attributes body)).toList
      (.opening tag (attributes.filterMap attributeToken?) false :: (ts ++ [.closing tag])) where
  read rest := by
    have hrow : (print (.element tag attributes body)).toList ++ rest
        = '<' :: (tag.toList ++ ((attributesText attributes).toList
          ++ '>' :: ((printAll body).toList ++ '<' :: '/' :: (tag.toList ++ '>' :: rest)))) := by
      rw [print_full hfull]
      simp
    rw [hrow, tokens?_tag htag hnames, hbody, tokens?_closing (isTagName_of_tag htag),
      Option.map_map, Option.map_map]
    simp [Function.comp_def]
  balanced := hbalanced.around ((isVoid_of_tag htag).trans hfull) _

/-- Pieces are read one after the other. -/
theorem readsAs_printAll {body : List Node}
    (h : ∀ n ∈ body, ∃ ts, tokensOf? n = some ts ∧ ReadsAs (print n).toList ts) :
    ∃ ts, tokensOfAll? body = some ts ∧ ReadsAs (printAll body).toList ts := by
  induction body with
  | nil => exact ⟨[], rfl, .nil⟩
  | cons n body ih =>
    obtain ⟨ts, hts, hn⟩ := h n (List.mem_cons_self ..)
    obtain ⟨us, hus, hrest⟩ := ih fun k hk => h k (List.mem_cons_of_mem n hk)
    refine ⟨ts ++ us, by rw [tokensOfAll?, hts, hus]; rfl, ?_⟩
    rw [printAll, String.toList_append]
    exact hn.append hrest

/-- **A regular tree is read as it was built**: printed, it is the tokens that its nodes stand for,
and these are balanced. -/
theorem readsAs_print {names : List String} {inserted : String → Prop}
    (hnames : ∀ name ∈ names, IsTagName name) (hinserted : ∀ m, inserted m → IsBalanced m)
    {n : Node} (h : n.Regular names inserted) :
    ∃ ts, tokensOf? n = some ts ∧ ReadsAs (print n).toList ts := by
  induction h with
  | text s =>
    refine ⟨_, rfl, ?_⟩
    rw [print, toList_escape]
    exact readsAs_flatMap escapeChar_writes s.toList
  | @element tag attributes body htag htagNames hvoid _ ih =>
    have hall : ∀ a ∈ attributes, IsTagName a.1 := fun a ha => hnames a.1 (htagNames a ha)
    cases hv : voidTags.contains tag with
    | true =>
      refine ⟨_, by rw [tokensOf?, hv]; rfl, fun rest => ?_, ?_⟩
      · have hrow : (print (.element tag attributes body)).toList ++ rest
            = '<' :: (tag.toList ++ ((attributesText attributes).toList ++ '>' :: rest)) := by
          rw [print_void hv]
          simp
        rw [hrow, tokens?_tag htag hall]
        rfl
      · have hopen : isVoid tag = true := (isVoid_of_tag htag).trans hv
        simp [Balanced, open?, Token.open?, hopen]
    | false =>
      obtain ⟨ts, hts, hread⟩ := readsAs_printAll ih
      refine ⟨_, by rw [tokensOf?, hv, hts]; rfl, ?_⟩
      exact readsAs_element htag hv hall (fun rest => hread.read _) hread.balanced
  | @around tag attributes markup htag htagNames hfull hmarkup =>
    have hall : ∀ a ∈ attributes, IsTagName a.1 := fun a ha => hnames a.1 (htagNames a ha)
    obtain ⟨ts, hts, hbalanced⟩ := hinserted markup hmarkup
    have hraw : tokensOfAll? [.raw markup] = some ts := by
      rw [tokensOfAll?, tokensOf?, hts]
      simp [tokensOfAll?]
    refine ⟨_, by rw [tokensOf?, hfull, hraw]; rfl, ?_⟩
    refine readsAs_element htag hfull hall (fun rest => ?_) hbalanced
    rw [show printAll [.raw markup] = markup by simp [printAll, print]]
    exact tokens?_append_tag hts rest

end ControlSurface.Markup
