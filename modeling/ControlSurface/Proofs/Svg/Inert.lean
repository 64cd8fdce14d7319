/-
  ControlSurface.Proofs.Svg.Inert
  ───────────────────────────────
  What is left of a document without its active content.  A stripped tree is proper if the tree
  was (`proper_strip`), no attribute anywhere in it handles an event or is a link that runs code as
  `strip` understands it (`not_active_of_mem`), and no element is blocked unless the root was
  (`not_blocked_of_mem`).

  And when sanitized markup is inert for a browser, which reads names without regard to letter case.
  `Inert` reads the text itself: every place where a tag may open, also in comments and
  instructions, and the attributes of all tags.  What `strip` leaves is inert exactly if it holds
  nothing active that only such a reader sees (`inert_iff`).
-/
import ControlSurface.Proofs.Xml.Printing
import ControlSurface.Svg.Sanitize
import Mathlib.Data.List.TakeWhile

namespace ControlSurface.Svg

open ControlSurface.Outcome ControlSurface.Text ControlSurface.Xml

/-! ## §1. Nodes of a tree. -/

mutual
/-- A node and all nodes below it, in document order. -/
def nodesIn : Node → List Node
  | .element name declared attributes children =>
    .element name declared attributes children :: nodesInAll children
  | n => [n]

/-- Nodes and all nodes below them, in document order. -/
def nodesInAll : List Node → List Node
  | [] => []
  | n :: rest => nodesIn n ++ nodesInAll rest
end

theorem mem_nodesInAll {m : Node} {ns : List Node} :
    m ∈ nodesInAll ns ↔ ∃ n ∈ ns, m ∈ nodesIn n := by
  induction ns with
  | nil => simp [nodesInAll]
  | cons n ns ih => simp [nodesInAll, ih]

theorem mem_nodesIn_element {m : Node} {name : Name} {declared : List Declaration}
    {attributes : List Attribute} {children : List Node} :
    m ∈ nodesIn (.element name declared attributes children)
      ↔ m = .element name declared attributes children ∨ ∃ n ∈ children, m ∈ nodesIn n := by
  rw [nodesIn, List.mem_cons, mem_nodesInAll]

/-! ## §2. Dropping elements. -/

/-- What is left among nodes: nodes that were there, without what is dropped below them. -/
theorem exists_of_mem_dropAmong {p : Name → Bool} {after : Bool} {ns : List Node} {m : Node}
    (h : m ∈ dropAmong p after ns) :
    ∃ n ∈ ns, m = dropBelow p n ∧ (n.name?.map p).getD false = false := by
  -- only text looks at what was dropped before it, so `after` varies
  induction ns generalizing after with
  | nil => cases h
  | cons n ns ih =>
    have hlater : (∃ b, m ∈ dropAmong p b ns) →
        ∃ k ∈ n :: ns, m = dropBelow p k ∧ (k.name?.map p).getD false = false := by
      rintro ⟨b, hb⟩
      obtain ⟨k, hk, hm⟩ := ih hb
      exact ⟨k, List.mem_cons_of_mem n hk, hm⟩
    unfold dropAmong at h
    split at h
    next => cases h
    next s rest heq =>
      cases heq
      split at h
      next => exact hlater ⟨_, h⟩
      next =>
        rcases List.mem_cons.mp h with rfl | h
        · exact ⟨_, List.mem_cons_self .., by rw [dropBelow]; simp, rfl⟩
        · exact hlater ⟨_, h⟩
    next k rest hk heq =>
      cases heq
      split at h
      next => exact hlater ⟨_, h⟩
      next hkeep =>
        rcases List.mem_cons.mp h with rfl | h
        · exact ⟨_, List.mem_cons_self .., rfl, by simpa using hkeep⟩
        · exact hlater ⟨_, h⟩

/-- Below a node that is kept, every node that is left is one to be kept. -/
theorem kept_of_mem_dropBelow {p : Name → Bool} {n m : Node} (h : n.Proper)
    (hkeep : (n.name?.map p).getD false = false) (hm : m ∈ nodesIn (dropBelow p n)) :
    (m.name?.map p).getD false = false := by
  induction h with
  | element _ _ _ _ ih =>
    rw [dropBelow, mem_nodesIn_element] at hm
    rcases hm with rfl | ⟨c, hc, hm⟩
    · exact hkeep
    · obtain ⟨l, hl, rfl, hlkeep⟩ := exists_of_mem_dropAmong hc
      exact ih l hl hlkeep hm
  | _ =>
    rw [List.mem_singleton.mp hm]
    rfl

theorem proper_dropBelow {p : Name → Bool} {n : Node} (h : n.Proper) : (dropBelow p n).Proper := by
  induction h with
  | element hname hdeclared hattributes _ ih =>
    refine .element hname hdeclared hattributes fun m hm => ?_
    obtain ⟨k, hk, rfl, _⟩ := exists_of_mem_dropAmong hm
    exact ih k hk
  | text hs => exact .text hs
  | comment hs => exact .comment hs
  | instruction hi => exact .instruction hi
  | reference hname => exact .reference hname

/-! ## §3. Changing attributes. -/

theorem mapAttributesAmong_eq (f : List Attribute → List Attribute) (ns : List Node) :
    mapAttributesAmong f ns = ns.map (mapAttributes f) := by
  induction ns with
  | nil => rfl
  | cons n ns ih => rw [mapAttributesAmong, ih, List.map_cons]

theorem proper_mapAttributes {f : List Attribute → List Attribute}
    (hf : ∀ given, ∀ a ∈ f given, a ∈ given) {n : Node} (h : n.Proper) :
    (mapAttributes f n).Proper := by
  induction h with
  | @element name declared attributes children hname hdeclared hattributes _ ih =>
    refine .element hname hdeclared (fun a ha => hattributes a (hf attributes a ha)) fun m hm => ?_
    rw [mapAttributesAmong_eq] at hm
    obtain ⟨k, hk, rfl⟩ := List.mem_map.mp hm
    exact ih k hk
  | text hs => exact .text hs
  | comment hs => exact .comment hs
  | instruction hi => exact .instruction hi
  | reference hname => exact .reference hname

/-- Every node of a changed tree is a changed node of the tree. -/
theorem exists_of_mem_mapAttributes {f : List Attribute → List Attribute} {n m : Node}
    (h : n.Proper) (hm : m ∈ nodesIn (mapAttributes f n)) :
    ∃ k ∈ nodesIn n, m = mapAttributes f k := by
  induction h with
  | @element name declared attributes children _ _ _ _ ih =>
    rw [mapAttributes, mem_nodesIn_element] at hm
    rcases hm with rfl | ⟨k, hk, hm⟩
    · exact ⟨_, mem_nodesIn_element.mpr (Or.inl rfl), by rw [mapAttributes]⟩
    · rw [mapAttributesAmong_eq] at hk
      obtain ⟨c, hc, rfl⟩ := List.mem_map.mp hk
      obtain ⟨l, hl, heq⟩ := ih c hc hm
      exact ⟨l, mem_nodesIn_element.mpr (Or.inr ⟨c, hc, hl⟩), heq⟩
  | _ => exact ⟨_, List.mem_singleton.mpr rfl, List.mem_singleton.mp hm⟩

/-! ## §4. Stripping. -/

/-- **A stripped tree is proper.** -/
theorem proper_strip {d : Document} (h : d.root.Proper) : (strip d).root.Proper :=
  proper_mapAttributes (fun _ _ ha => List.mem_of_mem_filter ha) (proper_dropBelow h)

/-- **No attribute of a stripped tree is active**, as `strip` understands it. -/
theorem not_active_of_mem {d : Document} (h : d.root.Proper) {n : Node}
    (hn : n ∈ nodesIn (strip d).root) : ∀ a ∈ n.attributes, isActive d a = false := by
  obtain ⟨k, _, rfl⟩ := exists_of_mem_mapAttributes (proper_dropBelow h) hn
  intro a ha
  cases k with
  | element name declared attributes children =>
    rw [mapAttributes, Node.attributes, List.mem_filter] at ha
    simpa using ha.2
  | _ => cases ha

/-- **No element of a stripped tree is blocked**, as `strip` understands it, if the root is not. -/
theorem not_blocked_of_mem {d : Document} (h : d.root.Proper)
    (hroot : (d.root.name?.map isBlocked).getD false = false) {n : Node}
    (hn : n ∈ nodesIn (strip d).root) : (n.name?.map isBlocked).getD false = false := by
  obtain ⟨k, hk, rfl⟩ := exists_of_mem_mapAttributes (proper_dropBelow h) hn
  have hkeep := kept_of_mem_dropBelow h hroot hk
  cases k with
  | element name declared attributes children => exact hkeep
  | _ => rfl

/-! ## §5. Inert markup. -/

/-- Whether a character ends the name of a tag. -/
def endsTagName (c : Char) : Bool := isSpace c || c = '\x0c' || c = '/' || c = '>'

/-- A name without its label. -/
def localName (cs : List Char) : List Char := (cs.reverse.takeWhile (· ≠ ':')).reverse

/-- Whether a tag of a name is active in any letter case. -/
def isActiveTag (name : List Char) : Bool :=
  blockedNames.any fun blocked => lower blocked.toList == lower (localName name)

/-- Whether an active tag opens anywhere in a text. -/
def holdsActiveTag : List Char → Bool
  | [] => false
  | c :: cs =>
    (c = '<' && isActiveTag (cs.takeWhile fun d => !endsTagName d)) || holdsActiveTag cs

/-- Whether an attribute handles an event, in any letter case. -/
def handles (a : TagAttribute) : Bool := startsWith ['o', 'n'] (lower a.name.base.toList)

/-- Whether an attribute is a link that runs code, in any letter case and with white space between
its characters; entities are read by a table. -/
def runsCode (named : String → List Char) (a : TagAttribute) : Bool :=
  lower a.name.base.toList == linkName.toList
    && startsWith codeScheme (lower ((meaning named a.value).filter fun c => !isBlank c))

/-- Markup without active content. -/
structure Inert (named : String → List Char) (markup : String) : Prop where
  tags : holdsActiveTag markup.toList = false
  attributes : ∃ items, items? markup.toList = some items
    ∧ ∀ tag ∈ tagsOf items, ∀ a ∈ tag.2, handles a = false ∧ runsCode named a = false

/-- What a node must not hold for the markup to be inert, though `strip` lets it pass: a blocked name
in another letter case, a declaration that reads as an active attribute, a link whose name or
scheme is hidden, or a tag inside a comment or an instruction. -/
def Harmless (named : String → List Char) : Node → Prop
  | .element name declared attributes _ =>
    (isActiveTag name.base.toList = true → isBlocked name = true)
      ∧ (∀ d ∈ declared, handles d.written = false ∧ runsCode named d.written = false)
      ∧ ∀ a ∈ attributes, runsCode named a.written = false
  | n => holdsActiveTag (nodeText n) = false

instance (named : String → List Char) (n : Node) : Decidable (Harmless named n) :=
  match n with
  | .element name declared attributes _ => inferInstanceAs (Decidable
    ((isActiveTag name.base.toList = true → isBlocked name = true)
      ∧ (∀ d ∈ declared, handles d.written = false ∧ runsCode named d.written = false)
      ∧ ∀ a ∈ attributes, runsCode named a.written = false))
  | .text s => inferInstanceAs (Decidable (holdsActiveTag (nodeText (.text s)) = false))
  | .comment s => inferInstanceAs (Decidable (holdsActiveTag (nodeText (.comment s)) = false))
  | .instruction t s =>
    inferInstanceAs (Decidable (holdsActiveTag (nodeText (.instruction t s)) = false))
  | .reference s => inferInstanceAs (Decidable (holdsActiveTag (nodeText (.reference s)) = false))

/-! ## §6. Tags in text. -/

theorem holdsActiveTag_of_not_mem {cs : List Char} (h : '<' ∉ cs) (ds : List Char) :
    holdsActiveTag (cs ++ ds) = holdsActiveTag ds := by
  induction cs with
  | nil => rfl
  | cons c cs ih =>
    have hc : c ≠ '<' := fun heq => h (heq ▸ List.mem_cons_self ..)
    rw [List.cons_append, holdsActiveTag, ih fun hmem => h (List.mem_cons_of_mem c hmem)]
    simp [hc]

theorem takeWhile_close (cs ds : List Char) :
    (cs ++ '>' :: ds).takeWhile (fun d => !endsTagName d)
      = (cs ++ ['>']).takeWhile fun d => !endsTagName d := by
  induction cs with
  | nil => simp [endsTagName]
  | cons c cs ih =>
    rw [List.cons_append, List.cons_append, List.takeWhile_cons, List.takeWhile_cons, ih]

/-- Tags do not reach beyond a closing bracket. -/
theorem holdsActiveTag_close (cs ds : List Char) :
    holdsActiveTag (cs ++ '>' :: ds) = (holdsActiveTag (cs ++ ['>']) || holdsActiveTag ds) := by
  -- a tag that opens before the bracket has its whole name before it
  induction cs with
  | nil => rfl
  | cons c cs ih =>
    rw [List.cons_append, List.cons_append, holdsActiveTag, holdsActiveTag, ih, takeWhile_close,
      Bool.or_assoc]

/-- A proper name does not end a tag name, and opens no tag. -/
theorem name_goes_on {q : QName} (hq : q.Proper) :
    ∀ c ∈ q.text.toList, endsTagName c = false ∧ c ≠ '<' := by
  have hends : ∀ d ∈ [' ', '\t', '\n', '\r', '\x0c', '/', '>', '<'],
      isNameChar d = false ∧ d ≠ ':' := List.all_iff_forall_prop.mp (by decide)
  intro c hc
  have hnot : c ∉ [' ', '\t', '\n', '\r', '\x0c', '/', '>', '<'] := by
    intro hmem
    rcases of_mem_text hq c hc with h | h
    · rw [(hends c hmem).1] at h
      cases h
    · exact (hends c hmem).2 h
  simp only [List.mem_cons, List.not_mem_nil, or_false, not_or] at hnot
  simp [endsTagName, isSpace, hnot]

/-- A tag with a proper name opens as its name says. -/
theorem holdsActiveTag_open {q : QName} (hq : q.Proper) {tail : List Char}
    (htail : ∀ d, tail.head? = some d → endsTagName d = true) :
    holdsActiveTag ('<' :: (q.text.toList ++ tail))
      = (isActiveTag q.text.toList || holdsActiveTag tail) := by
  have hgoes := name_goes_on hq
  have htake : (q.text.toList ++ tail).takeWhile (fun d => !endsTagName d) = q.text.toList :=
    takeWhile_append_stop (fun c hc => by simp [(hgoes c hc).1]) fun d hd => by simp [htail d hd]
  rw [holdsActiveTag, htake, holdsActiveTag_of_not_mem fun hmem => (hgoes '<' hmem).2 rfl]
  rfl

/-- A tag that ends an element opens nothing. -/
theorem holdsActiveTag_finish {q : QName} (hq : q.Proper) (rest : List Char) :
    holdsActiveTag ('<' :: '/' :: (q.text.toList ++ '>' :: rest)) = holdsActiveTag rest := by
  -- the slash ends the name of the tag at once
  have hmark : '<' ∉ '/' :: q.text.toList := by
    intro hmem
    rcases List.mem_cons.mp hmem with h | h
    · exact absurd h (by decide)
    · exact (name_goes_on hq '<' h).2 rfl
  have hnone : isActiveTag [] = false := by decide
  have hrest := holdsActiveTag_of_not_mem hmark ('>' :: rest)
  rw [holdsActiveTag, List.takeWhile_cons_of_neg (by decide), hnone, Bool.and_false, Bool.false_or]
  exact hrest

/-! ## §7. Tags of a printed tree. -/

theorem mark_not_mem_print {a : TagAttribute} (ha : a.Proper) : '<' ∉ a.print := by
  intro hmem
  have hin : '<' ∈ a.name.text.toList ∨ '<' ∈ a.value.flatMap pieceText := by
    simpa [TagAttribute.print, assignment] using hmem
  rcases hin with hin | hin
  · exact (name_goes_on ha.name '<' hin).2 rfl
  · obtain ⟨p, hp, hin⟩ := List.mem_flatMap.mp hin
    exact not_mem_pieceText (ha.value.proper p hp) (by decide) hin

/-- The attributes of a tag open nothing. -/
theorem holdsActiveTag_attributes {given : List TagAttribute} (h : ∀ a ∈ given, a.Proper)
    (rest : List Char) :
    holdsActiveTag (given.flatMap TagAttribute.print ++ rest) = holdsActiveTag rest := by
  refine holdsActiveTag_of_not_mem (fun hmem => ?_) rest
  obtain ⟨a, ha, hin⟩ := List.mem_flatMap.mp hmem
  exact mark_not_mem_print (h a ha) hin

theorem mark_not_mem_textChar (c : Char) : '<' ∉ textChar c := by
  intro hc
  rcases textChar_writes c with ⟨hself, _, hlt, _⟩ | ⟨body, hbody, hall, _⟩
  · rw [hself, List.mem_singleton] at hc
    exact hlt hc.symm
  · rw [hbody] at hc
    have hin : '<' ∈ body := by simpa using hc
    exact absurd (List.all_eq_true.mp hall _ hin) (by decide)

/-- The text of a node holds no markup, or is closed by a bracket. -/
theorem nodeText_cases {n : Node} (h : n.Proper) :
    '<' ∉ nodeText n ∨ ∃ body, nodeText n = body ++ ['>'] := by
  cases h with
  | @element name declared attributes children =>
    refine Or.inr ?_
    rw [nodeText_element]
    split
    next =>
      exact ⟨'<' :: (name.written.text.toList
        ++ ((written declared attributes).flatMap TagAttribute.print ++ ['/'])), by simp⟩
    next =>
      exact ⟨'<' :: (name.written.text.toList
        ++ ((written declared attributes).flatMap TagAttribute.print
          ++ '>' :: (nodesText children ++ '<' :: '/' :: name.written.text.toList))), by simp⟩
  | @text s =>
    refine Or.inl fun hmem => ?_
    obtain ⟨c, _, hc⟩ := List.mem_flatMap.mp hmem
    exact mark_not_mem_textChar c hc
  | @comment s => exact Or.inr ⟨"<!--".toList ++ s.toList ++ ['-', '-'], by simp [nodeText]⟩
  | @instruction target data =>
    exact Or.inr ⟨"<?".toList ++ target.toList
      ++ (if data = "" then [] else ' ' :: data.toList) ++ ['?'], by simp [nodeText]⟩
  | @reference name hname =>
    refine Or.inl fun hmem => ?_
    have hin : '<' ∈ name.toList := by simpa [nodeText, referenceText] using hmem
    exact absurd (isNameChar_of_isName hname.1 _ hin) (by decide)

/-- Tags do not reach from one node to the next. -/
theorem holdsActiveTag_node {n : Node} (h : n.Proper) (rest : List Char) :
    holdsActiveTag (nodeText n ++ rest) = (holdsActiveTag (nodeText n) || holdsActiveTag rest) := by
  rcases nodeText_cases h with hmark | ⟨body, hbody⟩
  · have hnone : holdsActiveTag (nodeText n) = false := by
      have hrest := holdsActiveTag_of_not_mem hmark []
      rwa [List.append_nil] at hrest
    rw [holdsActiveTag_of_not_mem hmark, hnone, Bool.false_or]
  · rw [hbody, List.append_assoc]
    exact holdsActiveTag_close body rest

theorem holdsActiveTag_nodes {ns : List Node} (h : ∀ n ∈ ns, n.Proper) (rest : List Char) :
    holdsActiveTag (nodesText ns ++ rest)
      = (ns.any (fun n => holdsActiveTag (nodeText n)) || holdsActiveTag rest) := by
  induction ns with
  | nil => rfl
  | cons n ns ih =>
    rw [nodesText, List.append_assoc, holdsActiveTag_node (h n (List.mem_cons_self ..)),
      ih fun m hm => h m (List.mem_cons_of_mem n hm), List.any_cons, Bool.or_assoc]

/-- **The tags that open in an element** are its own and those in its children. -/
theorem holdsActiveTag_element {name : Name} {declared : List Declaration}
    {attributes : List Attribute} {children : List Node} (hname : name.written.Proper)
    (hdeclared : ∀ d ∈ declared, d.Proper) (hattributes : ∀ a ∈ attributes, a.Proper)
    (hchildren : ∀ n ∈ children, n.Proper) :
    holdsActiveTag (nodeText (.element name declared attributes children))
      = (isActiveTag name.written.text.toList
          || children.any fun n => holdsActiveTag (nodeText n)) := by
  have hproper := proper_written hdeclared hattributes
  -- what follows the name is a space before an attribute, or the end of the tag
  have htail : ∀ (c : Char) (rest : List Char), endsTagName c = true → ∀ d,
      ((written declared attributes).flatMap TagAttribute.print ++ c :: rest).head? = some d →
        endsTagName d = true := by
    intro c rest hc d hd
    cases hwritten : written declared attributes with
    | nil =>
      rw [hwritten] at hd
      cases hd
      exact hc
    | cons a given =>
      rw [hwritten] at hd
      cases hd
      rfl
  rw [nodeText_element]
  by_cases hempty : children = []
  · subst hempty
    rw [show (if ([] : List Node).isEmpty = true then ['/', '>'] else _) = ['/', '>'] from rfl,
      holdsActiveTag_open hname (htail _ _ rfl), holdsActiveTag_attributes hproper]
    rfl
  · rw [if_neg (by simpa using hempty), holdsActiveTag_open hname (htail _ _ rfl),
      holdsActiveTag_attributes hproper, holdsActiveTag]
    have hinner := holdsActiveTag_nodes hchildren
      ('<' :: '/' :: (name.written.text.toList ++ ['>']))
    rw [hinner, holdsActiveTag_finish hname []]
    simp [holdsActiveTag]

theorem localName_of_not_mem {cs : List Char} (h : ':' ∉ cs) : localName cs = cs := by
  have hall : ∀ c ∈ cs.reverse, decide (c ≠ ':') = true := fun c hc =>
    decide_eq_true fun heq => h (heq ▸ List.mem_reverse.mp hc)
  rw [localName, List.takeWhile_eq_self_iff.mpr hall, List.reverse_reverse]

/-- The name of a tag is active iff the name proper is. -/
theorem isActiveTag_text {q : QName} (hq : q.Proper) :
    isActiveTag q.text.toList = isActiveTag q.base.toList := by
  obtain ⟨label, base⟩ := q
  cases label with
  | none => rfl
  | some l =>
    -- the last colon is the one after the label
    have hcolon : ':' ∉ base.toList := fun hmem =>
      absurd (isNameChar_of_isName hq.base ':' hmem) (by decide)
    have hlocal : localName (QName.text ⟨some l, base⟩).toList = localName base.toList := by
      have hrow : (QName.text ⟨some l, base⟩).toList.reverse
          = base.toList.reverse ++ ':' :: l.toList.reverse := by
        rw [QName.text, String.toList_append, String.toList_append, List.reverse_append,
          List.reverse_append]
        rfl
      rw [localName_of_not_mem hcolon, localName, hrow, takeWhile_append_mark (by simpa using hcolon),
        List.reverse_reverse]
    rw [isActiveTag, hlocal]
    rfl

/-- Whether a node itself opens an active tag. -/
def opensActive : Node → Bool
  | .element name _ _ _ => isActiveTag name.base.toList
  | n => holdsActiveTag (nodeText n)

/-- **Active tags open in a printed tree** where one of its nodes opens them. -/
theorem holdsActiveTag_iff {n : Node} (h : n.Proper) :
    holdsActiveTag (nodeText n) = false ↔ ∀ m ∈ nodesIn n, opensActive m = false := by
  induction h with
  | @element name declared attributes children hname hdeclared hattributes hchildren ih =>
    rw [holdsActiveTag_element hname hdeclared hattributes hchildren, isActiveTag_text hname,
      Bool.or_eq_false_iff, List.any_eq_false]
    constructor
    · rintro ⟨hown, hinner⟩ m hm
      rcases mem_nodesIn_element.mp hm with rfl | ⟨k, hk, hm⟩
      · exact hown
      · exact (ih k hk).mp (by simpa using hinner k hk) m hm
    · intro hall
      refine ⟨hall _ (mem_nodesIn_element.mpr (Or.inl rfl)), fun k hk => ?_⟩
      have hinner := (ih k hk).mpr fun m hm => hall m (mem_nodesIn_element.mpr (Or.inr ⟨k, hk, hm⟩))
      simp [hinner]
  | _ => simp [nodesIn, opensActive]

/-! ## §8. Attributes of a printed tree. -/

/-- What holds of attributes by their name and by what they say holds of tags that say the same. -/
theorem forall_sameTag {P : TagAttribute → Prop}
    (hP : ∀ a b, SameReading a b → (P a ↔ P b)) {tags read : List (QName × List TagAttribute)}
    (h : List.Forall₂ SameTag tags read) :
    (∀ tag ∈ tags, ∀ a ∈ tag.2, P a) ↔ ∀ tag ∈ read, ∀ a ∈ tag.2, P a := by
  have hgiven : ∀ {given other : List TagAttribute}, List.Forall₂ SameReading given other →
      ((∀ a ∈ given, P a) ↔ ∀ a ∈ other, P a) := by
    intro given other hsame
    induction hsame with
    | nil => exact Iff.rfl
    | cons hab _ ih => rw [List.forall_mem_cons, List.forall_mem_cons, hP _ _ hab, ih]
  induction h with
  | nil => exact Iff.rfl
  | cons hst _ ih =>
    rw [List.forall_mem_cons, List.forall_mem_cons]
    exact and_congr (hgiven hst.2) ih

/-- What holds of the attributes of all tags of a tree, by its elements. -/
theorem forall_tagsIn {P : TagAttribute → Prop} {n : Node} (h : n.Proper) :
    (∀ tag ∈ tagsIn n, ∀ a ∈ tag.2, P a)
      ↔ ∀ name declared attributes children,
          Node.element name declared attributes children ∈ nodesIn n →
            ∀ a ∈ written declared attributes, P a := by
  have hall : ∀ {ns : List Node} {tag : QName × List TagAttribute},
      tag ∈ tagsInAll ns ↔ ∃ k ∈ ns, tag ∈ tagsIn k := by
    intro ns tag
    induction ns with
    | nil => simp [tagsInAll]
    | cons k ns ih => simp [tagsInAll, ih]
  induction h with
  | @element name declared attributes children _ _ _ _ ih =>
    rw [tagsIn, List.forall_mem_cons]
    constructor
    · rintro ⟨hown, hinner⟩ name' declared' attributes' children' hm
      rcases mem_nodesIn_element.mp hm with heq | ⟨k, hk, hm⟩
      · cases heq
        exact hown
      · exact (ih k hk).mp (fun tag htag => hinner tag (hall.mpr ⟨k, hk, htag⟩)) _ _ _ _ hm
    · intro hnodes
      refine ⟨hnodes _ _ _ _ (mem_nodesIn_element.mpr (Or.inl rfl)), fun tag htag => ?_⟩
      obtain ⟨k, hk, htag⟩ := hall.mp htag
      exact (ih k hk).mpr (fun name' declared' attributes' children' hm =>
        hnodes _ _ _ _ (mem_nodesIn_element.mpr (Or.inr ⟨k, hk, hm⟩))) tag htag
  | _ => simp [tagsIn, nodesIn]

theorem same_attributes (named : String → List Char) (a b : TagAttribute) (h : SameReading a b) :
    (handles a = false ∧ runsCode named a = false)
      ↔ (handles b = false ∧ runsCode named b = false) := by
  rw [handles, handles, runsCode, runsCode, h.name, h.value]

/-! ## §9. Inert markup. -/

/-- **Printed markup is inert** iff no node of the tree opens an active tag and no attribute is
active. -/
theorem inert_print_iff (named : String → List Char) {n : Node} (h : n.Proper)
    (hmarkup : n.name?.isSome = true) :
    Inert named (Xml.print n)
      ↔ (∀ m ∈ nodesIn n, opensActive m = false)
        ∧ ∀ name declared attributes children,
            Node.element name declared attributes children ∈ nodesIn n →
              ∀ a ∈ written declared attributes, handles a = false ∧ runsCode named a = false := by
  have htext : (Xml.print n).toList = nodeText n := by rw [Xml.print, String.toList_ofList]
  obtain ⟨items, hitems, htags⟩ := exists_items_nodeText h hmarkup
  have hsame := forall_sameTag (same_attributes named) htags
  rw [← holdsActiveTag_iff h, ← forall_tagsIn h, hsame]
  constructor
  · rintro ⟨htag, read, hread, hattributes⟩
    rw [htext] at htag hread
    rw [hitems] at hread
    cases hread
    exact ⟨htag, hattributes⟩
  · rintro ⟨htag, hattributes⟩
    exact ⟨htext ▸ htag, items, htext ▸ hitems, hattributes⟩

/-- A document that is accepted has a proper root, which is not blocked. -/
theorem root_of_parse {keepsNotes : Bool} {text : String} {d : Document}
    (h : parse keepsNotes text = .ok d) :
    d.root.Proper ∧ d.root.name?.isSome = true ∧ (d.root.name?.map isBlocked).getD false = false := by
  unfold parse at h
  split at h
  next => cases h
  next found hfound =>
    dsimp only at h
    split at h
    next hname =>
      cases h
      refine ⟨proper_of_read? d hfound, ?_⟩
      cases hroot : d.root.name? with
      | none =>
        rw [hroot] at hname
        exact absurd hname (by decide)
      | some name =>
        rw [hroot] at hname
        have hbase : name.base = rootName := hname
        refine ⟨rfl, ?_⟩
        show isBlocked name = false
        rw [isBlocked, hbase]
        decide
    next => cases h

/-- The root of a stripped tree is an element as the root was. -/
theorem isSome_strip {d : Document} (h : d.root.name?.isSome = true) :
    (strip d).root.name?.isSome = true := by
  unfold strip
  cases hroot : d.root with
  | element name declared attributes children => rfl
  | _ =>
    rw [hroot] at h
    cases h

/-- **When sanitized markup is inert.**  Sanitizing takes away every element that is named as a
blocked one, every attribute that handles an event, and every link that begins with the scheme for
code.  What it returns is inert exactly if every node that is left is harmless, however the
entities in it are read. -/
theorem inert_iff (named : String → List Char) {text out : String} (h : sanitize text = .ok out) :
    ∃ d, parse true text = .ok d
      ∧ (Inert named out ↔ ∀ n ∈ nodesIn (strip d).root, Harmless named n) := by
  obtain ⟨d, hd, hout⟩ := (bind_eq_ok_iff _ _ _).mp h
  cases hout
  obtain ⟨hproper, hmarkup, hroot⟩ := root_of_parse hd
  refine ⟨d, hd, ?_⟩
  rw [inert_print_iff named (proper_strip hproper) (isSome_strip hmarkup)]
  constructor
  · -- a node that is active in no letter case is so under the names that `strip` knows too
    rintro ⟨hopens, hattributes⟩ n hn
    cases n with
    | element name declared attributes children =>
      have hall := hattributes name declared attributes children hn
      refine ⟨fun hactive => ?_, fun x hx => hall _ ?_, fun a ha => (hall _ ?_).2⟩
      · rw [show isActiveTag name.base.toList = false from hopens _ hn] at hactive
        cases hactive
      · exact List.mem_append_left _ (List.mem_map_of_mem hx)
      · exact List.mem_append_right _ (List.mem_map_of_mem ha)
    | _ => exact hopens _ hn
  · -- what `strip` knows is gone, and the rest is harmless
    intro hall
    refine ⟨fun m hm => ?_, fun name declared attributes children hm a ha => ?_⟩
    · have hm' := hall m hm
      cases m with
      | element name declared attributes children =>
        rw [opensActive, Bool.eq_false_iff]
        intro hactive
        have hkept : isBlocked name = false := not_blocked_of_mem hproper hroot hm
        rw [hm'.1 hactive] at hkept
        cases hkept
      | _ => exact hm'
    · obtain ⟨_, hdeclared, hlinks⟩ := hall _ hm
      rcases List.mem_append.mp ha with ha | ha
      · obtain ⟨x, hx, rfl⟩ := List.mem_map.mp ha
        exact hdeclared x hx
      · obtain ⟨b, hb, rfl⟩ := List.mem_map.mp ha
        have hinactive := not_active_of_mem hproper hm b hb
        rw [isActive, Bool.or_eq_false_iff] at hinactive
        exact ⟨hinactive.1, hlinks b hb⟩

/-- An SVG whose active content is of the kinds that are taken away. -/
theorem plain_inert :
    sanitize "<svg onload='a()'><!-- b --><script>c()</script><a href='#d'/></svg>"
        = .ok "<svg><!-- b --><a href=\"#d\"/></svg>"
      ∧ Inert (fun _ => []) "<svg><!-- b --><a href=\"#d\"/></svg>" := by
  have hout : sanitize "<svg onload='a()'><!-- b --><script>c()</script><a href='#d'/></svg>"
      = .ok "<svg><!-- b --><a href=\"#d\"/></svg>" := by decide +kernel
  obtain ⟨d, hd, hiff⟩ := inert_iff (fun _ => []) hout
  have hall : (parse true
      "<svg onload='a()'><!-- b --><script>c()</script><a href='#d'/></svg>").toOption.all
        (fun d => decide (∀ n ∈ nodesIn (strip d).root, Harmless (fun _ => []) n)) = true := by
    decide +kernel
  rw [hd] at hall
  exact ⟨hout, hiff.mpr (of_decide_eq_true hall)⟩

/-- A script whose name is in capitals stays. -/
theorem capital_script_stays :
    sanitize "<svg xmlns=\"http://www.w3.org/2000/svg\"><SCRIPT>alert(1)</SCRIPT></svg>"
        = .ok "<svg xmlns=\"http://www.w3.org/2000/svg\"><SCRIPT>alert(1)</SCRIPT></svg>"
      ∧ ∀ named, ¬ Inert named
          "<svg xmlns=\"http://www.w3.org/2000/svg\"><SCRIPT>alert(1)</SCRIPT></svg>" := by
  refine ⟨by decide +kernel, fun named h => ?_⟩
  exact absurd h.tags (by decide)

end ControlSurface.Svg
