/-
  ControlSurface.Proofs.Xml.Refusing
  ──────────────────────────────────
  A tree loses the declarations of its entities when it is written.  No builder takes an item that
  refers to an entity where none is declared (`step_of_refers`), so none takes the items of a node
  that holds a reference.  What was read is therefore read again from its text just when it holds no
  reference (`isSome_read?_nodeText`).  A document that makes one declaration is read behind it
(`read?_declared`).
-/
import ControlSurface.Proofs.Xml.Rebuilding

namespace ControlSurface.Xml

/-! ## §1. Items that refer. -/

/-- Whether an item refers to an entity, itself or in the value of an attribute. -/
def Item.refers : Item → Bool
  | .reference _ => true
  | .start _ given _ => !(valueReferences given).isEmpty
  | _ => false

variable {s : Setting}

/-- Nothing may be referred to where nothing is declared, here or elsewhere. -/
theorem refers_eq_false (hs : s.doctype = Doctype.empty) (stack : List Frame) (name : String) :
    s.refers stack name = false := by
  rw [Setting.refers, hs]
  show fitsContent s 1 stack name = false
  rw [fitsContent, hs]
  show s.toleratesUnknown = false
  rw [Setting.toleratesUnknown, hs]
  exact Bool.and_false _

theorem accepts_eq_false (hs : s.doctype = Doctype.empty) {given : List TagAttribute}
    (h : (valueReferences given).isEmpty = false) : s.accepts given = false := by
  have hunknown : s.toleratesUnknown = false := by
    rw [Setting.toleratesUnknown, hs]
    exact Bool.and_false _
  rw [Setting.accepts, hs]
  cases hnames : valueReferences given with
  | nil =>
    rw [hnames] at h
    cases h
  | cons name rest =>
    show (s.toleratesUnknown && _) = false
    rw [hunknown, Bool.false_and]

/-- No builder takes an item that refers where nothing is declared. -/
theorem step_of_refers (hs : s.doctype = Doctype.empty) (b : Builder) {item : Item}
    (h : item.refers = true) : b.step s s.refers item = none := by
  cases item with
  | reference name =>
    rw [Builder.step, refers_eq_false hs]
    exact if_neg (by decide)
  | start name given closed =>
    rw [Item.refers, Bool.not_eq_true'] at h
    rw [Builder.step, accepts_eq_false hs h]
    rfl
  | _ => cases h

/-- No builder gets past an item that refers. -/
theorem run_of_refers (hs : s.doctype = Doctype.empty) {items : List Item} {item : Item}
    (hitem : item ∈ items) (h : item.refers = true) (b : Builder) :
    b.run s s.refers items = none := by
  -- a builder that got as far as the item is stopped by it
  induction items generalizing b with
  | nil => cases hitem
  | cons first rest ih =>
    rw [Builder.run]
    rcases List.mem_cons.mp hitem with rfl | hrest
    · rw [step_of_refers hs b h]
      rfl
    · cases b.step s s.refers first with
      | none => rfl
      | some b' => exact ih hrest b'

/-- Dividing characters makes and takes away no item that refers. -/
theorem mem_of_mem_spell {items : List Item} {item : Item} (hitem : item ∈ spell items)
    (h : item.refers = true) : item ∈ items := by
  obtain ⟨whole, hwhole, hin⟩ := List.mem_flatMap.mp hitem
  have hone : whole.spelled = [whole] → item ∈ items := by
    intro heq
    rw [heq] at hin
    exact List.mem_singleton.mp hin ▸ hwhole
  cases whole with
  | text cs =>
    cases cs with
    | nil => exact hone rfl
    | cons c cs =>
      obtain ⟨d, _, rfl⟩ := List.mem_map.mp hin
      cases h
  | _ => exact hone rfl

/-! ## §2. Trees that hold references. -/

/-- The tag of an element with a reference in a value refers. -/
theorem valueReferences_ne_nil (declared : List Declaration) {attributes : List Attribute}
    (h : attributes.any (fun a => a.value.any fun p => !p.isText) = true) :
    (valueReferences ((written declared attributes).map TagAttribute.tidy)).isEmpty = false := by
  obtain ⟨a, ha, hvalue⟩ := List.any_eq_true.mp h
  obtain ⟨p, hp, hreference⟩ := List.any_eq_true.mp hvalue
  cases p with
  | text t => cases hreference
  | reference name =>
    refine List.isEmpty_eq_false_iff_exists_mem.mpr ⟨name, List.mem_flatMap.mpr ⟨a.written.tidy, ?_,
      List.mem_filterMap.mpr ⟨.reference name, ?_, rfl⟩⟩⟩
    · exact List.mem_map_of_mem (List.mem_append_right _ (List.mem_map_of_mem ha))
    · exact List.mem_filter.mpr ⟨hp, rfl⟩

mutual
/-- The items of a node that holds a reference have one that refers. -/
theorem exists_refers :
    (n : Node) → holdsReference n = true → ∃ item ∈ itemsIn n, item.refers = true
  | .element name declared attributes children, h => by
    rw [holdsReference, Bool.or_eq_true] at h
    rw [itemsIn]
    rcases h with hvalue | hchild
    · have htag := valueReferences_ne_nil declared hvalue
      split
      · exact ⟨_, List.mem_cons_self .., by rw [Item.refers, htag]; rfl⟩
      · exact ⟨_, List.mem_cons_self .., by rw [Item.refers, htag]; rfl⟩
    · obtain ⟨item, hitem, hrefers⟩ := exists_refersAmong children hchild
      rw [if_neg (by rintro hempty; rw [List.isEmpty_iff.mp hempty] at hchild; cases hchild)]
      exact ⟨item, List.mem_cons_of_mem _ (List.mem_append_left _ hitem), hrefers⟩
  | .reference name, _ => ⟨.reference name, by rw [itemsIn]; exact List.mem_cons_self .., rfl⟩
  | .text _, h => by cases h
  | .comment _, h => by cases h
  | .instruction _ _, h => by cases h

theorem exists_refersAmong :
    (ns : List Node) → anyHoldsReference ns = true → ∃ item ∈ itemsInAll ns, item.refers = true
  | [], h => by cases h
  | n :: rest, h => by
    rw [anyHoldsReference, Bool.or_eq_true] at h
    rw [itemsInAll]
    rcases h with hfirst | hrest
    · obtain ⟨item, hitem, hrefers⟩ := exists_refers n hfirst
      exact ⟨item, List.mem_append_left _ hitem, hrefers⟩
    · obtain ⟨item, hitem, hrefers⟩ := exists_refersAmong rest hrest
      exact ⟨item, List.mem_append_right _ hitem, hrefers⟩
end

/-- **The text of a regular element is read just when the element holds no reference.** -/
theorem isSome_read?_nodeText {keepsNotes : Bool} {n : Node} (h : n.Regular keepsNotes [])
    (hproper : n.Proper) (hmarkup : n.name?.isSome = true) :
    (read? keepsNotes (nodeText n)).isSome = !holdsReference n := by
  cases hreference : holdsReference n with
  | false =>
    rw [read?_nodeText h hproper hmarkup hreference]
    rfl
  | true =>
    -- one of the items that are read refers, and no document type declares anything
    obtain ⟨items, hspell, hread⟩ := exists_read?_nodeText h hproper hmarkup
    obtain ⟨item, hitem, hrefers⟩ := exists_refers n hreference
    have hnone := run_of_refers (s := bareSetting keepsNotes) rfl
      (mem_of_mem_spell (hspell ▸ hitem) hrefers) hrefers ⟨[], none⟩
    rw [hread, hnone]
    rfl

/-! ## §3. Documents that make a declaration. -/

/-- A declaration before the closing bracket is read, and nothing else. -/
theorem declarations?_one {d d' : Doctype} {cs rest : List Char} (depth : Nat)
    (h : declaration? d ('<' :: cs) = some (d', ']' :: rest)) (hshort : rest.length < cs.length) :
    declarations? depth d ('<' :: cs) = some (d', ']' :: rest) := by
  have hend : declarations? depth d' (']' :: rest) = some (d', ']' :: rest) := by
    rw [declarations?.eq_def]
    dsimp only
    rw [if_neg (by decide), if_pos rfl]
  rw [declarations?.eq_def]
  dsimp only
  rw [if_neg (by decide), if_neg (by decide), if_neg (by decide), h]
  dsimp only
  rw [if_pos (by rw [List.length_cons]; exact hshort), hend]

/-- A document type with one declaration is passed over before the root element. -/
theorem beforeRoot?_declared {d : Doctype} {cs rest : List Char}
    (h : declaration? Doctype.empty ('<' :: cs) = some (d, ']' :: '>' :: rest))
    (hshort : rest.length + 1 < cs.length) :
    beforeRoot? none ("<!DOCTYPE svg [".toList ++ '<' :: cs) = beforeRoot? (some d) rest := by
  have hdoctype : doctype? (" svg [".toList ++ '<' :: cs) = some (d, rest) := by
    show (declarations? maxParameterDepth Doctype.empty ('<' :: cs)).bind _ = _
    rw [declarations?_one _ h (by simpa using hshort)]
    rfl
  have hpass : pass? none ('<' :: ("!DOCTYPE svg [".toList ++ '<' :: cs))
      = some (some d, rest) := by
    show (doctype? (" svg [".toList ++ '<' :: cs)).map _ = _
    rw [hdoctype]
    rfl
  show beforeRoot? none ('<' :: ("!DOCTYPE svg [".toList ++ '<' :: cs)) = _
  rw [beforeRoot?.eq_def]
  dsimp only
  rw [if_neg (by decide)]
  rw [hpass]
  refine if_pos ?_
  rw [List.length_append, List.length_cons]
  omega

/-- The document that is read from its root element on, its document type being known. -/
def readBehind (keepsNotes : Bool) (d : Doctype) (cs : List Char) : Option Document := do
  let (doctype, rest) ← beforeRoot? (some d) cs
  let s : Setting := ⟨doctype, false, keepsNotes⟩
  let b ← Builder.run s s.refers ⟨[], none⟩ (← items? rest)
  match b with
  | ⟨[], some root⟩ => some ⟨doctype.entities, root⟩
  | _ => none

/-- A document whose type makes one declaration is read from its root element on. -/
theorem read?_declared {keepsNotes : Bool} {d : Doctype} {cs rest : List Char}
    (h : declaration? Doctype.empty ('<' :: cs) = some (d, ']' :: '>' :: rest))
    (hshort : rest.length + 1 < cs.length) (hlines : '\r' ∉ cs) :
    read? keepsNotes ("<!DOCTYPE svg [".toList ++ '<' :: cs) = readBehind keepsNotes d rest := by
  have hunified : unifyLines ("<!DOCTYPE svg [".toList ++ '<' :: cs)
      = "<!DOCTYPE svg [".toList ++ '<' :: cs := by
    refine unifyLines_of_not_mem fun hmem => ?_
    rcases List.mem_append.mp hmem with hmem | hmem
    · exact absurd hmem (by decide)
    · exact hlines ((List.mem_cons.mp hmem).resolve_left (by decide))
  show document? keepsNotes ⟨none, false⟩ ("<!DOCTYPE svg [".toList ++ '<' :: cs) = _
  rw [document?, decode?]
  dsimp only [Option.bind_eq_bind, Option.bind_some]
  rw [hunified, beforeRoot?_declared h hshort]
  rfl

end ControlSurface.Xml
