/-
  ControlSurface.Proofs.Svg.Reduction
  ───────────────────────────────────
  Writing an SVG and reading it back.  An SVG that was read, with or without comments and
  instructions, is printed as text that is read as the same tree.  Only texts that hold no
  characters, as an empty literal section leaves them, are not written down.  What an optimized SVG
  is read back as: the tree that is written opens again without the declarations that are not used
  (`parse_optimized`), and its elements are those that may not go.

  Main results:
    * `reads_back` — what is written of an SVG without references is read back.
    * `optimizes_exactly_iff` — an SVG without references is optimized, and what is written is read
      back as the elements that do not go, in their order and nesting and with their attributes; the
      namespaces of elements are kept as well iff none without a namespace lies under a default one.
-/
import ControlSurface.Proofs.Svg.Inert
import ControlSurface.Proofs.Svg.Kept
import ControlSurface.Proofs.Svg.Rescoping
import ControlSurface.Proofs.Xml.Rebuilding

namespace ControlSurface.Svg

open ControlSurface.Outcome ControlSurface.Text ControlSurface.Xml

/-! ## §1. Writing and reading back. -/

/-- Text between two characters that are not blank is not trimmed. -/
theorem trim_between {c d : Char} (hc : isBlank c = false) (hd : isBlank d = false)
    {cs more body : List Char} (hfirst : cs = c :: more) (hlast : cs = body ++ [d]) :
    trim cs = cs := by
  have hstart : trimStartBy isBlank cs = cs := by
    rw [hfirst, trimStartBy, List.dropWhile_cons_of_neg (by simp [hc])]
  have hend : cs.reverse.dropWhile isBlank = cs.reverse := by
    rw [hlast, List.reverse_concat, List.dropWhile_cons_of_neg (by simp [hd])]
  rw [trim, trimBy, hstart, trimEndBy, hend, List.reverse_reverse]

/-- The text of an element begins and ends with a bracket, so it is not trimmed. -/
theorem trim_nodeText {n : Node} (h : n.Proper) (hmarkup : n.name?.isSome = true) :
    trim (nodeText n) = nodeText n := by
  cases n with
  | element name declared attributes children =>
    have hfirst := nodeText_element name declared attributes children
    rcases nodeText_cases h with hmark | ⟨body, hlast⟩
    · exact absurd (hfirst ▸ List.mem_cons_self ..) hmark
    · exact trim_between (by decide) (by decide) hfirst hlast
  | _ => cases hmarkup

theorem name?_tidy (n : Node) : n.tidy.name? = n.name? := by cases n <;> rfl

/-- A document that is accepted is what is read from its trimmed text, and its root has the name of
an SVG. -/
theorem parse_eq_ok_iff {keepsNotes : Bool} {text : String} {d : Document} :
    parse keepsNotes text = .ok d
      ↔ read? keepsNotes (trim text.toList) = some d
        ∧ (d.root.name?.map Name.base).getD "" = rootName := by
  unfold parse
  cases hread : read? keepsNotes (trim text.toList) with
  | none => simp
  | some found =>
    dsimp only
    split
    next hname =>
      constructor
      · intro h
        cases h
        exact ⟨rfl, hname⟩
      · rintro ⟨h, _⟩
        cases h
        rfl
    next hname =>
      constructor
      · intro h
        cases h
      · rintro ⟨h, hbase⟩
        cases h
        exact absurd hbase hname

/-- An SVG that was read is read from its text again. -/
theorem parse_written {keepsNotes : Bool} {text : String} {d : Document}
    (h : parse keepsNotes text = .ok d) (hplain : holdsReference d.root = false) :
    parse keepsNotes (print d.root) = .ok ⟨[], d.root.tidy⟩ := by
  obtain ⟨hproper, hmarkup, _⟩ := root_of_parse h
  obtain ⟨hread, hname⟩ := parse_eq_ok_iff.mp h
  have hregular : d.root.Regular keepsNotes [] := regular_of_read? d hread
  have htext : trim (print d.root).toList = nodeText d.root := by
    rw [Xml.print, String.toList_ofList, trim_nodeText hproper hmarkup]
  refine parse_eq_ok_iff.mpr ⟨?_, by rw [name?_tidy]; exact hname⟩
  rw [htext, read?_nodeText hregular hproper hmarkup hplain]

/-- **What is written is read back.**  An SVG that is accepted and holds no reference to an entity
is accepted again once it is written, as a document without a document type whose tree is the same:
the names, labels and declarations, the attributes in their order with their values, the
characters, comments and instructions.  Once texts without characters are gone, a tree is read back
exactly, however often it is written. -/
theorem reads_back {keepsNotes : Bool} {text : String} {d : Document}
    (h : parse keepsNotes text = .ok d) (hplain : holdsReference d.root = false) :
    parse keepsNotes (print d.root) = .ok ⟨[], d.root.tidy⟩
      ∧ parse keepsNotes (print d.root.tidy) = .ok ⟨[], d.root.tidy⟩ := by
  have hagain := parse_written h hplain
  refine ⟨hagain, ?_⟩
  have hthird := parse_written hagain ((holdsReference_tidy d.root).trans hplain)
  rwa [tidy_tidy] at hthird

/-- A graphic with both kinds of quoting, a carriage return that is referred to and one that ends a
line, literal text that holds the mark of its own end, labels that are declared again and a default
namespace that is taken back. -/
def layered : String :=
  "<svg xmlns='urn:a' xmlns:b='urn:b' b:c=' &#10;&quot;&lt;'>x&#13;\r\n<![CDATA[<y>&]]>]]&gt;"
    ++ "<b:g xmlns='' xmlns:b='urn:c'><h b:i='&apos;'/><![CDATA[]]></b:g><!-- n --><?p q?></svg>"

/-- The same graphic as it is written. -/
def layeredText : String :=
  "<svg xmlns=\"urn:a\" xmlns:b=\"urn:b\" b:c=\" &#10;&quot;&lt;\">x&#13;\n&lt;y&gt;&amp;]]&gt;"
    ++ "<b:g xmlns=\"\" xmlns:b=\"urn:c\"><h b:i=\"'\"/></b:g><!-- n --><?p q?></svg>"

theorem layered_reads_back :
    ∃ d, parse true layered = .ok d ∧ holdsReference d.root = false ∧ print d.root = layeredText
      ∧ parse true (print d.root) = .ok ⟨[], d.root.tidy⟩
      ∧ parse true (print d.root.tidy) = .ok ⟨[], d.root.tidy⟩ := by
  have hfound : (parse true layered).toOption.any (fun d =>
      !holdsReference d.root && print d.root == layeredText) = true := by decide +kernel
  obtain ⟨d, hd, hboth⟩ := exists_of_any hfound
  rw [Bool.and_eq_true, Bool.not_eq_true', beq_iff_eq] at hboth
  exact ⟨d, hd, hboth.1, hboth.2, reads_back hd hboth.1⟩

/-! ## §2. Reading back what is written. -/

theorem regular_of_keeps {keepsNotes : Bool} {outer : List Declaration} {n : Node}
    (h : n.Regular false outer) : n.Regular keepsNotes outer := by
  induction h with
  | element hopens hapart _ ih => exact .element hopens hapart ih
  | text s => exact .text s
  | comment hkeeps => cases hkeeps
  | instruction hkeeps => cases hkeeps
  | reference name => exact .reference name

theorem regular_of_parse {keepsNotes : Bool} {text : String} {d : Document}
    (h : parse keepsNotes text = .ok d) : d.root.Regular keepsNotes [] :=
  regular_of_read? d (parse_eq_ok_iff.mp h).1

theorem regular_reducedTree (d : Document) {outer : List Declaration} {n : Node}
    (h : n.Regular false outer) : (reducedTree d n).Regular false outer :=
  (pass_reducedTree d).regular (reopens_keptAttributes d) h

/-- The tree that is read back is the optimized one, with the namespaces that it is read with. -/
def readBack (d : Document) : Node := rescope [] (optimizeTree d)

theorem regular_readBack {text : String} {d : Document} (h : parse false text = .ok d) :
    (readBack d).Regular false [] :=
  regular_rescope (regular_reducedTree d (regular_of_parse h))
    (fun _ hd => absurd hd List.not_mem_nil) fun _ _ => rfl

theorem proper_readBack {text : String} {d : Document} (h : parse false text = .ok d) :
    (readBack d).Proper :=
  proper_rescope ((pass_reducedTree d).proper (fun _ => proper_keptAttributes d)
    (regular_of_parse h) (root_of_parse h).1) []

theorem base_readBack {text : String} {d : Document} (h : parse false text = .ok d) :
    (readBack d).name?.map Name.base = d.root.name?.map Name.base := by
  have hregular := regular_of_parse h
  rw [readBack, optimizeTree_eq]
  cases hroot : d.root with
  | element name declared attributes children =>
    rw [hroot] at hregular
    cases hregular with
    | element _ hapart _ =>
      obtain ⟨after, hpass, _⟩ := (pass_reducedTree d).element name declared attributes hapart
      rw [hpass, dropUnused, rescope]
      rfl
  | _ => rw [(pass_reducedTree d).other _ rfl, rescope_dropUnused_of_not rfl]

theorem isSome_name?_readBack {text : String} {d : Document} (h : parse false text = .ok d) :
    (readBack d).name?.isSome = true := by
  obtain ⟨_, hmarkup, _⟩ := root_of_parse h
  have hbase := congrArg Option.isSome (base_readBack h)
  rwa [Option.isSome_map, Option.isSome_map, hmarkup] at hbase

/-- The text of an optimized tree is that of the tree that is read back. -/
theorem trim_print_optimizeTree {text : String} {d : Document} (h : parse false text = .ok d) :
    trim (print (optimizeTree d)).toList = nodeText (readBack d) := by
  rw [Xml.print, String.toList_ofList, ← nodeText_rescope [] (optimizeTree d)]
  exact trim_nodeText (proper_readBack h) (isSome_name?_readBack h)

/-- **An optimized SVG that holds no reference is read back**, with or without notes, of which it
has none. -/
theorem parse_optimized {text : String} {d : Document} (h : parse false text = .ok d)
    (hplain : holdsReference (optimizeTree d) = false) (keepsNotes : Bool) :
    parse keepsNotes (print (optimizeTree d)) = .ok ⟨[], (readBack d).tidy⟩ := by
  have hbase : ((readBack d).name?.map Name.base).getD "" = rootName := by
    rw [base_readBack h]
    exact (parse_eq_ok_iff.mp h).2
  refine parse_eq_ok_iff.mpr ⟨?_, by rw [name?_tidy]; exact hbase⟩
  rw [trim_print_optimizeTree h]
  refine read?_nodeText (regular_of_keeps (regular_readBack h)) (proper_readBack h)
    (isSome_name?_readBack h) ?_
  rw [readBack, holdsReference_rescope]
  exact hplain

/-! ## §3. The elements of what is written. -/

section Trees

variable {α : Type} (view : Name → α)

mutual
/-- Texts without characters are no part of the elements. -/
theorem treeOf_tidy (read : List Attribute → List (Name × List Char)) :
    (n : Node) → treeOf view read (fun _ => false) n.tidy
      = treeOf view (read ∘ List.map Attribute.tidy) (fun _ => false) n
  | .element name declared attributes children => by
    rw [Node.tidy, treeOf, treeOf, treesOf_tidyNodes read children]
    rfl
  | .text s => rfl
  | .comment s => rfl
  | .instruction target data => rfl
  | .reference name => rfl

theorem treesOf_tidyNodes (read : List Attribute → List (Name × List Char)) :
    (ns : List Node) → treesOf view read (fun _ => false) (tidyNodes ns)
      = treesOf view (read ∘ List.map Attribute.tidy) (fun _ => false) ns
  | [] => rfl
  | n :: rest => by
    rw [tidyNodes]
    split
    next hempty =>
      -- a text without characters is no element
      have hnone : treeOf view (read ∘ List.map Attribute.tidy) (fun _ => false) n = none := by
        cases n with
        | text s => rfl
        | _ => cases hempty
      rw [treesOf_tidyNodes read rest, treesOf, hnone]
      rfl
    next =>
      rw [treesOf, treesOf, treeOf_tidy read n, treesOf_tidyNodes read rest]
end

mutual
/-- Declarations are no part of the elements. -/
theorem treeOf_dropUnused (read : List Attribute → List (Name × List Char)) :
    (n : Node) → treeOf view read (fun _ => false) (dropUnused n)
      = treeOf view read (fun _ => false) n
  | .element name declared attributes children => by
    rw [dropUnused, treeOf, treeOf, treesOf_dropUnusedAmong read children]
  | .text s => by rw [dropUnused]; simp
  | .comment s => by rw [dropUnused]; simp
  | .instruction target data => by rw [dropUnused]; simp
  | .reference name => by rw [dropUnused]; simp

theorem treesOf_dropUnusedAmong (read : List Attribute → List (Name × List Char)) :
    (ns : List Node) → treesOf view read (fun _ => false) (dropUnusedAmong ns)
      = treesOf view read (fun _ => false) ns
  | [] => rfl
  | n :: rest => by
    rw [dropUnusedAmong, treesOf, treesOf, treeOf_dropUnused read n,
      treesOf_dropUnusedAmong read rest]
end

/-- Without references, elements are the same where attributes are read alike and the same elements
are gone. -/
theorem treeOf_congr {read read' : List Attribute → List (Name × List Char)}
    {gone gone' : Node → Bool} {keepsNotes : Bool}
    (hread : ∀ given, refer given = false → read given = read' given)
    (hgone : ∀ {outer n}, n.Regular keepsNotes outer → holdsReference n = false → gone n = gone' n)
    {outer : List Declaration} {n : Node} (h : n.Regular keepsNotes outer)
    (hplain : holdsReference n = false) :
    treeOf view read gone n = treeOf view read' gone' n := by
  induction h with
  | @element outer name declared attributes children _ _ hchildren ih =>
    rw [holdsReference_element, Bool.or_eq_false_iff] at hplain
    have hinner := holdsReference_of_mem hplain.2
    -- the same children stay, and by induction each with the same tree
    have hkept : ((children.filter isElement).filter fun n => !gone n)
        = (children.filter isElement).filter fun n => !gone' n :=
      List.filter_congr fun c hc => by
        have hmem := List.mem_of_mem_filter hc
        rw [hgone (hchildren c hmem) (hinner c hmem)]
    rw [treeOf, treeOf, treesOf_eq, treesOf_eq, hread _ hplain.1, hkept]
    refine congrArg (fun trees => some (ElementTree.element _ _ trees))
      (List.filterMap_congr fun c hc => ?_)
    have hmem := List.mem_of_mem_filter (List.mem_of_mem_filter hc)
    exact ih c hmem (hinner c hmem)
  | _ => rfl

end Trees

/-- The elements of a document. -/
def outline {α : Type} (view : Name → α) (d : Document) : Option (ElementTree α) :=
  treeOf view (values d) (fun _ => false) d.root

/-- The elements of a document without those that go, and with the attributes that are kept. -/
def reduced {α : Type} (view : Name → α) (d : Document) : Option (ElementTree α) :=
  treeOf view (keptValues d) (fun n => decide (Goes n)) d.root

mutual
/-- Declarations are no references. -/
theorem holdsReference_dropUnused : (n : Node) → holdsReference (dropUnused n) = holdsReference n
  | .element name declared attributes children => by
    rw [dropUnused, holdsReference, holdsReference, anyHoldsReference_dropUnusedAmong children]
  | .text s => by rw [dropUnused]; simp
  | .comment s => by rw [dropUnused]; simp
  | .instruction target data => by rw [dropUnused]; simp
  | .reference name => by rw [dropUnused]; simp

theorem anyHoldsReference_dropUnusedAmong :
    (ns : List Node) → anyHoldsReference (dropUnusedAmong ns) = anyHoldsReference ns
  | [] => rfl
  | n :: rest => by
    rw [dropUnusedAmong, anyHoldsReference, anyHoldsReference, holdsReference_dropUnused n,
      anyHoldsReference_dropUnusedAmong rest]
end

/-- An SVG without references is without them when it is optimized. -/
theorem plain_optimizeTree {text : String} {d : Document} (h : parse false text = .ok d)
    (hplain : holdsReference d.root = false) : holdsReference (optimizeTree d) = false := by
  rw [optimizeTree_eq, holdsReference_dropUnused]
  exact (pass_reducedTree d).plain (fun _ => refer_keptAttributes d) (regular_of_parse h) hplain

/-- The characters of the values of attributes without references. -/
def plainValues (attributes : List Attribute) : List (Name × List Char) :=
  attributes.map fun a => (a.name, plainText a.value)

/-- The elements of an optimized tree are those that do not go. -/
theorem treeOf_optimizeTree {α : Type} (view : Name → α) {text : String} {d : Document}
    (h : parse false text = .ok d) (hplain : holdsReference d.root = false) :
    treeOf view plainValues (fun _ => false) (optimizeTree d) = reduced view d := by
  have hregular := regular_of_parse h
  rw [optimizeTree_eq, treeOf_dropUnused, (pass_reducedTree d).treeOf view plainValues hregular]
  refine treeOf_congr view (fun given hgiven => plainText_keptAttributes d hgiven)
    (fun {_ n} hn hnplain => ?_) hregular hplain
  rw [dropped_eq_goes hn hnplain, Bool.eq_iff_iff, goes_iff, decide_eq_true_iff]

/-- The elements that are read back are those of the tree with the namespaces it is read with. -/
theorem outline_readBack {α : Type} (view : Name → α) {text : String} {d : Document}
    (h : parse false text = .ok d) (hplain : holdsReference (optimizeTree d) = false) :
    outline view ⟨[], (readBack d).tidy⟩
      = treeOf view plainValues (fun _ => false) (readBack d) := by
  rw [outline, treeOf_tidy]
  refine treeOf_congr view (fun given hgiven => ?_) (fun _ _ => rfl) (regular_readBack h) ?_
  · -- a value without references has its own characters, tidied or not
    rw [Function.comp, values_of_plain (by rw [refer_map_tidy]; exact hgiven), List.map_map]
    exact List.map_congr_left fun a _ => congrArg (Prod.mk a.name) (plainText_tidyValue a.value)
  · rw [readBack, holdsReference_rescope]
    exact hplain

theorem optimize_of_parse {text : String} {d : Document} (h : parse false text = .ok d) :
    ∃ r, optimize text = .ok r ∧ r.svg = print (optimizeTree d) := by
  refine ⟨.ofSizes (print (optimizeTree d)) (byteSize text) (byteSize (print (optimizeTree d))), ?_,
    rfl⟩
  rw [optimize, h, ok_bind]

/-- What is read back of an optimized SVG is elements and text. -/
theorem element_or_text_of_mem {outer : List Declaration} {n : Node} (h : n.Regular false outer)
    (hplain : holdsReference n = false) :
    ∀ m ∈ nodesIn n, isElement m = true ∨ m.isText = true := by
  induction h with
  | element hopens hapart hchildren ih =>
    rw [holdsReference_element, Bool.or_eq_false_iff] at hplain
    intro m hm
    rcases mem_nodesIn_element.mp hm with rfl | ⟨c, hc, hm⟩
    · exact Or.inl rfl
    · exact ih c hc (holdsReference_of_mem hplain.2 c hc) m hm
  | text s =>
    intro m hm
    rw [List.mem_singleton.mp hm]
    exact Or.inr rfl
  | comment hkeeps => cases hkeeps
  | instruction hkeeps => cases hkeeps
  | reference name => cases hplain

/-- What is read back is in the namespaces it was in iff no element without one comes under a
default. -/
theorem outline_readBack_iff {text : String} {d : Document} (h : parse false text = .ok d)
    (hplain : holdsReference d.root = false) :
    outline id ⟨[], (readBack d).tidy⟩ = reduced id d ↔ BareOutside (optimizeTree d) := by
  have hregular := regular_reducedTree d (regular_of_parse h)
  have hnothing : ∀ {p : Declaration → Prop}, ∀ d ∈ ([] : List Declaration), p d :=
    fun _ hd => absurd hd List.not_mem_nil
  rw [outline_readBack _ h (plain_optimizeTree h hplain), ← treeOf_optimizeTree _ h hplain,
    readBack, optimizeTree_eq,
    treeOf_rescope_iff plainValues hregular hnothing hnothing fun _ _ => rfl]
  refine and_iff_right fun hdefault => ?_
  obtain ⟨_, hd, _⟩ := hdefault
  exact absurd hd List.not_mem_nil

/-- **Optimizing takes away just what may go.**  An SVG without references to entities is optimized,
and what is written is read back as elements and text only.  The elements, with their names as they
are written and with their attributes and the values of these, are those of the SVG that do not go,
in the order and nesting that they had; editors' attributes are gone, and the numbers in
transformations and coordinates are rounded.  The elements are also in the namespaces they were in
iff, in the optimized tree, none without a namespace lies in or is one that names a default one. -/
theorem optimizes_exactly_iff {text : String} {d : Document} (h : parse false text = .ok d)
    (hplain : holdsReference d.root = false) :
    ∃ r again, optimize text = .ok r ∧ parse true r.svg = .ok again
      ∧ (∀ n ∈ nodesIn again.root, isElement n = true ∨ n.isText = true)
      ∧ outline Name.written again = reduced Name.written d
      ∧ (outline id again = reduced id d ↔ BareOutside (optimizeTree d)) := by
  have hplain' := plain_optimizeTree h hplain
  obtain ⟨r, hr, hsvg⟩ := optimize_of_parse h
  refine ⟨r, ⟨[], (readBack d).tidy⟩, hr, hsvg ▸ parse_optimized h hplain' true,
    element_or_text_of_mem (regular_of_parse (parse_optimized h hplain' false)) ?_, ?_,
    outline_readBack_iff h hplain⟩
  · rw [holdsReference_tidy, readBack, holdsReference_rescope]
    exact hplain'
  · rw [outline_readBack _ h hplain', readBack, treeOf_written_rescope,
      treeOf_optimizeTree _ h hplain]

/-! ## §4. Two small graphics. -/

instance : DecidablePred Bare := fun n =>
  match n with
  | .element name _ _ _ =>
    inferInstanceAs (Decidable (name.written.label = none ∧ name.space = none))
  | .text _ | .comment _ | .instruction _ _ | .reference _ => isFalse id

instance : DecidablePred DeclaresDefault := fun n =>
  match n with
  | .element _ declared _ _ => inferInstanceAs (Decidable (∃ d ∈ declared, d.label = none))
  | .text _ | .comment _ | .instruction _ _ | .reference _ => isFalse id

instance (root : Node) : Decidable (BareOutside root) :=
  inferInstanceAs (Decidable (∀ n ∈ nodesIn root, DeclaresDefault n → ∀ m ∈ nodesIn n, ¬ Bare m))

/-- A graphic with the data of an editor, groups that are empty in each other and one that has an
identity, and rounded numbers. -/
def edited : String :=
  "<svg xmlns='http://www.w3.org/2000/svg' viewBox='0 0 9 9' xmlns:e='"
    ++ "http://www.inkscape.org/namespaces/inkscape'><!-- n --><e:view><g id='v'/></e:view><g> "
    ++ "<defs/></g><g id='k' e:label='x'/><path d='M 1.23456 2'/></svg>"

theorem edited_reduced :
    ∃ d r again, parse false edited = .ok d ∧ holdsReference d.root = false
      ∧ optimize edited = .ok r ∧ parse true r.svg = .ok again
      ∧ outline id again = reduced id d := by
  have hfound : (parse false edited).toOption.any (fun d =>
      !holdsReference d.root && decide (BareOutside (optimizeTree d))) = true := by decide +kernel
  obtain ⟨d, hd, hboth⟩ := exists_of_any hfound
  rw [Bool.and_eq_true, Bool.not_eq_true', decide_eq_true_iff] at hboth
  obtain ⟨r, again, hr, hagain, _, _, hiff⟩ := optimizes_exactly_iff hd hboth.1
  exact ⟨d, r, again, hd, hboth.1, hr, hagain, hiff.mpr hboth.2⟩

/-- A graphic that takes the default namespace back for what lies in it. -/
def unnamed : String :=
  "<svg xmlns=\"http://www.w3.org/2000/svg\"><metadata xmlns=\"\"><note/></metadata></svg>"

/-- The declaration that takes the default namespace back refers to none, so it goes, and what lay
in no namespace is read back in that of the graphic. -/
theorem unnamed_not_reduced :
    ∃ d r again, parse false unnamed = .ok d ∧ holdsReference d.root = false
      ∧ optimize unnamed = .ok r ∧ parse true r.svg = .ok again
      ∧ ¬ outline id again = reduced id d := by
  have hfound : (parse false unnamed).toOption.any (fun d =>
      !holdsReference d.root && !decide (BareOutside (optimizeTree d))) = true := by decide +kernel
  obtain ⟨d, hd, hboth⟩ := exists_of_any hfound
  rw [Bool.and_eq_true, Bool.not_eq_true', Bool.not_eq_true', decide_eq_false_iff_not] at hboth
  obtain ⟨r, hr, hsvg⟩ := optimize_of_parse hd
  have hagain := parse_optimized hd (plain_optimizeTree hd hboth.1) true
  exact ⟨d, r, _, hd, hboth.1, hr, hsvg ▸ hagain,
    fun heq => hboth.2 ((outline_readBack_iff hd hboth.1).mp heq)⟩

end ControlSurface.Svg
