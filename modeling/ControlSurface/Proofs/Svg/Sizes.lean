/-
  ControlSurface.Proofs.Svg.Sizes
  ───────────────────────────────
  How large an optimized SVG is.  A pass leaves an element and some of the nodes in it, so it can
  only make text longer through what it does to a tag (`Resizes.size_le`).  All passes of the
  optimizer shorten tags but one: rounded numbers are written out with a leading zero and set apart.
  So an optimized SVG has no more bytes than it was given, but for those that its tree gains when it
  is read and written, and those that rounding puts in (`optimizedBytes_le`).
-/
import ControlSurface.Proofs.Svg.Reduction
import ControlSurface.Proofs.Xml.Gains

namespace ControlSurface.Svg

open ControlSurface.Outcome ControlSurface.Text ControlSurface.Xml
open String (utf8Len utf8Len_append utf8Len_le_of_sublist utf8Len_le_of_suffix)

/-! ## §1. Passes that leave nodes. -/

/-- A pass that leaves an element and some of the nodes in it, `gain` being the bytes by which it
makes tags longer. -/
structure Resizes (gain : Node → Nat) (pass : Node → Node) : Prop where
  element : ∀ (name : Name) (declared : List Declaration) (attributes : List Attribute)
    (children : List Node), ∃ declared' attributes' after,
      pass (.element name declared attributes children) = .element name declared' attributes' after
        ∧ after.Sublist (children.map pass)
        ∧ tagSize name declared' attributes' ≤ tagSize name declared attributes
          + gain (.element name declared attributes children)
  other : ∀ n, isElement n = false → pass n = n

/-- An element with less in it is no longer: if nothing is left its end tag goes too. -/
theorem size_element_of_sublist {name : Name} {declared declared' : List Declaration}
    {attributes attributes' : List Attribute} {children after : List Node} {gain more : Nat}
    (htag : tagSize name declared' attributes' ≤ tagSize name declared attributes + gain)
    (hnil : children = [] → after = []) (hsizes : sizes after ≤ sizes children + more) :
    (Node.element name declared' attributes' after).size
      ≤ (Node.element name declared attributes children).size + (gain + more) := by
  have hend := endSize_eq name
  rw [size_element, size_element]
  cases children with
  | nil =>
    rw [hnil rfl]
    simp only [List.isEmpty_nil, if_true]
    omega
  | cons n rest =>
    rw [List.isEmpty_cons, if_neg Bool.false_ne_true]
    split <;> omega

theorem sizes_le_of_sublist {ns ms : List Node} (h : ns.Sublist ms) : sizes ns ≤ sizes ms := by
  induction h with
  | slnil => exact Nat.le_refl 0
  | cons n _ ih =>
    rw [sizes_cons]
    exact ih.trans (Nat.le_add_left _ _)
  | cons_cons n _ ih =>
    rw [sizes_cons, sizes_cons]
    exact Nat.add_le_add_left ih _

mutual
/-- **What a pass leaves** is longer by no more than tags are. -/
theorem Resizes.size_le {gain : Node → Nat} {pass : Node → Node} (h : Resizes gain pass) :
    (n : Node) → (pass n).size ≤ n.size + total gain n
  | .element name declared attributes children => by
    obtain ⟨declared', attributes', after, hpass, hafter, htag⟩ :=
      h.element name declared attributes children
    have hchildren := h.sizes_le children
    rw [hpass, total]
    refine size_element_of_sublist htag ?_ ((sizes_le_of_sublist hafter).trans hchildren)
    rintro rfl
    exact List.sublist_nil.mp hafter
  | .text _ | .comment _ | .instruction _ _ | .reference _ => by
    rw [h.other _ rfl]
    exact Nat.le_add_right _ _

theorem Resizes.sizes_le {gain : Node → Nat} {pass : Node → Node} (h : Resizes gain pass) :
    (ns : List Node) → sizes (ns.map pass) ≤ sizes ns + totalAmong gain ns
  | [] => Nat.le_refl 0
  | n :: rest => by
    have hfirst := h.size_le n
    have hrest := h.sizes_le rest
    rw [List.map_cons, sizes_cons, sizes_cons, totalAmong]
    omega
end

mutual
theorem total_zero : (n : Node) → total (fun _ => 0) n = 0
  | .element name declared attributes children => by rw [total, totalAmong_zero children]
  | .text _ | .comment _ | .instruction _ _ | .reference _ => by rw [total]; simp

theorem totalAmong_zero : (ns : List Node) → totalAmong (fun _ => 0) ns = 0
  | [] => rfl
  | n :: rest => by rw [totalAmong, total_zero n, totalAmong_zero rest]
end

/-- A pass that makes no tag longer makes nothing longer. -/
theorem Resizes.shortens {pass : Node → Node} (h : Resizes (fun _ => 0) pass) (n : Node) :
    (pass n).size ≤ n.size := by
  have hle := h.size_le n
  rwa [total_zero, Nat.add_zero] at hle

/-! ## §2. The passes of the optimizer. -/

theorem without_sublist {drops : Node → Bool} {pass : Node → Node} (h : Drops drops pass)
    (after : Bool) (ns : List Node) : (without drops pass after ns).Sublist (ns.map pass) := by
  induction ns generalizing after with
  | nil => exact List.Sublist.refl []
  | cons n ns ih =>
    rw [without, List.map_cons]
    split_ifs with htext
    · exact (ih false).cons _
    · rw [h.pass_text htext]
      exact (ih false).cons_cons _
    · exact (ih true).cons _
    · exact (ih false).cons_cons _

theorem resizes_dropBelow (p : Name → Bool) : Resizes (fun _ => 0) (dropBelow p) := by
  refine ⟨fun name declared attributes children => ?_, (drops_dropBelow p).other⟩
  refine ⟨declared, attributes, dropAmong p false children, by rw [dropBelow], ?_, Nat.le_refl _⟩
  rw [dropAmong_eq]
  exact without_sublist (drops_dropBelow p) false children

theorem collapseAmong_sublist (inText droppable : Bool) (ns : List Node) :
    (collapseAmong inText droppable ns).Sublist (ns.map collapseSpace) := by
  induction ns generalizing droppable with
  | nil => rw [collapseAmong]; exact List.Sublist.refl []
  | cons n ns ih =>
    rcases collapseAmong_cons inText droppable n ns with ⟨-, heq⟩ | ⟨b, heq⟩
    · rw [heq]
      exact (ih false).cons _
    · rw [heq]
      exact (ih b).cons_cons _

theorem resizes_collapseSpace : Resizes (fun _ => 0) collapseSpace := by
  refine ⟨fun name declared attributes children => ?_, fun n => collapseSpace_of_not⟩
  exact ⟨declared, attributes, collapseAmong (holdsText name) true children,
    by rw [collapseSpace], collapseAmong_sublist _ _ _, Nat.le_refl _⟩

theorem resizes_pruneBelow : Resizes (fun _ => 0) pruneBelow := by
  refine ⟨fun name declared attributes children => ?_, drops_pruneBelow.other⟩
  refine ⟨declared, attributes, pruneAmong false children, by rw [pruneBelow], ?_, Nat.le_refl _⟩
  rw [pruneAmong_eq]
  exact without_sublist drops_pruneBelow false children

/-- A pass over attributes gains what it makes of the attributes of each element. -/
theorem resizes_mapAttributes {f : List Attribute → List Attribute} {gain : Node → Nat}
    (h : ∀ n, utf8Len ((f n.attributes).flatMap attributeText)
      ≤ utf8Len (n.attributes.flatMap attributeText) + gain n) :
    Resizes gain (mapAttributes f) := by
  refine ⟨fun name declared attributes children => ?_, (drops_mapAttributes f).other⟩
  refine ⟨declared, f attributes, mapAttributesAmong f children, by rw [mapAttributes], ?_, ?_⟩
  · rw [mapAttributesAmong_without]
    exact without_sublist (drops_mapAttributes f) false children
  · have hle := h (.element name declared attributes children)
    rw [tagSize_eq, tagSize_eq]
    dsimp only [Node.attributes] at hle
    omega

/-- A tag with fewer declarations is no longer. -/
theorem tagSize_of_fewer {name : Name} {declared fewer : List Declaration}
    {attributes : List Attribute} (h : fewer.Sublist declared) :
    tagSize name fewer attributes ≤ tagSize name declared attributes := by
  have hle := utf8Len_le_of_sublist (h.flatMap declarationText)
  rw [tagSize_eq, tagSize_eq]
  omega

theorem resizes_dropUnused : Resizes (fun _ => 0) dropUnused := by
  refine ⟨fun name declared attributes children => ?_, fun n hn => ?_⟩
  · refine ⟨_, attributes, dropUnusedAmong children, by rw [dropUnused], ?_, ?_⟩
    · rw [dropUnusedAmong_eq]
    · exact tagSize_of_fewer List.filter_sublist
  · cases n with
    | element => cases hn
    | _ => rw [dropUnused]; simp

/-! ## §3. Rounding. -/

/-- By how many bytes rounding makes an attribute longer. -/
def attributeGain (d : Document) (a : Attribute) : Nat :=
  utf8Len (attributeText (roundAttribute d a)) - utf8Len (attributeText a)

/-- By how many bytes rounding makes the attributes of a tree longer. -/
def roundingGain (d : Document) : Node → Nat :=
  total fun n => (n.attributes.map (attributeGain d)).sum

theorem resizes_round (d : Document) :
    Resizes (fun n => (n.attributes.map (attributeGain d)).sum)
      (mapAttributes fun given => given.map (roundAttribute d)) := by
  refine resizes_mapAttributes fun n => ?_
  induction n.attributes with
  | nil => exact Nat.le_refl 0
  | cons a rest ih =>
    rw [List.map_cons, List.flatMap_cons, List.flatMap_cons, List.map_cons, List.sum_cons,
      utf8Len_append, utf8Len_append, attributeGain]
    omega

/-! ## §4. Optimized documents. -/

theorem size_thinned (n : Node) : (thinned n).size ≤ n.size := by
  have heditors : (dropEditorData n).size ≤ (dropBelow isEditorName n).size := by
    refine (resizes_mapAttributes fun m => ?_).shortens _
    exact utf8Len_le_of_sublist (List.filter_sublist.flatMap attributeText)
  calc (thinned n).size
      ≤ (collapseSpace (dropEditorData n)).size := resizes_pruneBelow.shortens _
    _ ≤ (dropEditorData n).size := resizes_collapseSpace.shortens _
    _ ≤ (dropBelow isEditorName n).size := heditors
    _ ≤ n.size := (resizes_dropBelow isEditorName).shortens n

/-- An optimized tree is longer by no more than its rounded attributes are. -/
theorem size_optimizeTree (d : Document) :
    (optimizeTree d).size ≤ d.root.size + roundingGain d (thinned d.root) := by
  calc (optimizeTree d).size
      ≤ (reducedTree d d.root).size := resizes_dropUnused.shortens _
    _ ≤ (thinned d.root).size + roundingGain d (thinned d.root) := (resizes_round d).size_le _
    _ ≤ d.root.size + roundingGain d (thinned d.root) := Nat.add_le_add_right (size_thinned _) _

theorem trim_sublist (cs : List Char) : (trim cs).Sublist cs :=
  (Number.trimEndBy_begins _ _).sublist.trans (List.dropWhile_suffix _).sublist

/-- **How large an optimized SVG is.**  An SVG that is optimized has no more bytes than before, but
for those by which its text is longer in the characters of its encoding, its character data and the
tags of its elements are longer as they are written, and its attributes are longer once they are
rounded.  If none of them is longer, it is not longer either. -/
theorem optimizedBytes_le {text : String} {r : Optimized} (h : optimize text = .ok r) :
    ∃ d l, parse false text = .ok d ∧ layout? (trim text.toList) = some l
      ∧ r.optimizedBytes ≤ r.givenBytes + (l.recoded + gains l.doctype.rules l.content
        + roundingGain d (thinned d.root)) := by
  obtain ⟨d, hd, hr⟩ := (bind_eq_ok_iff _ _ _).mp h
  cases hr
  obtain ⟨l, hl, hsize⟩ := size_of_read? (parse_eq_ok_iff.mp hd).1
  refine ⟨d, l, hd, hl, ?_⟩
  have hgiven : utf8Len (trim text.toList) ≤ byteSize text := by
    rw [byteSize, ← String.utf8Len_toList]
    exact utf8Len_le_of_sublist (trim_sublist _)
  have hwritten : byteSize (print (optimizeTree d)) = (optimizeTree d).size :=
    String.utf8ByteSize_ofList _
  have htree := size_optimizeTree d
  dsimp only [Optimized.ofSizes, Layout.gain] at hsize ⊢
  omega

/-- A graphic with a bracket in its text and a path without leading zeros, a space and a comment. -/
def compactGraphic : String := "<svg><!-- a --><g id='b'>></g><path d='M.5.5'/></svg>"

/-- It gains as much as its bracket and its path do, but for what its comment takes. -/
theorem compactGraphic_optimizedBytes :
    ∃ r d l, optimize compactGraphic = .ok r ∧ parse false compactGraphic = .ok d
      ∧ layout? (trim compactGraphic.toList) = some l
      ∧ r.optimizedBytes ≤ r.givenBytes + (l.recoded + gains l.doctype.rules l.content
        + roundingGain d (thinned d.root))
      ∧ l.recoded = 0 ∧ gains l.doctype.rules l.content = 3
      ∧ roundingGain d (thinned d.root) = 3 := by
  have hparse : (parse false compactGraphic).toOption.any (fun d =>
      roundingGain d (thinned d.root) == 3) = true := by decide +kernel
  have hlayout : (layout? (trim compactGraphic.toList)).any (fun l =>
      l.recoded == 0 && gains l.doctype.rules l.content == 3) = true := by decide +kernel
  obtain ⟨d, hd, hround⟩ := exists_of_any hparse
  obtain ⟨r, hr, -⟩ := optimize_of_parse hd
  obtain ⟨d', l, hd', hl, hle⟩ := optimizedBytes_le hr
  cases hd.symm.trans hd'
  rw [hl, Option.any_some, Bool.and_eq_true, beq_iff_eq, beq_iff_eq] at hlayout
  exact ⟨r, d, l, hr, hd, hl, hle, hlayout.1, hlayout.2, beq_iff_eq.mp hround⟩

/-- A path without leading zeros and spaces is longer than before. -/
theorem short_path_grows :
    ∃ r, optimize "<svg><path d=\"M.5.5\"/></svg>" = .ok r
      ∧ r.svg = "<svg><path d=\"M0.5 0.5\"/></svg>" ∧ ¬ r.optimizedBytes ≤ r.givenBytes := by
  have hfound : (optimize "<svg><path d=\"M.5.5\"/></svg>").toOption.any (fun r =>
      r.svg == "<svg><path d=\"M0.5 0.5\"/></svg>" && decide (¬ r.optimizedBytes ≤ r.givenBytes))
      = true := by decide +kernel
  obtain ⟨r, hr, hboth⟩ := exists_of_any hfound
  rw [Bool.and_eq_true, beq_iff_eq, decide_eq_true_iff] at hboth
  exact ⟨r, hr, hboth⟩

end ControlSurface.Svg
