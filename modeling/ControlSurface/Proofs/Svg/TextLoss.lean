/-
  ControlSurface.Proofs.Svg.TextLoss
  ──────────────────────────────────
  Which characters optimizing takes from text elements: the text behind an element that goes, and
  blank text directly in an element whose white space is no content, also where this one lies in one
  whose white space is.  What is kept (`keptIn`) is compared with all of the content, node by node.

  Main results:
    * `keeps_node` — the characters that are kept are a part of all, and all of them unless some
      are lost.
    * `keeps_texts_iff` — every text element stays, and all of them keep their characters iff none
      loses some.
    * `space_in_link_lost` — two words that become one.
-/
import ControlSurface.Proofs.Svg.Remaining
import ControlSurface.Proofs.Svg.TextContent
import Mathlib.Data.List.Forall2

namespace ControlSurface.Svg

open ControlSurface.Outcome ControlSurface.Text ControlSurface.Xml

/-! ## §1. What is lost. -/

/-- Characters are lost from what lies in an element: text behind an element that goes, or blank
text directly in an element in which white space is no content.  Editors' elements are passed
over. -/
inductive LosesCharacters : Node → Prop where
  | behind {name : Name} {declared : List Declaration} {attributes : List Attribute}
      {children : List Node} {n : Node} {s : String} (hname : isEditorName name = false)
      (h : [n, .text s] <:+: children) (hn : Goes n) (hs : s ≠ "") :
      LosesCharacters (.element name declared attributes children)
  | blank {name : Name} {declared : List Declaration} {attributes : List Attribute}
      {children : List Node} {s : String} (hname : isEditorName name = false)
      (hspace : holdsText name = false) (h : .text s ∈ children) (hblank : isBlankString s = true)
      (hs : s ≠ "") : LosesCharacters (.element name declared attributes children)
  | inside {name : Name} {declared : List Declaration} {attributes : List Attribute}
      {children : List Node} {n : Node} (hname : isEditorName name = false) (h : n ∈ children)
      (hlost : LosesCharacters n) : LosesCharacters (.element name declared attributes children)

mutual
/-- Whether characters are lost from what lies in a node. -/
def losesCharacters : Node → Bool
  | .element name _ _ children =>
    !isEditorName name && losesCharactersAmong (holdsText name) false children
  | _ => false

/-- Whether characters are lost among nodes, with the flags of `keptAmong`. -/
def losesCharactersAmong (inText gone : Bool) : List Node → Bool
  | [] => false
  | .text s :: rest =>
    (gone || !inText && isBlankString s) && s != "" || losesCharactersAmong inText false rest
  | n :: rest => losesCharacters n || losesCharactersAmong inText (goes n) rest
end

theorem losesCharactersAmong_iff {inText gone : Bool} {ns : List Node} :
    losesCharactersAmong inText gone ns = true
      ↔ (gone = true ∧ textFirst ns = true) ∨ (∃ n s, [n, .text s] <:+: ns ∧ goes n = true ∧ s ≠ "")
        ∨ (inText = false ∧ ∃ s, .text s ∈ ns ∧ isBlankString s = true ∧ s ≠ "")
        ∨ ∃ n ∈ ns, losesCharacters n = true := by
  induction ns generalizing gone with
  | nil => simp [losesCharactersAmong, textFirst]
  | cons n rest ih =>
    rw [exists_text_behind_cons, List.exists_mem_cons_iff]
    cases n with
    | text s =>
      rw [losesCharactersAmong, Bool.or_eq_true, ih]
      simp only [Bool.and_eq_true, Bool.or_eq_true, Bool.not_eq_eq_eq_not, Bool.not_true,
        bne_iff_ne, ne_eq, Bool.false_eq_true, textFirst, false_and, false_or, goes, List.mem_cons,
        Node.text.injEq, exists_eq_or_imp, losesCharacters]
      grind
    | _ =>
      rw [losesCharactersAmong, Bool.or_eq_true, ih]
      · simp only [textFirst, ne_eq, Bool.false_eq_true, and_false, List.mem_cons, reduceCtorEq,
          false_or]
        grind
      · simp

theorem losesCharacters_element {name : Name} {declared : List Declaration}
    {attributes : List Attribute} {children : List Node} :
    losesCharacters (.element name declared attributes children) = true
      ↔ isEditorName name = false
        ∧ ((∃ n s, [n, .text s] <:+: children ∧ goes n = true ∧ s ≠ "")
          ∨ (holdsText name = false ∧ ∃ s, .text s ∈ children ∧ isBlankString s = true ∧ s ≠ "")
          ∨ ∃ n ∈ children, losesCharacters n = true) := by
  rw [losesCharacters, Bool.and_eq_true, Bool.not_eq_true', losesCharactersAmong_iff]
  simp only [Bool.false_eq_true, false_and, false_or]

mutual
theorem losesCharacters_of (n : Node) (h : losesCharacters n = true) : LosesCharacters n := by
  match n with
  | .element name declared attributes children =>
    obtain ⟨hname, ⟨m, s, hinfix, hm, hs⟩ | ⟨hspace, s, hmem, hblank, hs⟩ | ⟨m, hm, hlost⟩⟩ :=
      losesCharacters_element.mp h
    · exact .behind hname hinfix (goes_iff.mp hm) hs
    · exact .blank hname hspace hmem hblank hs
    · exact .inside hname hm (losesCharacters_of_mem children m hm hlost)
  | .text _ | .comment _ | .instruction _ _ | .reference _ => cases h

theorem losesCharacters_of_mem (ns : List Node) :
    ∀ n ∈ ns, losesCharacters n = true → LosesCharacters n := by
  match ns with
  | [] => simp
  | n :: rest =>
    exact List.forall_mem_cons.mpr ⟨losesCharacters_of n, losesCharacters_of_mem rest⟩
end

/-- **Whether characters are lost can be computed.** -/
theorem losesCharacters_iff {n : Node} : losesCharacters n = true ↔ LosesCharacters n := by
  refine ⟨losesCharacters_of n, fun h => ?_⟩
  induction h with
  | behind hname h hn hs =>
    exact losesCharacters_element.mpr ⟨hname, Or.inl ⟨_, _, h, goes_iff.mpr hn, hs⟩⟩
  | blank hname hspace h hblank hs =>
    exact losesCharacters_element.mpr ⟨hname, Or.inr (Or.inl ⟨hspace, _, h, hblank, hs⟩)⟩
  | inside hname h _ ih =>
    exact losesCharacters_element.mpr ⟨hname, Or.inr (Or.inr ⟨_, h, ih⟩)⟩

instance : DecidablePred LosesCharacters := fun _ => decidable_of_iff _ losesCharacters_iff

/-- Characters that are kept of others, in their order, and all of them unless some are lost. -/
structure Keeps (all kept : List Char) (lost : Bool) : Prop where
  sublist : kept.Sublist all
  same : kept = all ↔ lost = false

theorem keeps_refl (cs : List Char) : Keeps cs cs false := ⟨.refl _, iff_of_true rfl rfl⟩

theorem Keeps.append {all kept more left : List Char} {lost lost' : Bool} (h : Keeps all kept lost)
    (h' : Keeps more left lost') : Keeps (all ++ more) (kept ++ left) (lost || lost') := by
  refine ⟨h.sublist.append h'.sublist, ?_⟩
  rw [Bool.or_eq_false_iff, ← h.same, ← h'.same, append_eq_iff_of_sublist h.sublist h'.sublist]

theorem keeps_text (lost : Bool) (s : String) :
    Keeps s.toList (if lost then [] else s.toList) (lost && s != "") := by
  cases lost with
  | false => exact keeps_refl _
  | true =>
    refine ⟨List.nil_sublist _, ?_⟩
    rw [if_pos rfl, Bool.true_and, bne_eq_false_iff_eq, eq_comm, String.toList_eq_nil_iff]

mutual
/-- **What is kept of the characters in a node.** -/
theorem keeps_node :
    (n : Node) → Keeps (contentIn n).characters (keptIn n).characters (losesCharacters n)
  | .element name declared attributes children => by
    have hinner := keeps_nodes (holdsText name) false children
    rw [contentIn, keptIn, losesCharacters, Content.enclose, Content.enclose]
    cases isEditorName name with
    | true => exact keeps_refl []
    | false => exact hinner
  | .text s => keeps_refl s.toList
  | .comment s => keeps_refl []
  | .instruction target data => keeps_refl []
  | .reference name => keeps_refl []

theorem keeps_nodes (inText gone : Bool) :
    (ns : List Node) → Keeps (contentAmong ns).characters (keptAmong inText gone ns).characters
      (losesCharactersAmong inText gone ns)
  | [] => keeps_refl []
  | n :: rest => by
    cases n with
    | text s => exact (keeps_text _ s).append (keeps_nodes inText false rest)
    | element name declared attributes children =>
      rw [contentAmong, keptAmong, losesCharactersAmong]
      · exact (keeps_node _).append (keeps_nodes inText _ rest)
      · simp
      · simp
    | _ => exact (keeps_refl []).append (keeps_nodes inText _ rest)
end

/-! ## §2. Text elements. -/

mutual
/-- The text elements of a node that do not lie in an editor's, in document order. -/
def textElements : Node → List Node
  | .element name declared attributes children =>
    if isEditorName name then []
    else (if holdsText name then [.element name declared attributes children] else [])
      ++ textElementsAmong children
  | _ => []

/-- The text elements of nodes that do not lie in an editor's, in document order. -/
def textElementsAmong : List Node → List Node
  | [] => []
  | n :: rest => textElements n ++ textElementsAmong rest
end

mutual
/-- The texts in a node are the characters of its text elements. -/
theorem texts_contentIn :
    (n : Node) → (contentIn n).texts = (textElements n).map fun m => (contentIn m).characters
  | .element name declared attributes children => by
    rw [textElements, contentIn, Content.enclose]
    cases heditor : isEditorName name with
    | true => rfl
    | false =>
      rw [if_neg Bool.false_ne_true, if_neg Bool.false_ne_true, List.map_append,
        ← texts_contentAmong children, apply_ite (List.map _), List.map_singleton, contentIn,
        Content.enclose, heditor]
      rfl
  | .text s => rfl
  | .comment s => rfl
  | .instruction target data => rfl
  | .reference name => rfl

theorem texts_contentAmong : (ns : List Node) →
    (contentAmong ns).texts = (textElementsAmong ns).map fun m => (contentIn m).characters
  | [] => rfl
  | n :: rest => by
    rw [contentAmong, textElementsAmong, List.map_append, ← texts_contentIn n,
      ← texts_contentAmong rest]
    rfl
end

mutual
/-- Of the texts in a node the kept characters of its text elements are kept. -/
theorem texts_keptIn :
    (n : Node) → (keptIn n).texts = (textElements n).map fun m => (keptIn m).characters
  | .element name declared attributes children => by
    rw [textElements, keptIn, Content.enclose]
    cases heditor : isEditorName name with
    | true => rfl
    | false =>
      rw [if_neg Bool.false_ne_true, if_neg Bool.false_ne_true, List.map_append,
        ← texts_keptAmong (holdsText name) false children, apply_ite (List.map _),
        List.map_singleton, keptIn, Content.enclose, heditor]
      rfl
  | .text s => rfl
  | .comment s => rfl
  | .instruction target data => rfl
  | .reference name => rfl

theorem texts_keptAmong (inText gone : Bool) : (ns : List Node) →
    (keptAmong inText gone ns).texts
      = (textElementsAmong ns).map fun m => (keptIn m).characters
  | [] => rfl
  | n :: rest => by
    cases n with
    | text s =>
      rw [keptAmong, textElementsAmong, List.map_append, ← texts_keptAmong inText false rest]
      rfl
    | _ =>
      rw [keptAmong, textElementsAmong, List.map_append, ← texts_keptIn,
        ← texts_keptAmong inText _ rest]
      · rfl
      · simp
end

/-- The characters of each text element of a document that does not lie in an editor's, in document
order: at any depth, white space included, without those in editors' elements. -/
def texts (d : Document) : List (List Char) := (contentIn d.root).texts

/-- **Optimizing keeps every text element, and its characters unless some are lost.**  An SVG
without references to entities is optimized, and what is written is read back.  Outside of editors'
elements it has the same text elements, each with characters that it had, in their order.  All
characters of all text elements are there exactly if in none of them, at any depth, text follows an
element that goes, or blank text stands directly in an element whose white space is no content. -/
theorem keeps_texts_iff {text : String} {d : Document} (h : parse false text = .ok d)
    (hplain : holdsReference d.root = false) :
    ∃ r again, optimize text = .ok r ∧ parse true r.svg = .ok again
      ∧ List.Forall₂ List.Sublist (texts again) (texts d)
      ∧ (texts again = texts d ↔ ∀ n ∈ textElements d.root, ¬ LosesCharacters n) := by
  obtain ⟨r, hr, hsvg⟩ := optimize_of_parse h
  have hagain : texts ⟨[], (readBack d).tidy⟩
      = (textElements d.root).map fun n => (keptIn n).characters := by
    rw [texts, contentIn_readBack h hplain, texts_keptIn]
  have hbefore : texts d = (textElements d.root).map fun n => (contentIn n).characters :=
    texts_contentIn d.root
  have hread := parse_optimized h (plain_optimizeTree h hplain) true
  refine ⟨r, ⟨[], (readBack d).tidy⟩, hr, hsvg ▸ hread, ?_, ?_⟩
  · rw [hagain, hbefore, List.forall₂_map_left_iff, List.forall₂_map_right_iff, List.forall₂_same]
    exact fun n _ => (keeps_node n).sublist
  · rw [hagain, hbefore, List.map_inj_left]
    refine forall₂_congr fun n _ => ?_
    rw [(keeps_node n).same, ← losesCharacters_iff, Bool.not_eq_true]

/-- A graphic with a title, a link and a span in text, and an editor's note that nothing follows. -/
def labelledGraphic : String :=
  "<svg xmlns:i='http://www.inkscape.org/namespaces/inkscape'><title> a </title> <g/> <text> b"
    ++ "<a>c <tspan> d </tspan></a> e<i:note>f</i:note></text></svg>"

/-- All of its text is kept, and the note is none. -/
theorem labelledGraphic_keeps_texts :
    ∃ d r again, parse false labelledGraphic = .ok d ∧ holdsReference d.root = false
      ∧ optimize labelledGraphic = .ok r ∧ parse true r.svg = .ok again
      ∧ texts again = [" a ".toList, " bc  d  e".toList, " d ".toList] := by
  have hfound : (parse false labelledGraphic).toOption.any (fun d : Document =>
      !holdsReference d.root
      && decide (∀ n ∈ textElements d.root, ¬ LosesCharacters n)
      && decide (texts d = [" a ".toList, " bc  d  e".toList, " d ".toList])) = true := by
    decide +kernel
  obtain ⟨d, hd, hall⟩ := exists_of_any hfound
  simp only [Bool.and_eq_true, Bool.not_eq_true', decide_eq_true_iff] at hall
  obtain ⟨⟨hplain, hkept⟩, htexts⟩ := hall
  obtain ⟨r, again, hr, hagain, -, hiff⟩ := keeps_texts_iff hd hplain
  exact ⟨d, r, again, hd, hplain, hr, hagain, (hiff.mpr hkept).trans htexts⟩

/-- A link that holds only a space loses it, and two words become one. -/
theorem space_in_link_lost :
    ∃ d again, parse false "<svg><text>a<a> </a>b</text></svg>" = .ok d
      ∧ holdsReference d.root = false ∧ texts d = ["a b".toList]
      ∧ (optimize "<svg><text>a<a> </a>b</text></svg>").toOption.map Optimized.svg
        = some "<svg><text>a<a/>b</text></svg>"
      ∧ parse true "<svg><text>a<a/>b</text></svg>" = .ok again ∧ texts again = ["ab".toList] := by
  have hbefore : (parse false "<svg><text>a<a> </a>b</text></svg>").toOption.any (fun d =>
      !holdsReference d.root && decide (texts d = ["a b".toList])) = true := by decide +kernel
  have hafter : (parse true "<svg><text>a<a/>b</text></svg>").toOption.any (fun d =>
      decide (texts d = ["ab".toList])) = true := by decide +kernel
  obtain ⟨d, hd, hboth⟩ := exists_of_any hbefore
  obtain ⟨again, hagain, htexts⟩ := exists_of_any hafter
  rw [Bool.and_eq_true, Bool.not_eq_true', decide_eq_true_iff] at hboth
  exact ⟨d, again, hd, hboth.1, hboth.2, by decide +kernel, hagain, of_decide_eq_true htexts⟩

end ControlSurface.Svg
