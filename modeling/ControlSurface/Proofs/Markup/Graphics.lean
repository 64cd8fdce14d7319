/-
  ControlSurface.Proofs.Markup.Graphics
  ─────────────────────────────────────
  Sanitized graphics as a page reads them.  The printed tree of an SVG is balanced markup
  (`isBalanced_sanitize`), if a page ends its comments, its instructions and its elements where a
  reader of SVG ends them (`EndsAlike`); whatever its texts and attributes hold.
-/
import ControlSurface.Proofs.Markup.Reading
import ControlSurface.Proofs.Svg.Inert

namespace ControlSurface.Markup

open ControlSurface.Outcome ControlSurface.Text

/-! ## §1. Names and values. -/

theorem isTagName_of_proper {q : Xml.QName} (hq : q.Proper) : IsTagName q.text where
  ne_empty := by
    obtain ⟨c, more, hcons, _⟩ := Xml.exists_nameStart hq
    intro hnil
    rw [hnil] at hcons
    cases hcons
  chars := by
    have hall : ∀ d ∈ [' ', '\t', '\n', '\r', '\x0c', '<', '>', '/', '!', '?', '=', '"', '\''],
        Xml.isNameChar d = false ∧ d ≠ ':' := List.all_iff_forall_prop.mp (by decide)
    intro c hc
    have hnot : c ∉ [' ', '\t', '\n', '\r', '\x0c', '<', '>', '/', '!', '?', '=', '"', '\''] := by
      intro hmem
      rcases Xml.of_mem_text hq c hc with h | h
      · rw [(hall c hmem).1] at h
        cases h
      · exact (hall c hmem).2 h
    simp only [List.mem_cons, List.not_mem_nil, or_false, not_or] at hnot
    simp [isTagNameChar, isTagSpace, Xml.isSpace, hnot]

/-- An attribute of a tree as it is read in a page. -/
def readAttribute (a : Xml.TagAttribute) : String × Option String :=
  (a.name.text, some (String.ofList (decode (a.value.flatMap Xml.pieceText))))

theorem attributesFrom_print {given : List Xml.TagAttribute} (h : ∀ a ∈ given, a.Proper)
    (passed : List (String × Option String)) (rest : List Char) :
    attributesFrom passed (given.flatMap Xml.TagAttribute.print ++ rest)
      = attributesFrom ((given.map readAttribute).reverse ++ passed) rest := by
  induction given generalizing passed with
  | nil => rfl
  | cons a given ih =>
    have ha := h a (List.mem_cons_self ..)
    have hquote : '"' ∉ a.value.flatMap Xml.pieceText := by
      intro hmem
      obtain ⟨p, hp, hin⟩ := List.mem_flatMap.mp hmem
      exact Xml.not_mem_pieceText (ha.value.proper p hp) (by decide) hin
    have hrow : (a :: given).flatMap Xml.TagAttribute.print ++ rest
        = ' ' :: (a.name.text.toList ++ '=' :: '"' :: (a.value.flatMap Xml.pieceText
            ++ '"' :: (given.flatMap Xml.TagAttribute.print ++ rest))) := by
      rw [List.flatMap_cons, Xml.TagAttribute.print, Xml.assignment]
      simp
    rw [hrow, attributesFrom_value (isTagName_of_proper ha.name) hquote,
      ih fun b hb => h b (List.mem_cons_of_mem a hb)]
    simp [readAttribute]

/-! ## §2. Nodes. -/

/-- A node whose markup a page ends where a reader of SVG ends it: a comment that does not begin
like the end of one, an instruction without a bracket, and an element with something in it only if
pages know such elements. -/
def EndsAlike : Xml.Node → Prop
  | .element name _ _ children => isVoid name.written.text = true → children = []
  | .comment s => startsWith ['>'] s.toList = false ∧ startsWith ['-', '>'] s.toList = false
  | .instruction _ data => '>' ∉ data.toList
  | _ => True

instance : DecidablePred EndsAlike
  | .element name _ _ children =>
    inferInstanceAs (Decidable (isVoid name.written.text = true → children = []))
  | .comment _ => inferInstanceAs (Decidable (_ ∧ _))
  | .instruction _ data => inferInstanceAs (Decidable ('>' ∉ data.toList))
  | .text _ => isTrue trivial
  | .reference _ => isTrue trivial

theorem textChar_writes (c : Char) : Writes (Xml.textChar c) c := by
  unfold Xml.textChar
  split
  next h => exact h ▸ ⟨⟨'&', "amp;".toList, rfl, fun rest => rfl⟩, by decide⟩
  next hamp =>
    split
    next h => exact h ▸ ⟨⟨'&', "lt;".toList, rfl, fun rest => rfl⟩, by decide⟩
    next hlt =>
      split
      next h => exact h ▸ ⟨⟨'&', "gt;".toList, rfl, fun rest => rfl⟩, by decide⟩
      next =>
        split
        next h => exact h ▸ ⟨⟨'&', "#13;".toList, rfl, fun rest => rfl⟩, by decide⟩
        next => exact writes_self hamp hlt

/-- A reference is read as characters, whatever it is to. -/
theorem exists_readsAs_reference {name : String} (h : Xml.isName name.toList = true) :
    ∃ ts, ReadsAs (Xml.referenceText name) ts := by
  -- the semicolon is there, so what follows does not matter
  let inner := name.toList ++ [';']
  have hdrop : inner.dropWhile isReferenceChar ≠ [] := by
    rw [ne_eq, List.dropWhile_eq_nil_iff]
    intro hall
    exact absurd (hall ';' (List.mem_append_right _ (List.mem_singleton.mpr rfl))) (by decide)
  obtain ⟨c, after, hcons⟩ := List.exists_cons_of_ne_nil hdrop
  have hchar : ∀ rest, character '&' (inner ++ rest) = character '&' inner := by
    intro rest
    unfold character
    rw [(run_append hcons rest).1, (run_append hcons rest).2, hcons]
    rfl
  have hplain : ∀ d ∈ inner.drop (character '&' inner).2, d ≠ '&' ∧ d ≠ '<' := by
    intro d hd
    have hall : ∀ e ∈ ['&', '<'], Xml.isNameChar e = false ∧ e ≠ ';' :=
      List.all_iff_forall_prop.mp (by decide)
    have hnot : d ∉ ['&', '<'] := fun hmem => by
      rcases List.mem_append.mp (List.mem_of_mem_drop hd) with hname | hend
      · have := Xml.isNameChar_of_isName h d hname
        rw [(hall d hmem).1] at this
        cases this
      · exact (hall d hmem).2 (List.mem_singleton.mp hend)
    simpa using hnot
  have hrest := readsAs_chars hplain
  refine ⟨.char (character '&' inner).1 :: _, fun rest => ?_, hrest.balanced⟩
  have hnext : next? ('&' :: (inner ++ rest))
      = some (.char (character '&' inner).1, inner.drop (character '&' inner).2 ++ rest) := by
    rw [next?, hchar, List.drop_append_of_le_length (character_le _ _)]
    decide
  show tokens? ('&' :: (inner ++ rest)) = _
  have hshorter : (inner.drop (character '&' inner).2 ++ rest).length
      < ('&' :: (inner ++ rest)).length := by
    rw [List.length_append, List.length_cons, List.length_append, List.length_drop]
    omega
  rw [tokens?_next hnext hshorter, hrest.read, Option.map_map]
  rfl

/-- The end of a comment is found. -/
theorem commentEnd?_comment {s : List Char} (h : Unbroken ['-', '-'] s) (rest : List Char) :
    commentEnd? (s ++ '-' :: '-' :: '>' :: rest) = some rest := by
  induction s with
  | nil => rfl
  | cons c s ih =>
    -- either end begins with two hyphens, which do not stand here
    have hhyphens : after? ['-', '-'] (c :: (s ++ '-' :: '-' :: '>' :: rest)) = none := by
      have hroom := after?_room ['-', '-'] c s ('>' :: rest)
      rw [h.1] at hroom
      exact hroom
    have hnone : ∀ mark ∈ commentEnds,
        after? mark (c :: (s ++ '-' :: '-' :: '>' :: rest)) = none := by
      intro mark hmark
      rw [Option.eq_none_iff_forall_ne_some]
      intro left hleft
      rw [after?_eq_some_iff.mp hleft] at hhyphens
      rcases (by simpa [commentEnds] using hmark : mark = _ ∨ mark = _) with rfl | rfl
      all_goals cases hhyphens
    rw [List.cons_append, commentEnd?, List.findSome?_eq_none_iff.mpr hnone]
    exact ih h.2

theorem readsAs_comment {s : String} (h : Xml.IsComment s) (halike : EndsAlike (.comment s)) :
    ReadsAs (Xml.nodeText (.comment s)) [.note] := by
  obtain ⟨hbracket, harrow⟩ := halike
  refine ⟨fun rest => ?_, rfl⟩
  have hrow : Xml.nodeText (.comment s) ++ rest
      = '<' :: '!' :: '-' :: '-' :: (s.toList ++ '-' :: '-' :: '>' :: rest) := by
    simp [Xml.nodeText]
  have hend : afterComment? (s.toList ++ '-' :: '-' :: '>' :: rest) = some rest := by
    rw [afterComment?]
    · exact commentEnd?_comment h.1 rest
    · intro left hleft
      cases hs : s.toList with
      | nil => rw [hs] at hleft; cases hleft
      | cons c cs =>
        rw [hs] at hleft hbracket
        cases hleft
        cases hbracket
    · intro left hleft
      cases hs : s.toList with
      | nil => rw [hs] at hleft; cases hleft
      | cons c cs =>
        rw [hs] at hleft harrow
        cases cs with
        | nil => cases hleft
        | cons d cs =>
          cases hleft
          cases harrow
  rw [hrow]
  refine tokens?_next ?_ (by simp; omega)
  show (afterDeclaration? ('-' :: '-' :: (s.toList ++ '-' :: '-' :: '>' :: rest))).map _ = _
  have hopen : afterDeclaration? ('-' :: '-' :: (s.toList ++ '-' :: '-' :: '>' :: rest))
      = afterComment? (s.toList ++ '-' :: '-' :: '>' :: rest) := rfl
  rw [hopen, hend]
  rfl

theorem readsAs_instruction {target data : String} (h : Xml.IsInstruction target data)
    (halike : EndsAlike (.instruction target data)) :
    ReadsAs (Xml.nodeText (.instruction target data)) [.note] := by
  have hmark : '>' ∉ target.toList ++ ((if data = "" then [] else ' ' :: data.toList) ++ ['?']) := by
    have htarget : '>' ∉ target.toList := fun hmem =>
      absurd (Xml.isNameChar_of_isName h.isName '>' hmem) (by decide)
    have hdata : '>' ∉ data.toList := halike
    split
    next => simp [htarget]
    next => simp [htarget, hdata]
  refine ⟨fun rest => ?_, rfl⟩
  have hrow : Xml.nodeText (.instruction target data) ++ rest
      = '<' :: '?' :: ((target.toList ++ ((if data = "" then [] else ' ' :: data.toList) ++ ['?']))
        ++ '>' :: rest) := by
    simp [Xml.nodeText]
  rw [hrow]
  refine tokens?_next ?_ (by simp; omega)
  show (afterBracket? _).map _ = _
  rw [afterBracket?, dropWhile_append_mark hmark]
  rfl

/-- Nodes that are read as balanced tokens each are so one after the other. -/
theorem exists_readsAs_nodes {ns : List Xml.Node} (h : ∀ n ∈ ns, ∃ ts, ReadsAs (Xml.nodeText n) ts) :
    ∃ ts, ReadsAs (Xml.nodesText ns) ts := by
  induction ns with
  | nil => exact ⟨[], .nil⟩
  | cons n ns ih =>
    obtain ⟨ts, hts⟩ := h n (List.mem_cons_self ..)
    obtain ⟨us, hus⟩ := ih fun k hk => h k (List.mem_cons_of_mem n hk)
    exact ⟨ts ++ us, hts.append hus⟩

/-- An element is read as its tags, if what is in it is balanced. -/
theorem exists_readsAs_element {name : Xml.Name} {declared : List Xml.Declaration}
    {attributes : List Xml.Attribute} {children : List Xml.Node} (hname : name.written.Proper)
    (hdeclared : ∀ d ∈ declared, d.Proper) (hattributes : ∀ a ∈ attributes, a.Proper)
    (halike : isVoid name.written.text = true → children = [])
    (hchildren : ∃ ts, ReadsAs (Xml.nodesText children) ts) :
    ∃ ts, ReadsAs (Xml.nodeText (.element name declared attributes children)) ts := by
  have htag := isTagName_of_proper hname
  have hproper := Xml.proper_written hdeclared hattributes
  -- after the name stands a space before an attribute, or the end of the tag
  have hends : ∀ (c : Char) (rest : List Char), isTagNameChar c = false →
      EndsTagName ((Xml.written declared attributes).flatMap Xml.TagAttribute.print
        ++ c :: rest) := by
    intro c rest hc d hd
    cases hwritten : Xml.written declared attributes with
    | nil =>
      rw [hwritten] at hd
      cases hd
      exact hc
    | cons a given =>
      rw [hwritten] at hd
      cases hd
      decide
  by_cases hempty : children = []
  · subst hempty
    refine ⟨[.opening name.written.text ((Xml.written declared attributes).map readAttribute) true],
      fun rest => ?_, rfl⟩
    have hrow : Xml.nodeText (.element name declared attributes []) ++ rest
        = '<' :: (name.written.text.toList
          ++ ((Xml.written declared attributes).flatMap Xml.TagAttribute.print
            ++ '/' :: '>' :: rest)) := by
      rw [Xml.nodeText_element]
      simp
    rw [hrow, tokens?_opening htag (hends '/' _ (by decide))
      (by rw [attributesFrom_print hproper, attributesFrom_closed]) (by simp; omega)]
    simp
  · obtain ⟨ts, hts⟩ := hchildren
    have hfull : isVoid name.written.text = false := by
      rw [Bool.eq_false_iff]
      exact fun hvoid => hempty (halike hvoid)
    refine ⟨_, fun rest => ?_, hts.balanced.around hfull
      ((Xml.written declared attributes).map readAttribute)⟩
    have hrow : Xml.nodeText (.element name declared attributes children) ++ rest
        = '<' :: (name.written.text.toList
          ++ ((Xml.written declared attributes).flatMap Xml.TagAttribute.print
            ++ '>' :: (Xml.nodesText children
              ++ '<' :: '/' :: (name.written.text.toList ++ '>' :: rest)))) := by
      rw [Xml.nodeText_element, if_neg (by simpa using hempty)]
      simp
    rw [hrow, tokens?_opening htag (hends '>' _ (by decide))
      (by rw [attributesFrom_print hproper, attributesFrom_open]) (by simp; omega),
      hts.read, tokens?_closing htag, Option.map_map, Option.map_map]
    simp [Function.comp_def]

/-- **The text of a tree is balanced markup**, if a page ends its nodes where they end. -/
theorem exists_readsAs_node {n : Xml.Node} (h : n.Proper)
    (halike : ∀ m ∈ Svg.nodesIn n, EndsAlike m) : ∃ ts, ReadsAs (Xml.nodeText n) ts := by
  induction h with
  | element hname hdeclared hattributes _ ih =>
    refine exists_readsAs_element hname hdeclared hattributes
      (halike _ (Svg.mem_nodesIn_element.mpr (Or.inl rfl)))
      (exists_readsAs_nodes fun k hk => ih k hk fun m hm => halike m ?_)
    exact Svg.mem_nodesIn_element.mpr (Or.inr ⟨k, hk, hm⟩)
  | @text s hs => exact ⟨_, readsAs_flatMap textChar_writes s.toList⟩
  | @comment s hs => exact ⟨_, readsAs_comment hs (halike _ (List.mem_singleton.mpr rfl))⟩
  | @instruction target data hi =>
    exact ⟨_, readsAs_instruction hi (halike _ (List.mem_singleton.mpr rfl))⟩
  | @reference name hname => exact exists_readsAs_reference hname.1

/-- **Sanitized graphics are balanced markup**, if a page ends their nodes where they end. -/
theorem isBalanced_sanitize {source markup : String} (h : Svg.sanitize source = .ok markup)
    (halike : ∀ d, Svg.parse true source = .ok d → ∀ m ∈ Svg.nodesIn (Svg.strip d).root, EndsAlike m) :
    IsBalanced markup := by
  obtain ⟨d, hd, hout⟩ := (bind_eq_ok_iff _ _ _).mp h
  cases hout
  obtain ⟨hproper, _, _⟩ := Svg.root_of_parse hd
  obtain ⟨ts, hts⟩ := exists_readsAs_node (Svg.proper_strip hproper) (halike d hd)
  refine ⟨ts, ?_, hts.balanced⟩
  rw [Xml.print, String.toList_ofList]
  exact hts.tokens?

end ControlSurface.Markup
