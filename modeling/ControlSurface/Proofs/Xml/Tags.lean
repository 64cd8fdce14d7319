/-
  ControlSurface.Proofs.Xml.Tags
  ──────────────────────────────
  What is printed inside a tag is read back: names (`qname?_append`), references, values
  (`valuePieces_print`) and whole tags (`startTag?_print`).  A text without characters leaves no
  trace in a value, so values are read back without such texts (`tidyValue`); what they say under
  any reading of their entities is the same (`sameReading_tidy`).
-/
import ControlSurface.Proofs.Xml.Proper
import ControlSurface.Xml.Tree

namespace ControlSurface.Xml

open ControlSurface.Text

/-! ## §1. Names. -/

/-- Text at which a name ends. -/
def EndsName (rest : List Char) : Prop :=
  ∀ c, rest.head? = some c → isNameChar c = false ∧ c ≠ ':'

theorem isNameChar_of_isName {n : List Char} (h : isName n = true) : ∀ c ∈ n, isNameChar c = true := by
  cases n with
  | nil => cases h
  | cons c n =>
    rw [isName, Bool.and_eq_true] at h
    intro d hd
    rcases List.mem_cons.mp hd with rfl | hd
    · rw [isNameChar, h.1]
      rfl
    · exact List.all_eq_true.mp h.2 d hd

theorem name?_append {n rest : List Char} (hn : isName n = true)
    (hrest : ∀ c, rest.head? = some c → isNameChar c = false) :
    name? (n ++ rest) = some (n, rest) := by
  have hall := isNameChar_of_isName hn
  rw [name?, takeWhile_append_stop hall hrest, dropWhile_append_stop hall hrest]
  exact if_pos hn

/-- A name is read back with its label. -/
theorem qname?_append {q : QName} (hq : q.Proper) {rest : List Char} (hrest : EndsName rest) :
    qname? (q.text.toList ++ rest) = some (q, rest) := by
  obtain ⟨label, base⟩ := q
  have hbase : isName base.toList = true := hq.base
  cases label with
  | none =>
    rw [qname?, show QName.text ⟨none, base⟩ = base from rfl,
      name?_append hbase fun c hc => (hrest c hc).1]
    dsimp only [Option.bind_eq_bind, Option.bind_some]
    split
    next => exact absurd rfl (hrest ':' rfl).2
    next => rw [String.ofList_toList]
  | some l =>
    -- the label ends at its colon, which is no character of names
    have htext : (QName.text ⟨some l, base⟩).toList ++ rest
        = l.toList ++ ':' :: (base.toList ++ rest) := by
      rw [QName.text, String.toList_append, String.toList_append, List.append_assoc,
        List.append_assoc]
      rfl
    rw [qname?, htext, name?_append (hq.label l rfl) fun c hc => by cases hc; decide]
    dsimp only [Option.bind_eq_bind, Option.bind_some]
    show (name? (base.toList ++ rest)).bind _ = _
    rw [name?_append hbase fun c hc => (hrest c hc).1]
    dsimp only [Option.bind_eq_bind, Option.bind_some]
    rw [if_neg fun hc => (hrest ':' hc).2 rfl, String.ofList_toList, String.ofList_toList]

/-! ## §2. References. -/

theorem upToSemicolon?_append {body : List Char} (h : ';' ∉ body) (rest : List Char) :
    upToSemicolon? (body ++ ';' :: rest) = some (body, rest) := by
  rw [upToSemicolon?, dropWhile_append_mark h, takeWhile_append_mark h]
  rfl

/-- A reference to an entity is read back. -/
theorem reference?_entity {name : String} (h : IsEntity name) (rest : List Char) :
    reference? (name.toList ++ ';' :: rest) = some (.entity name, rest) := by
  obtain ⟨hname, hfree⟩ := h
  have hsemicolon : ';' ∉ name.toList := fun hmem =>
    absurd (isNameChar_of_isName hname ';' hmem) (by decide)
  rw [reference?, upToSemicolon?_append hsemicolon]
  dsimp only [Option.bind_eq_bind, Option.bind_some]
  -- no name begins as the number of a character does
  have hhash : ∀ more, name.toList ≠ '#' :: more := by
    intro more heq
    rw [heq] at hname
    cases hname
  split
  next heq => exact absurd heq (hhash _)
  next heq => exact absurd heq (hhash _)
  next =>
    rw [String.ofList_toList, hfree]
    exact if_pos hname

/-- Text that is written for a character: the character itself, which is none that a reader looks at,
or a reference to it. -/
def Writes (cs : List Char) (c : Char) : Prop :=
  (cs = [c] ∧ c ≠ '&' ∧ c ≠ '<' ∧ c ≠ '>')
    ∨ ∃ body, cs = '&' :: (body ++ [';']) ∧ body.all (fun d => d ≠ '"' ∧ d ≠ '<' ∧ d ≠ '>') = true
        ∧ ∀ rest, reference? (body ++ ';' :: rest) = some (.char c, rest)

theorem textChar_writes (c : Char) : Writes (textChar c) c := by
  unfold textChar
  split
  next h => exact Or.inr ⟨"amp".toList, rfl, by decide, fun rest => h ▸ rfl⟩
  next hamp =>
    split
    next h => exact Or.inr ⟨"lt".toList, rfl, by decide, fun rest => h ▸ rfl⟩
    next hlt =>
      split
      next h => exact Or.inr ⟨"gt".toList, rfl, by decide, fun rest => h ▸ rfl⟩
      next hgt =>
        split
        next h => exact Or.inr ⟨"#13".toList, rfl, by decide, fun rest => h ▸ rfl⟩
        next => exact Or.inl ⟨rfl, hamp, hlt, hgt⟩

theorem valueChar_writes (c : Char) : Writes (valueChar c) c := by
  unfold valueChar
  split
  next h => exact Or.inr ⟨"quot".toList, rfl, by decide, fun rest => h ▸ rfl⟩
  next =>
    split
    next h => exact Or.inr ⟨"#10".toList, rfl, by decide, fun rest => h ▸ rfl⟩
    next =>
      split
      next h => exact Or.inr ⟨"#9".toList, rfl, by decide, fun rest => h ▸ rfl⟩
      next => exact textChar_writes c

/-- In a value a blank that stands for itself is a space. -/
theorem eq_space_of_valueChar {c : Char} (h : valueChar c = [c]) (hspace : isSpace c = true) :
    c = ' ' := by
  rcases (by simpa [isSpace, or_assoc] using hspace : c = ' ' ∨ c = '\t' ∨ c = '\n' ∨ c = '\r') with
    rfl | rfl | rfl | rfl
  · rfl
  all_goals exact absurd h (by decide)

/-! ## §3. Values. -/

/-- What a value says, entities read by a table. -/
def meaning (named : String → List Char) (value : List Piece) : List Char :=
  value.flatMap fun
    | .text s => s.toList
    | .reference name => named name

/-- A value without texts that hold no characters. -/
def tidyValue (value : List Piece) : List Piece := value.filter fun p => p ≠ .text ""

theorem meaning_tidyValue (named : String → List Char) (value : List Piece) :
    meaning named (tidyValue value) = meaning named value := by
  induction value with
  | nil => rfl
  | cons p value ih =>
    by_cases hp : p = .text ""
    · subst hp
      exact ih
    · rw [tidyValue, List.filter_cons_of_pos (by simpa using hp), meaning, List.flatMap_cons,
        meaning, List.flatMap_cons]
      exact congrArg (_ ++ ·) ih

theorem pieces_cons (p : List Char ⊕ String) (parts : List (List Char ⊕ String)) :
    pieces (p :: parts) = pieces parts ++ pieces [p] := by
  simp [pieces]

/-- A character of a value is read back. -/
theorem valuePieces_valueChar {c : Char} (hc : isChar c = true) (parts : List (List Char ⊕ String))
    (rest : List Char) :
    valuePieces parts (valueChar c ++ rest) = valuePieces (addChar c parts) rest := by
  rcases valueChar_writes c with ⟨hself, hamp, hlt, _⟩ | ⟨body, hbody, _, href⟩
  · -- a reader makes spaces of blanks, but only a space is written as it is
    rw [hself, List.singleton_append, valuePieces, if_neg hlt, if_neg hamp]
    split
    next hspace => rw [eq_space_of_valueChar hself hspace]
    next => rfl
  · have htext : valueChar c ++ rest = '&' :: (body ++ ';' :: rest) := by
      rw [hbody]
      simp
    rw [htext, valuePieces, if_neg (by decide), if_pos rfl, href]
    exact if_pos (by simp; omega)

/-- The characters of a text are read back behind those that it has so far. -/
theorem valuePieces_more {cs : List Char} (hcs : IsText cs) (sofar : List Char)
    (parts : List (List Char ⊕ String)) (rest : List Char) :
    valuePieces (.inl sofar :: parts) (cs.flatMap valueChar ++ rest)
      = valuePieces (.inl (cs.reverse ++ sofar) :: parts) rest := by
  induction cs generalizing sofar with
  | nil => rfl
  | cons c cs ih =>
    rw [List.flatMap_cons, List.append_assoc, valuePieces_valueChar (hcs c (List.mem_cons_self ..)),
      addChar, ih fun d hd => hcs d (List.mem_cons_of_mem c hd)]
    simp

/-- A text in a value is read back, if what comes before it is none. -/
theorem valuePieces_text {cs : List Char} (hne : cs ≠ []) (hcs : IsText cs)
    {parts : List (List Char ⊕ String)} (hlast : ∀ p ∈ parts.head?, p.isLeft = false)
    (rest : List Char) :
    valuePieces parts (cs.flatMap valueChar ++ rest) = valuePieces (.inl cs.reverse :: parts) rest := by
  cases cs with
  | nil => exact absurd rfl hne
  | cons c cs =>
    have hnew : addChar c parts = .inl [c] :: parts := by
      unfold addChar
      split
      next sofar before => exact absurd (hlast (.inl sofar) rfl) (by simp)
      next => rfl
    rw [List.flatMap_cons, List.append_assoc, valuePieces_valueChar (hcs c (List.mem_cons_self ..)),
      hnew, valuePieces_more fun d hd => hcs d (List.mem_cons_of_mem c hd)]
    simp

theorem valuePieces_reference {name : String} (h : IsEntity name)
    (parts : List (List Char ⊕ String)) (rest : List Char) :
    valuePieces parts (referenceText name ++ rest) = valuePieces (.inr name :: parts) rest := by
  have htext : referenceText name ++ rest = '&' :: (name.toList ++ ';' :: rest) := by
    rw [referenceText]
    simp
  rw [htext, valuePieces, if_neg (by decide), if_pos rfl, reference?_entity h]
  exact if_pos (by simp; omega)

/-- **A value is read back.** -/
theorem valuePieces_print {value : List Piece} (h : IsValue value)
    {parts : List (List Char ⊕ String)}
    (hjoin : ∀ p ∈ parts.head?, p.isLeft = true → ∀ q ∈ value.head?, q.isText = false) :
    valuePieces parts (value.flatMap pieceText) = some (pieces parts ++ tidyValue value) := by
  induction value generalizing parts with
  | nil => rw [List.flatMap_nil, valuePieces, tidyValue, List.filter_nil, List.append_nil]
  | cons p value ih =>
    obtain ⟨hproper, hapart⟩ := h
    obtain ⟨hp, hvalue⟩ := List.forall_mem_cons.mp hproper
    obtain ⟨hnext, hrest⟩ := List.isChain_cons.mp hapart
    rw [List.flatMap_cons]
    cases p with
    | text s =>
      -- nothing that follows is text, for a value holds no two texts in a row
      have hgoes : ∀ q ∈ value.head?, q.isText = false := fun q hq => hnext q hq rfl
      by_cases hs : s = ""
      · subst hs
        exact ih ⟨hvalue, hrest⟩ fun _ _ _ => hgoes
      · have hlast : ∀ q ∈ parts.head?, q.isLeft = false := by
          intro q hq
          rw [Bool.eq_false_iff]
          intro hleft
          exact absurd (hjoin q hq hleft (.text s) rfl) (by simp [Piece.isText])
        have hread : pieces [.inl s.toList.reverse] = [.text s] := by simp [pieces]
        rw [pieceText, valuePieces_text (by simpa using hs) hp hlast,
          ih ⟨hvalue, hrest⟩ fun _ _ _ => hgoes, pieces_cons, hread, List.append_assoc, tidyValue,
          tidyValue, List.filter_cons_of_pos (by simpa using hs)]
        rfl
    | reference name =>
      have hread : pieces [.inr name] = [.reference name] := rfl
      have hnone : ∀ q ∈ (.inr name :: parts).head?, q.isLeft = true →
          ∀ r ∈ value.head?, r.isText = false := by
        intro q hq hleft
        cases hq
        cases hleft
      rw [pieceText, valuePieces_reference hp, ih ⟨hvalue, hrest⟩ hnone, pieces_cons, hread,
        List.append_assoc, tidyValue, tidyValue, List.filter_cons_of_pos (by simp)]
      rfl

/-! ## §4. Tags. -/

theorem exists_nameStart {q : QName} (hq : q.Proper) :
    ∃ c more, q.text.toList = c :: more ∧ isNameStart c = true := by
  obtain ⟨label, base⟩ := q
  have hfirst : ∀ {n : List Char}, isName n = true → ∃ c more, n = c :: more ∧ isNameStart c = true := by
    intro n hn
    cases n with
    | nil => cases hn
    | cons c more => exact ⟨c, more, rfl, (Bool.and_eq_true _ _ ▸ hn :).1⟩
  cases label with
  | none => exact hfirst hq.base
  | some l =>
    obtain ⟨c, more, hcons, hstart⟩ := hfirst (hq.label l rfl)
    refine ⟨c, more ++ ':' :: base.toList, ?_, hstart⟩
    rw [QName.text, String.toList_append, String.toList_append, hcons]
    simp

/-- The characters of a name are those of names, and a colon. -/
theorem of_mem_text {q : QName} (hq : q.Proper) :
    ∀ c ∈ q.text.toList, isNameChar c = true ∨ c = ':' := by
  obtain ⟨label, base⟩ := q
  intro c hc
  cases label with
  | none => exact Or.inl (isNameChar_of_isName hq.base c hc)
  | some l =>
    rw [QName.text, String.toList_append, String.toList_append, List.mem_append,
      List.mem_append] at hc
    rcases hc with (hc | hc) | hc
    · exact Or.inl (isNameChar_of_isName (hq.label l rfl) c hc)
    · exact Or.inr (by simpa using hc)
    · exact Or.inl (isNameChar_of_isName hq.base c hc)

theorem skipSpace_name {c : Char} (h : isNameStart c = true) (more : List Char) :
    skipSpace (c :: more) = c :: more := by
  have hsolid : isSpace c = false := by
    rw [Bool.eq_false_iff]
    intro hspace
    rcases (by simpa [isSpace, or_assoc] using hspace : c = ' ' ∨ c = '\t' ∨ c = '\n' ∨ c = '\r')
      with rfl | rfl | rfl | rfl
    all_goals exact absurd h (by decide)
  rw [skipSpace, List.dropWhile_cons_of_neg (by simp [hsolid])]

theorem quotedText?_append {raw : List Char} (h : '"' ∉ raw) (rest : List Char) :
    quotedText? ('"' :: (raw ++ '"' :: rest)) = some (raw, rest) := by
  rw [quotedText?, if_pos (Or.inl rfl), dropWhile_append_mark h, takeWhile_append_mark h]

/-- An attribute in a tag is read back. -/
theorem tagRest_assignment {q : QName} (hq : q.Proper) {raw : List Char} (hraw : '"' ∉ raw)
    {value : List Piece} (hvalue : valuePieces [] raw = some value) (passed : List TagAttribute)
    (rest : List Char) :
    tagRest passed (assignment q.text raw ++ rest) = tagRest (⟨q, value⟩ :: passed) rest := by
  obtain ⟨c, more, hcons, hstart⟩ := exists_nameStart hq
  have htext : assignment q.text raw ++ rest
      = ' ' :: (q.text.toList ++ '=' :: '"' :: (raw ++ '"' :: rest)) := by
    rw [assignment]
    simp
  have hskip : skipSpace (' ' :: (q.text.toList ++ '=' :: '"' :: (raw ++ '"' :: rest)))
      = q.text.toList ++ '=' :: '"' :: (raw ++ '"' :: rest) := by
    rw [skipSpace, List.dropWhile_cons_of_pos (show isSpace ' ' = true from rfl), hcons,
      List.cons_append]
    exact skipSpace_name hstart _
  have hname : qname? (q.text.toList ++ '=' :: '"' :: (raw ++ '"' :: rest)) = some (q, _) :=
    qname?_append hq fun d hd => by cases hd; decide
  rw [htext, tagRest.eq_def, hskip]
  -- a name begins neither of the two ends of a tag
  split
  next heq =>
    rw [hcons, List.cons_append] at heq
    obtain rfl := (List.cons.inj heq).1
    exact absurd hstart (by decide)
  next heq =>
    rw [hcons, List.cons_append] at heq
    obtain rfl := (List.cons.inj heq).1
    exact absurd hstart (by decide)
  next =>
    rw [if_neg (by simp), hname]
    dsimp only
    rw [show skipSpace ('=' :: '"' :: (raw ++ '"' :: rest)) = '=' :: '"' :: (raw ++ '"' :: rest) from rfl]
    have hquoted : quotedText? (skipSpace ('"' :: (raw ++ '"' :: rest))) = some (raw, rest) :=
      quotedText?_append hraw rest
    split
    next heq =>
      obtain rfl := (List.cons.inj heq).2
      rw [hquoted]
      dsimp only
      rw [hvalue]
      exact if_pos (by simp; omega)
    next hno => exact absurd rfl (hno _)

/-- The text of an attribute. -/
def TagAttribute.print (a : TagAttribute) : List Char :=
  assignment a.name.text (a.value.flatMap pieceText)

/-- Attributes of one name that say the same under every reading of their entities. -/
structure SameReading (a b : TagAttribute) : Prop where
  name : a.name = b.name
  value : ∀ named, meaning named a.value = meaning named b.value

/-- An attribute as it is read back. -/
def TagAttribute.tidy (a : TagAttribute) : TagAttribute := { a with value := tidyValue a.value }

theorem sameReading_tidy (a : TagAttribute) : SameReading a a.tidy :=
  ⟨rfl, fun named => (meaning_tidyValue named a.value).symm⟩

/-- A value holds no quote and no bracket of a tag. -/
theorem not_mem_pieceText {p : Piece} (hp : p.Proper) {d : Char} (hd : d ∈ ['"', '<', '>']) :
    d ∉ pieceText p := by
  have hall : ∀ e ∈ ['"', '<', '>'],
      valueChar e ≠ [e] ∧ isNameChar e = false ∧ e ≠ '&' ∧ e ≠ ';' :=
    List.all_iff_forall_prop.mp (by decide)
  obtain ⟨hwritten, hname, hamp, hsemicolon⟩ := hall d hd
  intro hmem
  cases p with
  | text s =>
    -- a character is none of these or is written as a reference, in which they do not occur
    obtain ⟨c, _, hc⟩ := List.mem_flatMap.mp hmem
    rcases valueChar_writes c with ⟨hself, _⟩ | ⟨body, hbody, hother, _⟩
    · rw [hself, List.mem_singleton] at hc
      exact hwritten (hc ▸ hself)
    · have hin : d ∈ body := by simpa [hbody, hamp, hsemicolon] using hc
      have hne : d ≠ '"' ∧ d ≠ '<' ∧ d ≠ '>' := by simpa using List.all_eq_true.mp hother d hin
      exact absurd hd (by simp [hne])
  | reference name =>
    have hin : d ∈ name.toList := by simpa [pieceText, referenceText, hamp, hsemicolon] using hmem
    rw [isNameChar_of_isName hp.1 d hin] at hname
    cases hname

theorem tagRest_print {a : TagAttribute} (ha : a.Proper) (passed : List TagAttribute)
    (rest : List Char) : tagRest passed (a.print ++ rest) = tagRest (a.tidy :: passed) rest := by
  have hvalue : valuePieces [] (a.value.flatMap pieceText) = some (tidyValue a.value) :=
    valuePieces_print ha.value (by simp)
  refine tagRest_assignment ha.name ?_ hvalue passed rest
  intro hmem
  obtain ⟨p, hp, hin⟩ := List.mem_flatMap.mp hmem
  exact not_mem_pieceText (ha.value.proper p hp) (by decide) hin

/-- **The attributes of a tag are read back.** -/
theorem tagRest_attributes {given : List TagAttribute} (h : ∀ a ∈ given, a.Proper)
    (passed : List TagAttribute) (rest : List Char) :
    tagRest passed (given.flatMap TagAttribute.print ++ rest)
      = tagRest ((given.map TagAttribute.tidy).reverse ++ passed) rest := by
  induction given generalizing passed with
  | nil => rfl
  | cons a given ih =>
    obtain ⟨ha, hgiven⟩ := List.forall_mem_cons.mp h
    rw [List.flatMap_cons, List.append_assoc, tagRest_print ha, ih hgiven]
    simp

/-- A name ends where attributes or the end of a tag follow. -/
theorem endsName_attributes (given : List TagAttribute) {c : Char}
    (hc : isNameChar c = false ∧ c ≠ ':') (rest : List Char) :
    EndsName (given.flatMap TagAttribute.print ++ c :: rest) := by
  intro d hd
  cases given with
  | nil =>
    cases hd
    exact hc
  | cons a given =>
    cases hd
    exact ⟨by decide, by decide⟩

/-- The end of a tag, which may close its element. -/
def tagEnd (closed : Bool) : List Char := if closed then ['/', '>'] else ['>']

theorem tagRest_end (closed : Bool) (passed : List TagAttribute) (rest : List Char) :
    tagRest passed (tagEnd closed ++ rest) = some (passed.reverse, closed, rest) := by
  rw [tagRest.eq_def]
  cases closed <;> rfl

/-- **A start tag is read back.** -/
theorem startTag?_print {q : QName} (hq : q.Proper) {given : List TagAttribute}
    (h : ∀ a ∈ given, a.Proper) (closed : Bool) (rest : List Char) :
    startTag? (q.text.toList ++ (given.flatMap TagAttribute.print ++ (tagEnd closed ++ rest)))
      = some (.start q (given.map TagAttribute.tidy) closed, rest) := by
  have hends : EndsName (given.flatMap TagAttribute.print ++ (tagEnd closed ++ rest)) := by
    cases closed with
    | true => exact endsName_attributes given (c := '/') (by decide) ('>' :: rest)
    | false => exact endsName_attributes given (c := '>') (by decide) rest
  rw [startTag?, qname?_append hq hends]
  dsimp only [Option.bind_eq_bind, Option.bind_some]
  rw [tagRest_attributes h, tagRest_end]
  simp

theorem endTag?_append {q : QName} (hq : q.Proper) (rest : List Char) :
    endTag? (q.text.toList ++ '>' :: rest) = some (.finish q, rest) := by
  rw [endTag?, qname?_append hq fun c hc => by cases hc; decide]
  rfl

end ControlSurface.Xml
