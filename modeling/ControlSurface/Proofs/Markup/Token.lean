/-
  ControlSurface.Proofs.Markup.Token
  ──────────────────────────────────
  Markup as a browser takes it in: a row of tags, with their attributes in double quotes, and of
  characters, references read; then the tags as they nest.  A comment ends as it does in a page,
  which may be before a reader of XML would end it.

  Main results:
    * `decode_escape` — escaped text is read as it was.
    * `Balanced.append`, `Balanced.around` — how balanced rows are put together.
-/
import ControlSurface.Text.Character
import ControlSurface.Text.LowerCase
import ControlSurface.Text.Search
import ControlSurface.Xml.Character

namespace ControlSurface.Markup

open ControlSurface.Text

/-! ## §1. References. -/

/-- The characters that markup of this library writes by a name. -/
def characterNames : List (String × Char) := Xml.namedChars ++ [("minus", '−')]

/-- Whether a character may stand between the ampersand and the semicolon of a reference. -/
def isReferenceChar (c : Char) : Bool := Xml.isLetter c || isAsciiDigit c || c = '#'

/-- The character that the inside of a reference stands for. -/
def referenced? : List Char → Option Char
  | '#' :: 'x' :: ds => (Xml.number? 16 ds).bind Xml.charOf?
  | '#' :: ds => (Xml.number? 10 ds).bind Xml.charOf?
  | name => (characterNames.find? fun n => n.1 == String.ofList name).map (·.2)

/-- The character that a text begins with, a reference read, and how many more characters belong
to the reference.  An ampersand that begins no reference stands for itself. -/
def character (c : Char) (cs : List Char) : Char × Nat :=
  let body := cs.takeWhile isReferenceChar
  if c = '&' ∧ (cs.dropWhile isReferenceChar).head? = some ';' then
    match referenced? body with
    | some d => (d, body.length + 1)
    | none => (c, 0)
  else (c, 0)

/-- A text with its references read; `skip` characters still belong to the last one. -/
def decodeFrom (skip : Nat) : List Char → List Char
  | [] => []
  | c :: cs =>
    match skip with
    | n + 1 => decodeFrom n cs
    | 0 => (character c cs).1 :: decodeFrom (character c cs).2 cs

/-- A text with its references read. -/
def decode (cs : List Char) : List Char := decodeFrom 0 cs

/-! ## §2. Tokens. -/

/-- A piece of markup as it is read. -/
inductive Token where
  /-- A tag that begins an element; an attribute may have no value, and `closed` tells that the tag
  also ends the element, as in SVG. -/
  | opening (name : String) (attributes : List (String × Option String)) (closed : Bool)
  | closing (name : String)
  /-- A comment, an instruction or a declaration. -/
  | note
  /-- A character of text. -/
  | char (c : Char)
  deriving Repr, DecidableEq, Inhabited

/-- Whether a character is blank inside a tag. -/
def isTagSpace (c : Char) : Bool := Xml.isSpace c || c = '\x0c'

/-- Whether a character may stand in the name of a tag or of an attribute. -/
def isTagNameChar (c : Char) : Bool :=
  !(isTagSpace c || ['<', '>', '/', '!', '?', '=', '"', '\''].contains c)

/-- What follows the next closing bracket. -/
def afterBracket? (cs : List Char) : Option (List Char) :=
  match cs.dropWhile (· ≠ '>') with
  | '>' :: rest => some rest
  | _ => none

/-- The two ways to end a comment. -/
def commentEnds : List (List Char) := [['-', '-', '>'], ['-', '-', '!', '>']]

/-- What follows the end of a comment. -/
def commentEnd? : List Char → Option (List Char)
  | [] => none
  | c :: cs =>
    match commentEnds.findSome? fun mark => after? mark (c :: cs) with
    | some rest => some rest
    | none => commentEnd? cs

/-- What follows a comment whose opening has been read.  A bracket at once ends it. -/
def afterComment? : List Char → Option (List Char)
  | '>' :: rest => some rest
  | '-' :: '>' :: rest => some rest
  | cs => commentEnd? cs

/-- The text in double quotes at the start of a text, references read, and what follows it. -/
def quoted? : List Char → Option (String × List Char)
  | '"' :: cs =>
    match cs.dropWhile (· ≠ '"') with
    | '"' :: rest => some (String.ofList (decode (cs.takeWhile (· ≠ '"'))), rest)
    | _ => none
  | _ => none

/-- The attribute at the start of a text, and what follows it. -/
def attribute? (cs : List Char) : Option ((String × Option String) × List Char) :=
  let name := String.ofList (cs.takeWhile isTagNameChar)
  if name = "" then none
  else match cs.dropWhile isTagNameChar with
    | '=' :: value => (quoted? value).map fun (text, rest) => ((name, some text), rest)
    | rest => some ((name, none), rest)

/-- The attributes of a tag, whether the tag ends its element, and what follows it. -/
def attributesFrom (passed : List (String × Option String)) (cs : List Char) :
    Option (List (String × Option String) × Bool × List Char) :=
  match cs.dropWhile isTagSpace with
  | '>' :: rest => some (passed.reverse, false, rest)
  | '/' :: '>' :: rest => some (passed.reverse, true, rest)
  | inner =>
    match attribute? inner with
    | some (a, rest) =>
      if rest.length < cs.length then attributesFrom (a :: passed) rest else none
    | none => none
termination_by cs.length

/-- The tag after an opening bracket, and what follows it. -/
def opening? (cs : List Char) : Option (Token × List Char) :=
  let name := String.ofList (cs.takeWhile isTagNameChar)
  if name = "" then none
  else (attributesFrom [] (cs.dropWhile isTagNameChar)).map fun (attributes, closed, rest) =>
    (.opening name attributes closed, rest)

/-- The end tag after its opening bracket and slash, and what follows it. -/
def closing? (cs : List Char) : Option (Token × List Char) :=
  let name := String.ofList (cs.takeWhile isTagNameChar)
  if name = "" then none
  else match (cs.dropWhile isTagNameChar).dropWhile isTagSpace with
    | '>' :: rest => some (.closing name, rest)
    | _ => none

/-- What follows a declaration or a comment whose opening bracket and mark have been read. -/
def afterDeclaration? (cs : List Char) : Option (List Char) :=
  match after? ['-', '-'] cs with
  | some rest => afterComment? rest
  | none => afterBracket? cs

/-- The token after an opening bracket, and what follows it. -/
def bracketed? : List Char → Option (Token × List Char)
  | '/' :: cs => closing? cs
  | '!' :: cs => (afterDeclaration? cs).map fun rest => (.note, rest)
  | '?' :: cs => (afterBracket? cs).map fun rest => (.note, rest)
  | cs => opening? cs

/-- The first token of a text, and what follows it. -/
def next? : List Char → Option (Token × List Char)
  | [] => none
  | '<' :: cs => bracketed? cs
  | c :: cs => some (.char (character c cs).1, cs.drop (character c cs).2)

/-- The tokens of a text; none if a tag or a comment in it has no end. -/
def tokens? (cs : List Char) : Option (List Token) :=
  if cs.isEmpty then some []
  else match next? cs with
    | some (t, rest) => if rest.length < cs.length then (tokens? rest).map (t :: ·) else none
    | none => none
termination_by cs.length

/-! ## §3. Nesting. -/

/-- A name in small letters; tags are compared so. -/
def smallName (name : String) : List Char := name.toList.map asciiLower

/-- Whether elements of a name have no content and no end tag. -/
def isVoid (name : String) : Bool := ["img", "input"].any fun v => smallName v == smallName name

/-- The open elements after a token, the innermost first; none if the token closes another one. -/
def Token.open? (opened : List String) : Token → Option (List String)
  | .opening name _ closed => if closed || isVoid name then some opened else some (name :: opened)
  | .closing name =>
    match opened with
    | [] => none
    | top :: outer => if smallName top = smallName name then some outer else none
  | .note | .char _ => some opened

/-- The open elements after tokens. -/
def open? (opened : List String) (ts : List Token) : Option (List String) :=
  ts.foldlM Token.open? opened

/-- Tokens in which every element that begins also ends, and none inside another one that has
ended. -/
def Balanced (ts : List Token) : Prop := open? [] ts = some []

instance (ts : List Token) : Decidable (Balanced ts) :=
  inferInstanceAs (Decidable (open? [] ts = some []))

/-- Markup that is a balanced row of tokens. -/
def IsBalanced (markup : String) : Prop := ∃ ts, tokens? markup.toList = some ts ∧ Balanced ts

instance (markup : String) : Decidable (IsBalanced markup) :=
  decidable_of_iff ((tokens? markup.toList).any fun ts => decide (Balanced ts)) (by
    rw [Option.any_eq_true]
    simp only [decide_eq_true_eq, IsBalanced])

/-! ## §4. References are read. -/

theorem decodeFrom_length (cs ds : List Char) : decodeFrom cs.length (cs ++ ds) = decode ds := by
  induction cs with
  | nil => rfl
  | cons c cs ih => exact ih

/-- Text that is read as one character, whatever follows it, and opens no tag. -/
structure Writes (cs : List Char) (c : Char) : Prop where
  read : ∃ d more, cs = d :: more ∧ ∀ rest, character d (more ++ rest) = (c, more.length)
  opens : '<' ∉ cs

theorem writes_self {c : Char} (hampersand : c ≠ '&') (hbracket : c ≠ '<') : Writes [c] c where
  read := ⟨c, [], rfl, fun _ => if_neg fun h => hampersand h.1⟩
  opens := by simpa using hbracket.symm

/-- An escaped character is read as itself. -/
theorem escapeChar_writes (c : Char) : Writes (escapeChar c) c := by
  unfold escapeChar
  split
  next h => exact h ▸ ⟨⟨'&', "amp;".toList, rfl, fun rest => rfl⟩, by decide⟩
  next hamp =>
    split
    next h => exact h ▸ ⟨⟨'&', "lt;".toList, rfl, fun rest => rfl⟩, by decide⟩
    next hlt =>
      split
      next h => exact h ▸ ⟨⟨'&', "gt;".toList, rfl, fun rest => rfl⟩, by decide⟩
      next =>
        split
        next h => exact h ▸ ⟨⟨'&', "#39;".toList, rfl, fun rest => rfl⟩, by decide⟩
        next =>
          split
          next h => exact h ▸ ⟨⟨'&', "#34;".toList, rfl, fun rest => rfl⟩, by decide⟩
          next => exact writes_self hamp hlt

/-- The characters that do not stand in escaped text. -/
def escapedMarks : List Char := ['<', '>', '\'', '"']

/-- A character is escaped without any mark, or it is no mark and stands for itself. -/
theorem not_mem_escapeChar {mark : Char} (hmark : mark ∈ escapedMarks) (c : Char) :
    mark ∉ escapeChar c := by
  by_cases hc : c ∈ '&' :: escapedMarks
  · have hescaped : ('&' :: escapedMarks).all (fun c =>
        (escapeChar c).all (!escapedMarks.contains ·)) = true := by decide
    intro hmem
    have hnot := List.all_eq_true.mp (List.all_eq_true.mp hescaped c hc) mark hmem
    rw [List.contains_iff_mem.mpr hmark] at hnot
    cases hnot
  · have hself : escapeChar c = [c] := by
      simp only [escapedMarks, List.mem_cons, List.not_mem_nil, or_false, not_or] at hc
      simp [escapeChar, hc]
    rw [hself, List.mem_singleton]
    rintro rfl
    exact hc (List.mem_cons_of_mem _ hmark)

/-- **Escaped text is read as it was.** -/
theorem decode_escape (cs rest : List Char) :
    decode (cs.flatMap escapeChar ++ rest) = cs ++ decode rest := by
  induction cs with
  | nil => rfl
  | cons c cs ih =>
    obtain ⟨d, more, hcs, hread⟩ := (escapeChar_writes c).read
    rw [List.flatMap_cons, hcs, List.append_assoc, List.cons_append, decode, decodeFrom, hread,
      decodeFrom_length, ih, List.cons_append]

theorem decode_of_not_mem {cs : List Char} (h : '&' ∉ cs) : decode cs = cs := by
  induction cs with
  | nil => rfl
  | cons c cs ih =>
    have hc : c ≠ '&' := fun heq => h (heq ▸ List.mem_cons_self ..)
    have hchar : character c cs = (c, 0) := if_neg fun h => hc h.1
    rw [decode, decodeFrom, hchar]
    exact congrArg (c :: ·) (ih fun hmem => h (List.mem_cons_of_mem c hmem))

/-! ## §5. Balanced rows. -/

theorem open?_append (opened : List String) (ts us : List Token) :
    open? opened (ts ++ us) = (open? opened ts).bind fun inner => open? inner us :=
  List.foldlM_append

theorem Token.open?_within {opened after : List String} {t : Token}
    (h : t.open? opened = some after) (outer : List String) :
    t.open? (opened ++ outer) = some (after ++ outer) := by
  cases t with
  | opening name given closed =>
    rw [Token.open?] at h ⊢
    split at h
    next hempty =>
      cases h
      exact if_pos hempty
    next hfull =>
      cases h
      exact if_neg hfull
  | closing name =>
    cases opened with
    | nil => cases h
    | cons top inner =>
      obtain ⟨hname, heq⟩ := Option.ite_none_right_eq_some.mp h
      cases heq
      exact if_pos hname
  | note => cases h; rfl
  | char c => cases h; rfl

/-- Elements that are open around a row do not matter in it. -/
theorem open?_within {opened after : List String} {ts : List Token} (h : open? opened ts = some after)
    (outer : List String) : open? (opened ++ outer) ts = some (after ++ outer) := by
  induction ts generalizing opened with
  | nil =>
    cases h
    rfl
  | cons t ts ih =>
    obtain ⟨inner, hinner, h⟩ := Option.bind_eq_some_iff.mp h
    show (t.open? (opened ++ outer)).bind _ = _
    rw [Token.open?_within hinner]
    exact ih h

theorem Balanced.within {ts : List Token} (h : Balanced ts) (outer : List String) :
    open? outer ts = some outer := open?_within h outer

theorem Balanced.nil : Balanced [] := rfl

theorem Balanced.append {ts us : List Token} (hts : Balanced ts) (hus : Balanced us) :
    Balanced (ts ++ us) := by
  rw [Balanced, open?_append, hts]
  exact hus

/-- A row between the two tags of an element. -/
theorem Balanced.around {ts : List Token} (h : Balanced ts) {name : String}
    (hname : isVoid name = false) (given : List (String × Option String)) :
    Balanced (.opening name given false :: (ts ++ [.closing name])) := by
  have hopen : Token.open? [] (.opening name given false) = some [name] := by
    simp [Token.open?, hname]
  show (Token.open? [] (.opening name given false)).bind _ = _
  rw [hopen]
  show open? [name] (ts ++ [.closing name]) = some []
  rw [open?_append, h.within]
  simp [open?, Token.open?]

end ControlSurface.Markup
