/-
  ControlSurface.Proofs.Json.Printing
  ───────────────────────────────────
  What the printer writes.  A value is written as a document (`docOf`): numbers by their text, the
  fields of objects in the order of the style.  The text spells this document, whatever the style
  puts between its parts (`spells_print`), so it is read as what the document stands for; and for a
  value whose numbers are read back and whose keys are all different this is the value itself with
  its fields in order (`value_docOf`).
-/
import ControlSurface.Proofs.Json.Numeral
import ControlSurface.Proofs.Keyed.Entries

namespace ControlSurface.Json

open ControlSurface.Text ControlSurface.Outcome

/-! ## §1. Values. -/

/-- Induction on values: what holds of all items of a list, or of all fields of an object, has to
hold of it. -/
@[elab_as_elim]
theorem valueInduct {P : Value → Prop} (null : P .null) (bool : ∀ b, P (.bool b))
    (int : ∀ i, P (.int i)) (float : ∀ x, P (.float x)) (text : ∀ s, P (.text s))
    (list : ∀ items, (∀ v ∈ items, P v) → P (.list items))
    (object : ∀ fields, (∀ f ∈ fields, P f.2) → P (.object fields)) : ∀ v, P v := by
  intro v
  apply @Value.rec P (fun items => ∀ v ∈ items, P v) (fun fields => ∀ f ∈ fields, P f.2)
    (fun f => P f.2)
  case null => exact null
  case bool => exact bool
  case int => exact int
  case float => exact float
  case text => exact text
  case list => exact list
  case object => exact object
  case nil => exact List.forall_mem_nil _
  case cons => exact fun v items hv hitems => List.forall_mem_cons.mpr ⟨hv, hitems⟩
  case nil => exact List.forall_mem_nil _
  case cons => exact fun f fields hf hfields => List.forall_mem_cons.mpr ⟨hf, hfields⟩
  case mk => exact fun _ _ hv => hv

mutual
/-- The document that is written for a value. -/
def docOf (style : Style) : Value → Doc
  | .null => .null
  | .bool b => .bool b
  | .int i => .number (toString i).toList
  | .float x => .number (floatText x)
  | .text s => .text s
  | .list items => .list (itemDocs style items)
  | .object fields => .object (style.arrange (fieldDocs style fields))

/-- The documents of the items of a list. -/
def itemDocs (style : Style) : List Value → List Doc
  | [] => []
  | v :: rest => docOf style v :: itemDocs style rest

/-- The documents of the fields of an object. -/
def fieldDocs (style : Style) : List (String × Value) → List (String × Doc)
  | [] => []
  | (k, v) :: rest => (k, docOf style v) :: fieldDocs style rest
end

mutual
/-- A value with the fields of its objects, at every depth, in the order in which they are
written. -/
def arranged (style : Style) : Value → Value
  | .list items => .list (arrangedItems style items)
  | .object fields => .object (style.arrange (arrangedFields style fields))
  | v => v

/-- The items of a list, each arranged. -/
def arrangedItems (style : Style) : List Value → List Value
  | [] => []
  | v :: rest => arranged style v :: arrangedItems style rest

/-- The fields of an object, each arranged. -/
def arrangedFields (style : Style) : List (String × Value) → List (String × Value)
  | [] => []
  | (k, v) :: rest => (k, arranged style v) :: arrangedFields style rest
end

section Maps

variable (style : Style)

theorem itemDocs_eq_map (items : List Value) : itemDocs style items = items.map (docOf style) := by
  induction items with
  | nil => rfl
  | cons v items ih => rw [itemDocs, ih, List.map_cons]

theorem fieldDocs_eq_map (fields : List (String × Value)) :
    fieldDocs style fields = fields.map fun f => (f.1, docOf style f.2) := by
  induction fields with
  | nil => rfl
  | cons f fields ih => rw [fieldDocs, ih, List.map_cons]

theorem arrangedItems_eq_map (items : List Value) :
    arrangedItems style items = items.map (arranged style) := by
  induction items with
  | nil => rfl
  | cons v items ih => rw [arrangedItems, ih, List.map_cons]

theorem arrangedFields_eq_map (fields : List (String × Value)) :
    arrangedFields style fields = fields.map fun f => (f.1, arranged style f.2) := by
  induction fields with
  | nil => rfl
  | cons f fields ih => rw [arrangedFields, ih, List.map_cons]

theorem writeItems_eq_map (depth : Nat) (items : List Value) :
    writeItems style depth items = items.map (write style depth) := by
  induction items with
  | nil => rfl
  | cons v items ih => rw [writeItems, ih, List.map_cons]

theorem writeFields_eq_map (depth : Nat) (fields : List (String × Value)) :
    writeFields style depth fields = fields.map fun f => (f.1, write style depth f.2) := by
  induction fields with
  | nil => rfl
  | cons f fields ih => rw [writeFields, ih, List.map_cons]

/-- Fields are arranged by their keys alone. -/
theorem arrange_map {α β : Type} (f : α → β) (fields : List (String × α)) :
    style.arrange (fields.map fun e => (e.1, f e.2))
      = (style.arrange fields).map fun e => (e.1, f e.2) := by
  unfold Style.arrange
  split
  · exact (List.map_mergeSort (f := fun e : String × α => (e.1, f e.2))
      fun _ _ _ _ => rfl).symm
  · rfl

theorem arrange_perm {α : Type} (fields : List (String × α)) :
    (style.arrange fields).Perm fields := by
  unfold Style.arrange
  split
  · exact List.mergeSort_perm _ _
  · exact List.Perm.refl _

end Maps

theorem itemLexemes_eq_map (items : List Doc) : itemLexemes items = items.map Doc.lexemes := by
  induction items with
  | nil => rfl
  | cons d items ih => rw [itemLexemes, ih, List.map_cons]

theorem fieldLexemes_eq_map (fields : List (String × Doc)) :
    fieldLexemes fields = fields.map fun f => .text f.1 :: .colon :: f.2.lexemes := by
  induction fields with
  | nil => rfl
  | cons f fields ih => rw [fieldLexemes, ih, List.map_cons]

/-! ## §2. Strings. -/

/-- The UTF-16 unit that four hexadecimal digits stand for. -/
def unitOf? : List Char → Option Nat
  | [x₁, x₂, x₃, x₄] => unit? x₁ x₂ x₃ x₄
  | _ => none

/-- The escape of a control character is read as it. -/
theorem spells_control {c : Char} (h : c.toNat < 32) : SpellsChar c (unitEscape c.toNat) := by
  have hall : ∀ n < 32, unitOf? (hex4 n) = some n := by decide
  have hunit := hall c.toNat h
  unfold unitEscape
  unfold unitOf? at hunit
  split at hunit
  next heq =>
    rw [heq]
    exact .unit hunit
  next => cases hunit

/-- **The text of a character spells it.** -/
theorem spells_charText (c : Char) : SpellsChar c (charText false c) := by
  have hshort : ∀ {d e : Char}, c = d → shortEscape? e = some d → SpellsChar c ['\\', e] := by
    intro d e heq hescape
    rw [heq]
    exact .short hescape
  unfold charText
  split
  next h => exact hshort h rfl
  split
  next h => exact hshort h rfl
  split
  next h => exact hshort h rfl
  split
  next h => exact hshort h rfl
  split
  next h => exact hshort h rfl
  split
  next h => exact hshort h rfl
  split
  next h => exact hshort h rfl
  split
  next h => exact spells_control h
  next hquote hbackslash _ _ _ _ _ hprinted =>
    rw [Bool.false_and, if_neg Bool.false_ne_true]
    exact .plain (Nat.not_lt.mp hprinted) hquote hbackslash

theorem spells_flatMap (cs : List Char) : SpellsChars cs (cs.flatMap (charText false)) := by
  induction cs with
  | nil => exact .nil
  | cons c cs ih => exact .cons (spells_charText c) ih

/-- The text of a string spells it. -/
theorem spelled_stringText (s : String) : (Lexeme.text s).Spelled (stringText false s) :=
  .text (spells_flatMap s.toList)

/-! ## §3. Texts. -/

/-- A text writes a row of lexemes, whatever follows both. -/
def Writes (row : List Lexeme) (cs : List Char) : Prop :=
  ∀ more rest, Spaced more rest → Stops rest → Spaced (row ++ more) (cs ++ rest)

theorem writes_lexeme {l : Lexeme} {spelling : List Char} (h : l.Spelled spelling) :
    Writes [l] spelling := by
  intro more rest hspaced hstops
  refine .lexeme h ?_ hspaced
  cases l with
  | number => exact hstops
  | _ => exact trivial

theorem stops_blanks {blanks rest : List Char} (hblanks : ∀ c ∈ blanks, isJsonBlank c = true)
    (hrest : Stops rest) : Stops (blanks ++ rest) := by
  cases blanks with
  | nil => exact hrest
  | cons c blanks =>
    have hc := hblanks c (List.mem_cons_self ..)
    simp only [isJsonBlank, Bool.or_eq_true, beq_iff_eq] at hc
    rcases hc with ((rfl | rfl) | rfl) | rfl <;> exact stops_cons (by decide) _

theorem break_blank (style : Style) (depth : Nat) : ∀ c ∈ style.break depth, isJsonBlank c = true := by
  unfold Style.break
  intro c hc
  split at hc
  next =>
    rcases List.mem_cons.mp hc with rfl | hc
    · rfl
    · rw [(List.mem_replicate.mp hc).2]
      rfl
  next => cases hc

/-- Between two items stands a comma with blanks after it. -/
theorem exists_separator (style : Style) (depth : Nat) :
    ∃ blanks, style.separator depth = ',' :: blanks ∧ ∀ c ∈ blanks, isJsonBlank c = true := by
  unfold Style.separator
  split
  next => exact ⟨_, rfl, break_blank style depth⟩
  next => exact ⟨[' '], rfl, by simp [isJsonBlank]⟩

/-- Items that are put together write the rows with commas between them. -/
theorem writes_joined (style : Style) (depth : Nat) {rows : List (List Lexeme)}
    {items : List (List Char)} (h : List.Forall₂ Writes rows items) (hne : items ≠ []) :
    Writes (separated rows) (joinWith (style.separator depth) items) := by
  obtain ⟨blanks, hseparator, hblanks⟩ := exists_separator style depth
  induction h with
  | nil => exact absurd rfl hne
  | @cons row item rows items hrow hrows ih =>
    intro more rest hspaced hstops
    cases hrows with
    | nil =>
      have hjoin : joinWith (style.separator depth) [item] = item := by simp [joinWith]
      rw [hjoin]
      exact hrow more rest hspaced hstops
    | @cons row' item' rows items hrow' hrows =>
      have hmore := ih (by simp) more rest hspaced hstops
      have hcomma := Spaced.lexeme .comma trivial (hmore.blanks hblanks)
      rw [joinWith_cons_cons, separated, List.append_assoc, List.append_assoc, List.append_assoc,
        hseparator] at *
      -- an item ends before the comma
      exact hrow _ _ hcomma (stops_cons (by decide) _)

/-- **Items between brackets** are written so, on one line or on many. -/
theorem writes_bracketed (style : Style) (depth : Nat) {opening closing : Lexeme} {o c : Char}
    (hopening : opening.Spelled [o]) (hclosing : closing.Spelled [c])
    (hends : ∀ cs, opening.EndsBefore cs) (hstop : inNumeral c = false)
    {rows : List (List Lexeme)} {items : List (List Char)} (h : List.Forall₂ Writes rows items) :
    Writes (opening :: (separated rows ++ [closing])) (style.bracketed depth o c items) := by
  intro more rest hspaced hstops
  have hclosed : Spaced (closing :: more) (c :: rest) :=
    writes_lexeme hclosing more rest hspaced hstops
  unfold Style.bracketed
  cases h with
  | nil =>
    have hempty := Spaced.lexeme hopening (hends _) hclosed
    rw [if_pos List.isEmpty_nil]
    exact hempty
  | @cons row item rows items hrow hrows =>
    rw [if_neg (by simp)]
    have hbreak := hclosed.blanks (break_blank style depth)
    have hitems := writes_joined style (depth + 1) (.cons hrow hrows) (by simp) _ _ hbreak
      (stops_blanks (break_blank style depth) (stops_cons hstop rest))
    have hall := Spaced.lexeme hopening (hends _) (hitems.blanks (break_blank style (depth + 1)))
    simpa using hall

theorem forall₂_map {α : Type} {f : α → List Lexeme} {g : α → List Char} {xs : List α}
    (h : ∀ x ∈ xs, Writes (f x) (g x)) : List.Forall₂ Writes (xs.map f) (xs.map g) := by
  rw [List.forall₂_map_left_iff, List.forall₂_map_right_iff, List.forall₂_same]
  exact h

/-- A field is written as its key, a colon and its value. -/
theorem writes_field {row : List Lexeme} {cs : List Char} (h : Writes row cs) (k : String) :
    Writes (.text k :: .colon :: row) (stringText false k ++ [':', ' '] ++ cs) := by
  intro more rest hspaced hstops
  have hvalue : Spaced (row ++ more) (' ' :: (cs ++ rest)) := .blank rfl (h more rest hspaced hstops)
  have hcolon : Spaced (.colon :: (row ++ more)) (':' :: ' ' :: (cs ++ rest)) :=
    .lexeme .colon trivial hvalue
  have hkey := Spaced.lexeme (spelled_stringText k) trivial hcolon
  simpa using hkey

/-- **The text of a value writes its document.** -/
theorem writes_write {style : Style} (hascii : style.ascii = false) (v : Value) :
    ∀ depth, Writes (docOf style v).lexemes (write style depth v) := by
  induction v using valueInduct with
  | null => exact fun depth => writes_lexeme .null
  | bool b => exact fun depth => writes_lexeme (.bool b)
  | int i => exact fun depth => writes_lexeme (.number (.numeral (isNumeral_int i)))
  | float x => exact fun depth => writes_lexeme (.number (isNumber_float x))
  | text s =>
    intro depth
    rw [docOf, write, hascii]
    exact writes_lexeme (spelled_stringText s)
  | list items ih =>
    intro depth
    rw [docOf, Doc.lexemes, write, writeItems_eq_map, itemDocs_eq_map, itemLexemes_eq_map,
      List.map_map]
    exact writes_bracketed style depth .openList .closeList (fun _ => trivial) (by decide)
      (forall₂_map fun v hv => ih v hv (depth + 1))
  | object fields ih =>
    intro depth
    rw [docOf, Doc.lexemes, write, writeFields_eq_map, fieldDocs_eq_map, arrange_map, arrange_map,
      fieldLexemes_eq_map, List.map_map, hascii]
    show Writes _ (style.bracketed depth '\x7b' '\x7d' (List.map _ (List.map _ _)))
    rw [List.map_map]
    exact writes_bracketed style depth .openObject .closeObject (fun _ => trivial) (by decide)
      (forall₂_map fun f hf =>
        writes_field (ih f ((arrange_perm style fields).mem_iff.mp hf) (depth + 1)) f.1)

/-- **A value is printed as a text that spells its document.** -/
theorem spells_print {style : Style} (hascii : style.ascii = false) (v : Value) :
    Spells (docOf style v) (print style v) := by
  have hwrites := writes_write hascii v 0 [] [] .nil stops_nil
  rw [List.append_nil, List.append_nil] at hwrites
  rw [Spells, print, String.toList_ofList]
  exact hwrites

/-! ## §4. What the text stands for. -/

/-- A value of the JSON data model: its doubles are finite, its numbers are what their texts are
read as, and no key comes twice in an object. -/
inductive Faithful : Value → Prop where
  | null : Faithful .null
  | bool (b : Bool) : Faithful (.bool b)
  | int {i : Int} (hshort : (Number.digits i.natAbs).length ≤ Number.maxIntegerDigits) :
      Faithful (.int i)
  | float {x : Float} {d : Number.Dyadic} (hfinite : Number.parts x = .finite d)
      (hread : read (String.ofList (floatText x)) = .ok (.float x)) : Faithful (.float x)
  | text (s : String) : Faithful (.text s)
  | list {items : List Value} (hitems : ∀ v ∈ items, Faithful v) : Faithful (.list items)
  | object {fields : List (String × Value)} (hkeys : (Keyed.keys fields).Nodup)
      (hfields : ∀ f ∈ fields, Faithful f.2) : Faithful (.object fields)

theorem itemValues_map {α : Type} {f : α → Doc} {g : α → Value} {xs : List α}
    (h : ∀ x ∈ xs, (f x).value = .ok (g x)) : itemValues (xs.map f) = .ok (xs.map g) := by
  induction xs with
  | nil => rfl
  | cons x xs ih =>
    rw [List.map_cons, itemValues, h x (List.mem_cons_self ..),
      ih fun y hy => h y (List.mem_cons_of_mem x hy)]
    rfl

theorem fieldValues_map {f : Value → Doc} {g : Value → Value} {fields : List (String × Value)}
    (h : ∀ e ∈ fields, (f e.2).value = .ok (g e.2)) :
    fieldValues (fields.map fun e => (e.1, f e.2)) = .ok (fields.map fun e => (e.1, g e.2)) := by
  induction fields with
  | nil => rfl
  | cons e fields ih =>
    rw [List.map_cons, fieldValues, h e (List.mem_cons_self ..),
      ih fun y hy => h y (List.mem_cons_of_mem e hy)]
    rfl

/-- **The document of a value stands for the value**, with its fields in order. -/
theorem value_docOf (style : Style) {v : Value} (h : Faithful v) :
    (docOf style v).value = .ok (arranged style v) := by
  induction h with
  | null => rfl
  | bool b => rfl
  | text s => rfl
  | @int i hshort =>
    rw [docOf, Doc.value, String.ofList_toList]
    exact read_int hshort
  | float _ hread => exact hread
  | list _ ih =>
    rw [docOf, Doc.value, itemDocs_eq_map, itemValues_map ih, arranged, arrangedItems_eq_map]
    rfl
  | @object fields hkeys _ ih =>
    have hperm := arrange_perm style fields
    have hvalues : ∀ e ∈ style.arrange fields,
        (docOf style e.2).value = .ok (arranged style e.2) :=
      fun e he => ih e (hperm.mem_iff.mp he)
    have hnodup : (Keyed.keys ((style.arrange fields).map
        fun e => (e.1, arranged style e.2))).Nodup := by
      rw [Keyed.keys, List.map_map]
      exact (hperm.map Prod.fst).nodup_iff.mpr hkeys
    rw [docOf, Doc.value, fieldDocs_eq_map, arrange_map, fieldValues_map hvalues, arranged,
      arrangedFields_eq_map, arrange_map, ok_bind, Keyed.ofList_of_nodup _ hnodup]

theorem mem_separated {l : Lexeme} {rows : List (List Lexeme)} (h : l ∈ separated rows) :
    l = .comma ∨ ∃ row ∈ rows, l ∈ row := by
  induction rows with
  | nil => cases h
  | cons row rows ih =>
    cases rows with
    | nil => exact Or.inr ⟨row, List.mem_cons_self .., h⟩
    | cons row' rows =>
      rw [separated, List.mem_append, List.mem_cons] at h
      rcases h with h | h | h
      · exact Or.inr ⟨row, List.mem_cons_self .., h⟩
      · exact Or.inl h
      · rcases ih h with h | ⟨r, hr, h⟩
        · exact Or.inl h
        · exact Or.inr ⟨r, List.mem_cons_of_mem row hr, h⟩

/-- **The text of a value of the data model is standard JSON**: its numbers are numerals. -/
theorem standard_docOf (style : Style) {v : Value} (h : Faithful v) :
    (docOf style v).Standard := by
  induction h with
  | null => exact fun digits hmem => by simp [docOf, Doc.lexemes] at hmem
  | bool b => exact fun digits hmem => by simp [docOf, Doc.lexemes] at hmem
  | text s => exact fun digits hmem => by simp [docOf, Doc.lexemes] at hmem
  | int =>
    intro digits hmem
    rw [docOf, Doc.lexemes, List.mem_singleton] at hmem
    cases hmem
    exact isNumeral_int _
  | float hfinite =>
    intro digits hmem
    rw [docOf, Doc.lexemes, List.mem_singleton] at hmem
    cases hmem
    exact isNumeral_float hfinite
  | list _ ih =>
    intro digits hmem
    rw [docOf, Doc.lexemes, itemDocs_eq_map, itemLexemes_eq_map, List.map_map, List.mem_cons,
      List.mem_append, List.mem_singleton] at hmem
    rcases hmem with hmem | hmem | hmem
    · cases hmem
    · rcases mem_separated hmem with hmem | ⟨row, hrow, hmem⟩
      · cases hmem
      · obtain ⟨v, hv, rfl⟩ := List.mem_map.mp hrow
        exact ih v hv digits hmem
    · cases hmem
  | @object fields _ _ ih =>
    intro digits hmem
    rw [docOf, Doc.lexemes, fieldDocs_eq_map, arrange_map, fieldLexemes_eq_map, List.map_map,
      List.mem_cons, List.mem_append, List.mem_singleton] at hmem
    rcases hmem with hmem | hmem | hmem
    · cases hmem
    · rcases mem_separated hmem with hmem | ⟨row, hrow, hmem⟩
      · cases hmem
      · obtain ⟨f, hf, rfl⟩ := List.mem_map.mp hrow
        have hfield : f ∈ fields := (arrange_perm style fields).mem_iff.mp hf
        refine ih f hfield digits ?_
        simpa using hmem
    · cases hmem

end ControlSurface.Json
