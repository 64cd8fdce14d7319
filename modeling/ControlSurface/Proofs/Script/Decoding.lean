/-
  ControlSurface.Proofs.Script.Decoding
  ─────────────────────────────────────
  The values in a script decode back.  A literal, whether on one line or on many, spells the
  document of its value and is read as it (`DecodesTo`); and the script of a window holds two such
  literals, the bindings and the navigation, each between fixed text, wherever names and values of
  the window mimic a place, an end tag or an escape.
-/
import ControlSurface.Proofs.Fault.Outcome
import ControlSurface.Proofs.Script.Entries
import ControlSurface.Proofs.Script.Filling
import ControlSurface.Proofs.Script.Literals
import ControlSurface.Script.Binding

namespace ControlSurface.Script

open ControlSurface.Text ControlSurface.Json ControlSurface.Outcome

/-! ## §1. One literal. -/

/-- A text decodes to a value.  It spells the document of the value, and is read as what this
document stands for; for a value of the JSON data model the text is standard JSON, and it is read
as the value itself, with the fields of objects sorted by their keys. -/
structure DecodesTo (v : Value) (indent : Option Nat) (text : String) : Prop where
  spells : Spells (docOf (literalStyle indent) v) text
  reads : read text = (docOf (literalStyle indent) v).value
  standard : Faithful v → (docOf (literalStyle indent) v).Standard
  faithful : Faithful v → read text = .ok (arranged (literalStyle indent) v)

theorem decodesTo_of_spells {v : Value} {indent : Option Nat} {text : String}
    (h : Spells (docOf (literalStyle indent) v) text) : DecodesTo v indent text where
  spells := h
  reads := read_of_spells h
  standard := standard_docOf _
  faithful hv := (read_of_spells h).trans (value_docOf _ hv)

/-! ## §2. Where a literal ends. -/

/-- What ends a statement of a script: a semicolon at the end of a line. -/
def statementEnd : List Char := [';', '\n']

/-- A text without line breaks that ends with something else brings no end of a statement. -/
theorem not_infix_append {cs rest : List Char} (hline : '\n' ∉ cs) (hlast : cs.getLast? ≠ some ';')
    (hrest : ¬ statementEnd <:+: rest) : ¬ statementEnd <:+: cs ++ rest := by
  induction cs with
  | nil => exact hrest
  | cons c cs ih =>
    obtain ⟨_, htail⟩ := List.ne_and_not_mem_of_not_mem_cons hline
    rw [List.cons_append, List.infix_cons_iff]
    rintro (⟨more, hmore⟩ | hin)
    · obtain ⟨rfl, hnext⟩ := List.cons.inj hmore
      cases cs with
      | nil => exact hlast rfl
      | cons d cs =>
        have hd : '\n' = d := (List.cons.inj hnext).1
        exact htail (hd ▸ List.mem_cons_self ..)
    · refine ih htail ?_ hin
      cases cs with
      | nil => simp
      | cons d cs => rwa [List.getLast?_cons_cons] at hlast

theorem getLast?_spelled {l : Lexeme} {spelling : List Char} (h : l.Spelled spelling) :
    spelling.getLast? ≠ some ';' := by
  cases h with
  | text hchars =>
    rw [← List.cons_append, List.getLast?_concat]
    decide
  | number hnumber =>
    intro hlast
    exact absurd (number_alphabet hnumber _ (List.mem_of_getLast? hlast)) (by decide)
  | bool b => cases b <;> decide
  | _ => decide

/-- **No statement ends inside JSON text.** -/
theorem not_infix_spaced {row : List Lexeme} {cs : List Char} (h : Spaced row cs) :
    ¬ statementEnd <:+: cs := by
  induction h with
  | nil => simp [statementEnd]
  | @blank c row cs hblank _ ih =>
    rw [List.infix_cons_iff]
    rintro (⟨more, hmore⟩ | hin)
    · obtain ⟨rfl, _⟩ := List.cons.inj hmore
      cases hblank
    · exact ih hin
  | lexeme hspelled _ _ ih =>
    exact not_infix_append (not_mem_spelled hspelled) (getLast?_spelled hspelled) ih

/-- A text in which no statement ends is cut off at the first end after it. -/
theorem cutAt?_statement {cs : List Char} (h : ¬ statementEnd <:+: cs) (rest : List Char) :
    cutAt? statementEnd (cs ++ (statementEnd ++ rest)) = some (cs, rest) := by
  rw [cutAt?_eq_some_iff]
  refine ⟨rfl, ?_⟩
  induction cs with
  | nil => exact trivial
  | cons c cs ih =>
    rw [List.infix_cons_iff, not_or] at h
    refine ⟨?_, ih h.2⟩
    rw [Option.eq_none_iff_forall_ne_some]
    intro more hmore
    obtain ⟨rfl, htail⟩ := List.cons.inj (append_of_after? hmore)
    cases cs with
    | nil => cases htail
    | cons d cs =>
      obtain ⟨rfl, _⟩ := List.cons.inj htail
      exact h.1 ⟨cs, rfl⟩

/-! ## §3. The script of a window. -/

/-- A block of a script stands for a value: it decodes to it, and it is all that stands before the
end of the statement it belongs to. -/
structure IsBlock (v : Value) (block : String) : Prop where
  decodes : DecodesTo v defaultIndent block
  ends : ∀ rest, cutAt? statementEnd (block.toList ++ (statementEnd ++ rest))
    = some (block.toList, rest)

theorem isBlock_indented (v : Value) : IsBlock v (indented v) where
  decodes := decodesTo_of_spells (spells_indented v)
  ends := cutAt?_statement (not_infix_spaced (spells_indented v))

/-- The script of a window holds its bindings and its navigation, each in a statement of its own
after fixed lines that hold the name of the window and the selector of its root. -/
def HoldsValues (s : PageSetting) (elements : List Element) (text : String) : Prop :=
  ∃ name entries rest,
    commentName s.window.name = .ok name ∧ bindings s.layers elements = .ok entries
    ∧ text = ofLines (openingLines name (literal defaultIndent (.text s.rootSelector)))
        ++ ("  var BINDINGS = " ++ indented (bindingsValue entries) ++ ";\n")
        ++ ("  var NAVIGATION = " ++ indented (navigation s.links) ++ ";\n") ++ rest
    ∧ IsBlock (bindingsValue entries) (indented (bindingsValue entries))
    ∧ IsBlock (navigation s.links) (indented (navigation s.links))

/-- **What the script of a window is made of**: fixed lines with its name, the selector of its root,
its bindings and its navigation, and if it scales the script that does this. -/
theorem exists_bindingsScript {s : PageSetting} {elements : List Element} {text : String}
    (h : bindingsScript s elements = .ok text) :
    ∃ name entries tail, commentName s.window.name = .ok name
      ∧ bindings s.layers elements = .ok entries
      ∧ text = ofLines (openingLines name (literal defaultIndent (.text s.rootSelector))
          ++ ["  var BINDINGS = " ++ indented (bindingsValue entries) ++ ";",
            "  var NAVIGATION = " ++ indented (navigation s.links) ++ ";"] ++ closingLines) ++ tail
      ∧ (tail = "" ∨ ∃ scaling, scale (.int s.window.width) (.int s.window.height) s.minScale
          s.maxScale s.rootSelector = .ok scaling ∧ tail = "\n" ++ scaling) := by
  obtain ⟨name, hname, h⟩ := (bind_eq_ok_iff _ _ _).mp h
  obtain ⟨entries, hentries, h⟩ := (bind_eq_ok_iff _ _ _).mp h
  dsimp only at h
  rw [fill_bindingsTemplate] at h
  split at h
  · obtain ⟨scaling, hscaling, h⟩ := (bind_eq_ok_iff _ _ _).mp h
    refine ⟨name, entries, "\n" ++ scaling, hname, hentries, ?_, Or.inr ⟨scaling, hscaling, rfl⟩⟩
    rw [← Except.ok.inj h, String.append_assoc]
  · refine ⟨name, entries, "", hname, hentries, ?_, Or.inl rfl⟩
    rw [← Except.ok.inj h, String.append_empty]

theorem ofLines_pair (first second : String) :
    ofLines [first, second] = first ++ "\n" ++ (second ++ "\n") := by
  rw [← String.toList_inj, toList_ofLines]
  simp

theorem holdsValues_of_bindingsScript {s : PageSetting} {elements : List Element} {text : String}
    (h : bindingsScript s elements = .ok text) : HoldsValues s elements text := by
  obtain ⟨name, entries, tail, hname, hentries, htext, _⟩ := exists_bindingsScript h
  refine ⟨name, entries, ofLines closingLines ++ tail, hname, hentries, ?_, isBlock_indented _,
    isBlock_indented _⟩
  rw [htext, ofLines_append, ofLines_append, ofLines_pair]
  simp only [String.append_assoc]
  rfl

/-- **The values in scripts decode back.** -/
theorem scripts_decode_back :
    (∀ (v : Value) (indent : Option Nat),
      DecodesTo v indent (literal indent v) ∧ ¬ endTag <:+: (literal indent v).toList)
    ∧ ∀ (s : PageSetting) (elements : List Element) (text : String),
        bindingsScript s elements = .ok text → HoldsValues s elements text := by
  constructor
  · intro v indent
    exact ⟨decodesTo_of_spells (spells_literal indent v), no_end_tag_literal indent v⟩
  · exact fun s elements text h => holdsValues_of_bindingsScript h

/-! ## §4. A window that mimics its own script. -/

/-- A button whose label ends a script, breaks a line and names a place. -/
def mimicButton : Element :=
  ⟨.asciiButton, [("id", .text "go"), ("name", .text "Go"),
    ("label", .text "</script>\n__NAVIGATION__ \"\\u0041\"")]⟩

/-- Its window has the name of a place. -/
def mimicSetting : PageSetting :=
  { PageSetting.ofWindow { (default : Window) with name := .text "__BINDINGS__" } with
    links := [("</script>", ⟨.text "var BINDINGS = 0;\n", "next", "../next/"⟩)] }

/-- Its script holds its values all the same. -/
theorem mimicButton_decodes : ∃ text, bindingsScript mimicSetting [mimicButton] = .ok text
    ∧ HoldsValues mimicSetting [mimicButton] text := by
  obtain ⟨text, htext⟩ := exists_of_isOk
    (show (bindingsScript mimicSetting [mimicButton]).isOk = true by decide +kernel)
  exact ⟨text, htext, scripts_decode_back.2 mimicSetting [mimicButton] text htext⟩

end ControlSurface.Script
