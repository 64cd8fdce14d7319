/-
  ControlSurface.Proofs.Script.Literals
  ─────────────────────────────────────
  Literals of scripts.  What is done to the JSON text of a value, before it stands in a script,
  changes how characters of strings are written and how much white space stands between lexemes,
  never what the text says: a slash after `<` becomes an escape (`spaced_slashed`), and a line
  break brings the indentation of its place with it (`spaced_broken`).

  Main results:
    * `spells_literal`, `spells_indented` — literals still spell the document of their value.
    * `no_end_tag_literal` — and the start of an end tag stands nowhere in them.
-/
import ControlSurface.Proofs.Json.Printing
import ControlSurface.Proofs.Text.Replacing
import ControlSurface.Script.Binding

namespace ControlSurface.Script

open ControlSurface.Text ControlSurface.Json

/-! ## §1. Slashes. -/

/-- The start of an end tag. -/
def endTag : List Char := ['<', '/']

/-- Text with a backslash before every slash that follows `<`; `after` tells whether `<` stands
before the text. -/
def slashed (after : Bool) : List Char → List Char
  | [] => []
  | c :: cs =>
    if after && c == '/' then '\\' :: '/' :: slashed false cs else c :: slashed (c == '<') cs

theorem slashed_cons {after : Bool} {c : Char} (h : (after && c == '/') = false) (cs : List Char) :
    slashed after (c :: cs) = c :: slashed (c == '<') cs := by
  rw [slashed, h]
  rfl

/-- A character that is neither of the two is kept. -/
theorem slashed_other {c : Char} (hopening : c ≠ '<') (hslash : c ≠ '/') (after : Bool)
    (cs : List Char) : slashed after (c :: cs) = c :: slashed false cs := by
  rw [slashed_cons (by rw [beq_eq_false_iff_ne.mpr hslash, Bool.and_false]),
    beq_eq_false_iff_ne.mpr hopening]

/-- What stands before a text matters only if the text begins with a slash. -/
theorem slashed_eq {cs : List Char} (h : cs.head? ≠ some '/') (after : Bool) :
    slashed after cs = slashed false cs := by
  cases cs with
  | nil => rfl
  | cons c cs =>
    have hc : (c == '/') = false := beq_eq_false_iff_ne.mpr fun heq => h (congrArg some heq)
    rw [slashed_cons (by rw [hc, Bool.and_false]), slashed_cons (Bool.false_and _)]

theorem startsWith_endTag (c : Char) (cs : List Char) :
    startsWith endTag (c :: cs) = (c == '<' && cs.head? == some '/') := by
  unfold startsWith endTag
  by_cases hc : c = '<'
  · cases cs with
    | nil => simp [after?, hc]
    | cons d cs =>
      by_cases hd : d = '/'
      · simp [after?, hc, hd]
      · simp [after?, hc, hd, Ne.symm hd]
  · simp [after?, hc, Ne.symm hc]

/-- **Escaping the start of end tags** is done in one pass. -/
theorem replaceAll_endTag (cs : List Char) :
    replaceAll endTag ['<', '\\', '/'] cs = slashed false cs := by
  have h := @replaces_replaceAll endTag ['<', '\\', '/'] (by decide) cs
  generalize replaceAll endTag ['<', '\\', '/'] cs = ds at h ⊢
  induction h with
  | nil => rfl
  | @keep c cs ds hstarts _ ih =>
    rw [slashed_cons (Bool.false_and _), ih]
    by_cases hc : c = '<'
    · rw [startsWith_endTag, hc] at hstarts
      rw [slashed_eq (by simpa using hstarts) (c == '<')]
    · rw [beq_eq_false_iff_ne.mpr hc]
  | swap _ ih => rw [ih]; rfl

/-- **No end tag starts** where slashes are escaped. -/
theorem not_infix_slashed (after : Bool) (cs : List Char) :
    ¬ endTag <:+: slashed after cs ∧ (after = true → (slashed after cs).head? ≠ some '/') := by
  induction cs generalizing after with
  | nil => exact ⟨by simp [slashed, endTag], by simp [slashed]⟩
  | cons c cs ih =>
    rw [slashed]
    split
    next h =>
      obtain ⟨hnone, _⟩ := ih false
      refine ⟨?_, by simp⟩
      rw [List.infix_cons_iff, List.infix_cons_iff]
      rintro (hpre | hpre | hin)
      · simp [endTag] at hpre
      · simp [endTag] at hpre
      · exact hnone hin
    next h =>
      obtain ⟨hnone, hhead⟩ := ih (c == '<')
      constructor
      · rw [List.infix_cons_iff]
        rintro (hpre | hin)
        · obtain ⟨rest, hrest⟩ := hpre
          obtain ⟨rfl, htail⟩ := List.cons.inj hrest
          exact hhead rfl (by rw [← htail]; rfl)
        · exact hnone hin
      · intro hafter heq
        obtain rfl : c = '/' := Option.some.inj heq
        rw [hafter] at h
        exact h rfl

/-! ## §2. Slashes in JSON texts. -/

/-- Text in which no `<` stands is left as it is. -/
theorem slashed_append {cs : List Char} (h : '<' ∉ cs) (rest : List Char) :
    slashed false (cs ++ rest) = cs ++ slashed false rest := by
  induction cs with
  | nil => rfl
  | cons c cs ih =>
    obtain ⟨hc, hcs⟩ := List.ne_and_not_mem_of_not_mem_cons h
    rw [List.cons_append, slashed_cons (Bool.false_and _), beq_eq_false_iff_ne.mpr hc.symm, ih hcs]
    rfl

/-- Text in which no slash stands is left as it is too. -/
theorem slashed_no_slash {cs : List Char} (h : '/' ∉ cs) (after : Bool) :
    ∃ after', ∀ rest, slashed after (cs ++ rest) = cs ++ slashed after' rest := by
  induction cs generalizing after with
  | nil => exact ⟨after, fun rest => rfl⟩
  | cons c cs ih =>
    obtain ⟨hc, hcs⟩ := List.ne_and_not_mem_of_not_mem_cons h
    obtain ⟨after', hrest⟩ := ih hcs (c == '<')
    refine ⟨after', fun rest => ?_⟩
    have hslash : (after && c == '/') = false := by
      rw [beq_eq_false_iff_ne.mpr hc.symm, Bool.and_false]
    rw [List.cons_append, slashed_cons hslash, hrest]
    rfl

/-- Only hexadecimal digits stand in the escape of a unit. -/
theorem not_mem_unit {x₁ x₂ x₃ x₄ c : Char} {n : Nat} (h : unit? x₁ x₂ x₃ x₄ = some n)
    (hmarks : c ≠ '\\' ∧ c ≠ 'u') (hdigit : hexValue? c = none) {rest : List Char}
    (hrest : c ∉ rest) : c ∉ '\\' :: 'u' :: x₁ :: x₂ :: x₃ :: x₄ :: rest := by
  have hne : ∀ {d : Char} {k : Nat}, hexValue? d = some k → c ≠ d := by
    rintro d k hd rfl
    rw [hdigit] at hd
    cases hd
  unfold unit? at h
  simp only [Option.bind_eq_bind, Option.bind_eq_some_iff] at h
  obtain ⟨_, h₁, _, h₂, _, h₃, _, h₄, _⟩ := h
  simp only [List.mem_cons, not_or]
  exact ⟨hmarks.1, hmarks.2, hne h₁, hne h₂, hne h₃, hne h₄, hrest⟩

/-- A spelled character stays spelled. -/
theorem spellsChar_slashed {c : Char} {spelling : List Char} (h : SpellsChar c spelling)
    (after : Bool) : ∃ spelling' after', SpellsChar c spelling'
      ∧ ∀ rest, slashed after (spelling ++ rest) = spelling' ++ slashed after' rest := by
  have hkeeps : '/' ∉ spelling → ∃ spelling' after', SpellsChar c spelling'
      ∧ ∀ rest, slashed after (spelling ++ rest) = spelling' ++ slashed after' rest := by
    intro hslash
    obtain ⟨after', hrest⟩ := slashed_no_slash hslash after
    exact ⟨spelling, after', h, hrest⟩
  cases h with
  | plain hprinted hquote hbackslash =>
    by_cases hescaped : (after && c == '/') = true
    · obtain ⟨_, hc⟩ := Bool.and_eq_true _ _ ▸ hescaped
      obtain rfl := beq_iff_eq.mp hc
      refine ⟨['\\', '/'], false, .short rfl, fun rest => ?_⟩
      rw [List.singleton_append, slashed, if_pos hescaped]
      rfl
    · refine ⟨[c], c == '<', .plain hprinted hquote hbackslash, fun rest => ?_⟩
      exact slashed_cons (by simpa using hescaped) rest
  | @short e hescape =>
    refine ⟨['\\', e], e == '<', .short hescape, fun rest => ?_⟩
    show slashed after ('\\' :: e :: rest) = _
    rw [slashed_other (by decide) (by decide), slashed_cons (Bool.false_and _)]
    rfl
  | unit hunit => exact hkeeps (not_mem_unit hunit (by decide) (by decide) List.not_mem_nil)
  | pair hhigh hlow =>
    have hlater := not_mem_unit (c := '/') hlow (by decide) (by decide) List.not_mem_nil
    exact hkeeps (not_mem_unit hhigh (by decide) (by decide) hlater)

theorem spellsChars_slashed {chars body : List Char} (h : SpellsChars chars body) (after : Bool) :
    ∃ body' after', SpellsChars chars body'
      ∧ ∀ rest, slashed after (body ++ rest) = body' ++ slashed after' rest := by
  induction h generalizing after with
  | nil => exact ⟨[], after, .nil, fun rest => rfl⟩
  | cons hchar _ ih =>
    obtain ⟨spelling', middle, hspells, hfirst⟩ := spellsChar_slashed hchar after
    obtain ⟨body', after', hbody, hrest⟩ := ih middle
    refine ⟨spelling' ++ body', after', .cons hspells hbody, fun rest => ?_⟩
    rw [List.append_assoc, hfirst, hrest, List.append_assoc]

/-- The characters of which numbers are written. -/
def numberAlphabet : List Char := "0123456789+-.eENaInfity".toList

theorem digits_alphabet {ds : List Char} (h : Number.Digits ds) : ∀ c ∈ ds, c ∈ numberAlphabet := by
  intro c hc
  have hmem := mem_digits (h.ascii c hc)
  simp only [List.mem_cons, List.not_mem_nil, or_false] at hmem
  rcases hmem with rfl | rfl | rfl | rfl | rfl | rfl | rfl | rfl | rfl | rfl <;> decide

theorem number_alphabet {ds : List Char} (h : IsNumber ds) : ∀ c ∈ ds, c ∈ numberAlphabet := by
  cases h with
  | special h =>
    have hall : ∀ w ∈ specialWords, w.all (fun c => decide (c ∈ numberAlphabet)) = true := by decide
    exact List.all_iff_forall_prop.mp (hall ds h)
  | numeral h =>
    obtain ⟨hsign, hwhole, hfraction, hexponent⟩ := h
    have hmark : ∀ c, c = 'e' ∨ c = 'E' → c ∈ numberAlphabet := by
      rintro c (rfl | rfl) <;> decide
    intro c hc
    rw [List.mem_append, List.mem_append, List.mem_append] at hc
    rcases hc with hc | hc | hc | hc
    · rcases hsign with rfl | rfl
      · cases hc
      · rw [List.mem_singleton.mp hc]
        decide
    · exact digits_alphabet hwhole.digits_of c hc
    · cases hfraction with
      | none => cases hc
      | point hdigits =>
        rcases List.mem_cons.mp hc with rfl | hc
        · decide
        · exact digits_alphabet hdigits c hc
    · cases hexponent with
      | none => cases hc
      | plain he hdigits =>
        rcases List.mem_cons.mp hc with rfl | hc
        · exact hmark c he
        · exact digits_alphabet hdigits c hc
      | signed he hs hdigits =>
        rcases List.mem_cons.mp hc with rfl | hc
        · exact hmark c he
        · rcases List.mem_cons.mp hc with rfl | hc
          · rcases hs with rfl | rfl <;> decide
          · exact digits_alphabet hdigits c hc

/-- A spelled lexeme stays spelled. -/
theorem spelled_slashed {l : Lexeme} {spelling : List Char} (h : l.Spelled spelling) :
    ∃ spelling', l.Spelled spelling'
      ∧ ∀ rest, slashed false (spelling ++ rest) = spelling' ++ slashed false rest := by
  have hkeeps : '<' ∉ spelling → ∃ spelling', l.Spelled spelling'
      ∧ ∀ rest, slashed false (spelling ++ rest) = spelling' ++ slashed false rest :=
    fun hnone => ⟨spelling, h, slashed_append hnone⟩
  cases h with
  | text hchars =>
    obtain ⟨body', after', hbody, hrest⟩ := spellsChars_slashed hchars false
    refine ⟨'"' :: (body' ++ ['"']), .text hbody, fun rest => ?_⟩
    rw [List.cons_append, List.append_assoc, slashed_other (by decide) (by decide), hrest,
      List.singleton_append, slashed_other (by decide) (by decide), List.cons_append,
      List.append_assoc]
    rfl
  | number hnumber =>
    exact hkeeps fun hmem => absurd (number_alphabet hnumber _ hmem) (by decide)
  | bool b =>
    cases b
    · exact hkeeps (by decide)
    · exact hkeeps (by decide)
  | _ => exact hkeeps (by decide)

theorem head?_slashed (cs : List Char) : (slashed false cs).head? = cs.head? := by
  cases cs with
  | nil => rfl
  | cons c cs => rw [slashed_cons (Bool.false_and _)]; rfl

/-- A lexeme ends where it did, if the text after it begins as it did. -/
theorem endsBefore_of_head {l : Lexeme} {cs ds : List Char} (h : l.EndsBefore cs)
    (hhead : ds.head? = cs.head?) : l.EndsBefore ds := by
  cases l with
  | number => exact fun c hc => h c (hhead ▸ hc)
  | _ => exact trivial

/-- **Escaping slashes keeps what a text says.** -/
theorem spaced_slashed {row : List Lexeme} {cs : List Char} (h : Spaced row cs) :
    Spaced row (slashed false cs) := by
  induction h with
  | nil => exact .nil
  | @blank c row cs hblank _ ih =>
    have hnot : (c == '<') = false := by
      rw [beq_eq_false_iff_ne]
      rintro rfl
      cases hblank
    rw [slashed_cons (Bool.false_and _), hnot]
    exact .blank hblank ih
  | @lexeme l spelling row cs hspelled hends _ ih =>
    obtain ⟨spelling', hspelled', hrest⟩ := spelled_slashed hspelled
    rw [hrest]
    exact .lexeme hspelled' (endsBefore_of_head hends (head?_slashed cs)) ih

/-! ## §3. Line breaks. -/

/-- Text with a margin after every line break. -/
def broken (margin cs : List Char) : List Char :=
  cs.flatMap fun c => if c = '\n' then '\n' :: margin else [c]

theorem broken_append {cs : List Char} (h : '\n' ∉ cs) (margin rest : List Char) :
    broken margin (cs ++ rest) = cs ++ broken margin rest := by
  induction cs with
  | nil => rfl
  | cons c cs ih =>
    obtain ⟨hc, hcs⟩ := List.ne_and_not_mem_of_not_mem_cons h
    unfold broken at ih ⊢
    rw [List.cons_append, List.flatMap_cons, if_neg (Ne.symm hc), ih hcs]
    rfl

/-- No line break stands in the spelling of a character. -/
theorem not_mem_spelling {c : Char} {spelling : List Char} (h : SpellsChar c spelling) :
    '\n' ∉ spelling := by
  cases h with
  | plain hprinted =>
    intro hmem
    rw [← List.mem_singleton.mp hmem] at hprinted
    exact absurd hprinted (by decide)
  | short hescape =>
    intro hmem
    simp only [List.mem_cons, List.not_mem_nil, or_false] at hmem
    rcases hmem with hmem | rfl
    · cases hmem
    · cases hescape
  | unit hunit => exact not_mem_unit hunit (by decide) (by decide) List.not_mem_nil
  | pair hhigh hlow =>
    have hlater := not_mem_unit (c := '\n') hlow (by decide) (by decide) List.not_mem_nil
    exact not_mem_unit hhigh (by decide) (by decide) hlater

theorem not_mem_chars {chars body : List Char} (h : SpellsChars chars body) : '\n' ∉ body := by
  induction h with
  | nil => exact List.not_mem_nil
  | cons hchar _ ih =>
    exact fun hmem => (List.mem_append.mp hmem).elim (not_mem_spelling hchar) ih

/-- Nor does one in the spelling of a lexeme. -/
theorem not_mem_spelled {l : Lexeme} {spelling : List Char} (h : l.Spelled spelling) :
    '\n' ∉ spelling := by
  cases h with
  | text hchars =>
    intro hmem
    rw [List.mem_cons, List.mem_append, List.mem_singleton] at hmem
    rcases hmem with hmem | hmem | hmem
    · cases hmem
    · exact not_mem_chars hchars hmem
    · cases hmem
  | number hnumber => exact fun hmem => absurd (number_alphabet hnumber _ hmem) (by decide)
  | bool b => cases b <;> decide
  | _ => decide

theorem head?_broken (margin cs : List Char) : (broken margin cs).head? = cs.head? := by
  cases cs with
  | nil => rfl
  | cons c cs =>
    unfold broken
    rw [List.flatMap_cons]
    split
    next h => rw [h]; rfl
    next => rfl

/-- **A margin keeps what a text says.** -/
theorem spaced_broken {margin : List Char} (hmargin : ∀ c ∈ margin, isJsonBlank c = true)
    {row : List Lexeme} {cs : List Char} (h : Spaced row cs) : Spaced row (broken margin cs) := by
  induction h with
  | nil => exact .nil
  | @blank c row cs hblank _ ih =>
    unfold broken at ih ⊢
    rw [List.flatMap_cons]
    split
    next => exact .blank rfl (ih.blanks hmargin)
    next => exact .blank hblank ih
  | @lexeme l spelling row cs hspelled hends _ ih =>
    rw [broken_append (not_mem_spelled hspelled)]
    exact .lexeme hspelled (endsBefore_of_head hends (head?_broken margin cs)) ih

/-- A margin of blanks brings no start of an end tag. -/
theorem not_infix_broken {margin cs : List Char} (hmargin : ∀ c ∈ margin, isJsonBlank c = true)
    (h : ¬ endTag <:+: cs) : ¬ endTag <:+: broken margin cs := by
  induction cs with
  | nil => exact h
  | cons c cs ih =>
    rw [List.infix_cons_iff] at h
    obtain ⟨hpre, hin⟩ := not_or.mp h
    have hrest := ih hin
    have hmore : ∀ blanks : List Char, (∀ d ∈ blanks, isJsonBlank d = true) →
        ¬ endTag <:+: blanks ++ broken margin cs := by
      intro blanks hblanks
      induction blanks with
      | nil => exact hrest
      | cons d blanks ih =>
        rw [List.cons_append, List.infix_cons_iff]
        rintro (⟨rest, hd⟩ | hin)
        · obtain ⟨rfl, _⟩ := List.cons.inj hd
          exact absurd (hblanks '<' (List.mem_cons_self ..)) (by decide)
        · exact ih (fun e he => hblanks e (List.mem_cons_of_mem d he)) hin
    unfold broken at hrest hmore ⊢
    rw [List.flatMap_cons]
    split
    next => exact hmore ('\n' :: margin) (List.forall_mem_cons.mpr ⟨rfl, hmargin⟩)
    next hc =>
      rw [List.singleton_append, List.infix_cons_iff]
      rintro (⟨rest, hd⟩ | hin)
      · obtain ⟨rfl, htail⟩ := List.cons.inj hd
        have hhead := head?_broken margin cs
        unfold broken at hhead
        rw [← htail] at hhead
        obtain ⟨ds, hds⟩ : ∃ ds, cs = '/' :: ds := by
          cases cs with
          | nil => cases hhead
          | cons d ds =>
            cases hhead
            exact ⟨ds, rfl⟩
        exact hpre ⟨ds, by rw [hds]; rfl⟩
      · exact hrest hin

/-! ## §4. Literals. -/

theorem toList_literal (indent : Option Nat) (v : Value) :
    (literal indent v).toList = slashed false (print (literalStyle indent) v).toList := by
  unfold literal replace
  rw [String.toList_ofList]
  exact replaceAll_endTag _

/-- The indentation of the values of a script. -/
def margin : List Char := [' ', ' ']

theorem toList_indented (v : Value) :
    (indented v).toList = broken margin (literal defaultIndent v).toList := by
  unfold indented replace
  rw [String.toList_ofList]
  exact replaceAll_singleton '\n' _ _

/-- **A literal says what its value is.** -/
theorem spells_literal (indent : Option Nat) (v : Value) :
    Spells (docOf (literalStyle indent) v) (literal indent v) := by
  rw [Spells, toList_literal]
  exact spaced_slashed (spells_print rfl v)

/-- **So does a literal in the margin of a script.** -/
theorem spells_indented (v : Value) :
    Spells (docOf (literalStyle defaultIndent) v) (indented v) := by
  rw [Spells, toList_indented]
  exact spaced_broken (List.all_iff_forall_prop.mp (by decide)) (spells_literal defaultIndent v)

/-- **No end tag starts in a literal.** -/
theorem no_end_tag_literal (indent : Option Nat) (v : Value) :
    ¬ endTag <:+: (literal indent v).toList := by
  rw [toList_literal]
  exact (not_infix_slashed false _).1

theorem no_end_tag_indented (v : Value) : ¬ endTag <:+: (indented v).toList := by
  rw [toList_indented]
  exact not_infix_broken (List.all_iff_forall_prop.mp (by decide)) (no_end_tag_literal defaultIndent v)

end ControlSurface.Script
