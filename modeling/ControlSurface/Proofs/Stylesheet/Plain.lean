/-
  ControlSurface.Proofs.Stylesheet.Plain
  ──────────────────────────────────────
  Plain characters are those that no reader of stylesheets looks at.  They may be taken from the
  ends of a row and put back (`exists_plain_suffix`, `Clean.plain_append`), and rows between them
  are upright as the rows themselves are (`upright_between`).  White space is plain, so text may be
  trimmed (`exists_trimmed`).
-/
import ControlSurface.Proofs.Stylesheet.Lexing
import ControlSurface.Proofs.Stylesheet.Nesting
import ControlSurface.Proofs.Text.Search
import ControlSurface.Stylesheet.Scope
import Mathlib.Data.List.TakeWhile

namespace ControlSurface.Stylesheet

open ControlSurface.Text

/-! ## §1. Plain characters. -/

/-- The characters that a reader of stylesheets looks at. -/
def special : List Char := ['(', ')', '[', ']', '{', '}', ';', ',', '"', '\'', '/', '*']

/-- Whether a character is none that a reader looks at. -/
def isPlain (c : Char) : Bool := !special.contains c

/-- A row of characters. -/
def charsOf (cs : List Char) : List Lexeme := cs.map Lexeme.char

theorem textOf_charsOf (cs : List Char) : textOf (charsOf cs) = cs := by
  induction cs with
  | nil => rfl
  | cons c cs ih => exact congrArg (c :: ·) ih

theorem textOf_append (ls ms : List Lexeme) : textOf (ls ++ ms) = textOf ls ++ textOf ms :=
  List.flatMap_append

theorem ne_of_plain {c d : Char} (hc : isPlain c = true) (hd : d ∈ special) : c ≠ d := by
  rintro rfl
  simp [isPlain, hd] at hc

/-- Characters of a kind that no special one is of are plain. -/
theorem plain_of_kind {kind : Char → Bool} (hall : ∀ d ∈ special, kind d = false) {c : Char}
    (h : kind c = true) : isPlain c = true := by
  by_contra hc
  have hmem : c ∈ special := by simpa [isPlain] using hc
  rw [hall c hmem] at h
  cases h

theorem plain_of_blank {c : Char} (h : isBlank c = true) : isPlain c = true :=
  plain_of_kind (List.all_iff_forall_prop.mp (by decide)) h

theorem plain_of_allBlank {cs : List Char} (h : allBlank cs = true) :
    ∀ c ∈ cs, isPlain c = true :=
  fun c hc => plain_of_blank (List.all_eq_true.mp h c hc)

theorem nestChar_plain {c : Char} (h : isPlain c = true) (due : List Char) :
    nestChar due c = some due := by
  refine nestChar_other ?_ ?_ due
  · have hne := fun d hd => ne_of_plain (d := d) h hd
    unfold closer?
    split
    · exact absurd rfl (hne '(' (by decide))
    · exact absurd rfl (hne '[' (by decide))
    · exact absurd rfl (hne '{' (by decide))
    · rfl
  · rw [Bool.eq_false_iff]
    intro hcloses
    rcases closes_cases hcloses with rfl | rfl | rfl <;> exact absurd h (by decide)

/-- Plain characters change nothing that is due. -/
theorem nest_plain {cs : List Char} (h : ∀ c ∈ cs, isPlain c = true) (due : List Char) :
    nest due (charsOf cs) = some due := by
  induction cs with
  | nil => rfl
  | cons c cs ih =>
    show (nestChar due c).bind (fun d => nest d (charsOf cs)) = _
    rw [nestChar_plain (h c (List.mem_cons_self ..))]
    exact ih fun a ha => h a (List.mem_cons_of_mem c ha)

/-- The places where heads of parts and selectors are cut are special characters. -/
theorem stop_plain {stop : Char → Bool} (hstop : ∀ c, stop c = true → c ∈ special) {c : Char}
    (h : isPlain c = true) : stop c = false := by
  rw [Bool.eq_false_iff]
  intro hc
  exact ne_of_plain h (hstop c hc) rfl

theorem endsHead_special (c : Char) (h : endsHead c = true) : c ∈ special := by
  rcases (by simpa [endsHead] using h : c = '{' ∨ c = ';') with rfl | rfl <;> decide

theorem comma_special (c : Char) (h : decide (c = ',') = true) : c ∈ special := by
  rw [of_decide_eq_true h]
  decide

/-- Plain characters change no depth, and no cut stops at them. -/
theorem scan_plain {stop : Char → Bool} (hstop : ∀ c, stop c = true → c ∈ special) {cs : List Char}
    (h : ∀ c ∈ cs, isPlain c = true) (depth : Nat) : scan stop depth (charsOf cs) = some depth := by
  induction cs with
  | nil => rfl
  | cons c cs ih =>
    have hc := h c (List.mem_cons_self ..)
    have hopen : opensBracket c = false := stop_plain (fun d hd => by
      rcases (by simpa [opensBracket] using hd : d = '(' ∨ d = '[') with rfl | rfl <;> decide) hc
    have hclose : closesBracket c = false := stop_plain (fun d hd => by
      rcases (by simpa [closesBracket] using hd : d = ')' ∨ d = ']') with rfl | rfl <;> decide) hc
    show scan stop depth (.char c :: charsOf cs) = _
    rw [scan, hopen, hclose, stop_plain hstop hc]
    simp only [Bool.false_eq_true, if_false, and_false]
    exact ih fun a ha => h a (List.mem_cons_of_mem c ha)

theorem getLast?_charsOf (cs : List Char) :
    (charsOf cs).getLast? = cs.getLast?.map Lexeme.char := List.getLast?_map ..

/-- A row of plain characters is clean. -/
theorem clean_plain {cs : List Char} (h : ∀ c ∈ cs, isPlain c = true) : Clean (charsOf cs) := by
  induction cs with
  | nil => exact Clean.nil
  | cons c cs ih =>
    have hc := h c (List.mem_cons_self ..)
    have hwhole : (Lexeme.char c).isWhole = true := by
      simp [Lexeme.isWhole, ne_of_plain hc (show '"' ∈ special by decide),
        ne_of_plain hc (show '\'' ∈ special by decide)]
    refine (Clean.singleton hwhole).append (ih fun a ha => h a (List.mem_cons_of_mem c ha)) ?_
    intro hlast
    exact absurd (Lexeme.char.inj (Option.some.inj hlast))
      (ne_of_plain hc (show '/' ∈ special by decide))

/-- Plain characters can be put before a clean row. -/
theorem Clean.plain_append {cs : List Char} {ls : List Lexeme} (hcs : ∀ c ∈ cs, isPlain c = true)
    (h : Clean ls) : Clean (charsOf cs ++ ls) := by
  refine (clean_plain hcs).append h ?_
  intro hlast
  rw [getLast?_charsOf] at hlast
  obtain ⟨c, hc, heq⟩ := Option.map_eq_some_iff.mp hlast
  exact absurd (Lexeme.char.inj heq)
    (ne_of_plain (hcs c (List.mem_of_getLast? hc)) (show '/' ∈ special by decide))

/-- Plain characters can be put after a clean row. -/
theorem Clean.append_plain {cs : List Char} {ls : List Lexeme} (h : Clean ls)
    (hcs : ∀ c ∈ cs, isPlain c = true) : Clean (ls ++ charsOf cs) := by
  refine h.append (clean_plain hcs) ?_
  intro _ hhead
  cases cs with
  | nil => cases hhead
  | cons c cs =>
    exact absurd (Lexeme.char.inj (Option.some.inj hhead))
      (ne_of_plain (hcs c (List.mem_cons_self ..)) (show '*' ∈ special by decide))

/-- Plain characters at the start of the text of a clean row are lexemes of their own. -/
theorem exists_plain_prefix {ls : List Lexeme} (h : Clean ls) {cs rest : List Char}
    (hcs : ∀ c ∈ cs, isPlain c = true) (htext : textOf ls = cs ++ rest) :
    ∃ ms, ls = charsOf cs ++ ms ∧ textOf ms = rest := by
  -- a string or a comment would begin with a character that is not plain
  induction cs generalizing ls with
  | nil => exact ⟨ls, rfl, htext⟩
  | cons c cs ih =>
    have hc := hcs c (List.mem_cons_self ..)
    cases ls with
    | nil => cases htext
    | cons l ls =>
      rcases isWhole_cases (h.whole l (List.mem_cons_self ..)) with
        ⟨d, rfl, _⟩ | ⟨q, t, rfl, hq, _⟩ | ⟨t, rfl, _⟩
      · obtain ⟨rfl, htail⟩ := List.cons.inj htext
        obtain ⟨ms, rfl, hms⟩ := ih h.of_cons
          (fun a ha => hcs a (List.mem_cons_of_mem d ha)) htail
        exact ⟨ms, rfl, hms⟩
      · obtain ⟨rfl, _⟩ := List.cons.inj htext
        rcases hq with rfl | rfl <;> exact absurd hc (by decide)
      · obtain ⟨rfl, _⟩ := List.cons.inj htext
        exact absurd hc (by decide)

/-- A string ends with its quote. -/
theorem getLast?_of_stringEnds {quote : Char} {escaped : Bool} {cs : List Char}
    (h : stringEnds quote escaped cs = true) : cs.getLast? = some quote := by
  -- no string ends at once, so the last character is that of the rest wherever it goes on
  induction cs generalizing escaped with
  | nil => simp [stringEnds] at h
  | cons c cs ih =>
    have hrest : ∀ e, stringEnds quote e cs = true → (c :: cs).getLast? = some quote := by
      intro e he
      cases cs with
      | nil => simp [stringEnds] at he
      | cons d cs =>
        rw [List.getLast?_cons_cons]
        exact ih he
    cases escaped with
    | true => exact hrest false h
    | false =>
      rw [stringEnds] at h
      split at h
      next => exact hrest true h
      next =>
        split at h
        next hquote => rw [List.isEmpty_iff.mp h, hquote]; rfl
        next => exact hrest false h

/-- A comment ends with a slash. -/
theorem getLast?_of_commentEnds {star : Bool} {cs : List Char}
    (h : commentEnds star cs = true) : cs.getLast? = some '/' := by
  induction cs generalizing star with
  | nil => simp [commentEnds] at h
  | cons c cs ih =>
    rw [commentEnds] at h
    split at h
    next hend => rw [List.isEmpty_iff.mp h, hend.2]; rfl
    next =>
      cases cs with
      | nil => simp [commentEnds] at h
      | cons d cs =>
        rw [List.getLast?_cons_cons]
        exact ih h

/-- The text of a whole lexeme that is no plain character does not end with one. -/
theorem exists_char_of_getLast? {l : Lexeme} {c : Char} (h : l.isWhole = true)
    (hlast : l.text.getLast? = some c) (hc : isPlain c = true) : l = .char c := by
  rcases isWhole_cases h with ⟨d, rfl, _⟩ | ⟨q, t, rfl, hq, hends⟩ | ⟨t, rfl, hends⟩
  · exact congrArg Lexeme.char (Option.some.inj hlast)
  · -- a string ends with its quote and a comment with a slash, and neither is plain
    have hquote : (q :: t).getLast? = some q := by
      have hne := getLast?_of_stringEnds hends
      cases t with
      | nil => cases hne
      | cons d t => rwa [List.getLast?_cons_cons]
    rw [Lexeme.text, hquote] at hlast
    cases hlast
    rcases hq with rfl | rfl <;> exact absurd hc (by decide)
  · have hslash : ('/' :: '*' :: t).getLast? = some '/' := by
      have hne := getLast?_of_commentEnds hends
      cases t with
      | nil => cases hne
      | cons d t => rwa [List.getLast?_cons_cons, List.getLast?_cons_cons]
    rw [Lexeme.text, hslash] at hlast
    cases hlast
    exact absurd hc (by decide)

theorem text_ne_nil {l : Lexeme} (h : l.isWhole = true) : l.text ≠ [] := by
  rcases isWhole_cases h with ⟨c, rfl, _⟩ | ⟨c, cs, rfl, _⟩ | ⟨cs, rfl, _⟩ <;> simp [Lexeme.text]

/-- Plain characters at the end of the text of a clean row are lexemes of their own. -/
theorem exists_plain_suffix {ls : List Lexeme} (h : Clean ls) {cs rest : List Char}
    (hcs : ∀ c ∈ cs, isPlain c = true) (htext : textOf ls = rest ++ cs) :
    ∃ ms, ls = ms ++ charsOf cs ∧ textOf ms = rest := by
  -- from the end: the last lexeme has the last character, so it is that character
  induction cs using List.reverseRecOn generalizing ls with
  | nil =>
    refine ⟨ls, ?_, ?_⟩
    · exact (List.append_nil ls).symm
    · rw [htext, List.append_nil]
  | append_singleton cs c ih =>
    have hc : isPlain c = true := hcs c (by simp)
    rcases List.eq_nil_or_concat ls with rfl | ⟨init, l, rfl⟩
    · have hnil := congrArg List.length htext
      simp [textOf] at hnil
    · have hwhole := h.whole l (by simp)
      have hl : textOf [l] = l.text := by simp [textOf]
      rw [List.concat_eq_append, textOf_append, hl, ← List.append_assoc] at htext
      have hlast := congrArg List.getLast? htext
      rw [List.getLast?_append_of_ne_nil _ (text_ne_nil hwhole), List.getLast?_concat] at hlast
      obtain rfl := exists_char_of_getLast? hwhole hlast hc
      have hinit : init <:+: init.concat (.char c) := by
        rw [List.concat_eq_append]
        exact List.infix_append' [] init [.char c]
      obtain ⟨ms, rfl, hms⟩ := ih (h.stretch hinit) (fun a ha => hcs a (by simp [ha]))
        (List.append_cancel_right htext)
      exact ⟨ms, by simp [charsOf], hms⟩

/-! ## §2. Upright rows. -/

/-- A row that can be the head of a rule: closed in itself, with nothing that ends the head. -/
structure Upright (ls : List Lexeme) : Prop where
  clean : Clean ls
  balanced : Balanced ls
  head : scan endsHead 0 ls = some 0

/-- A row that no comma parts. -/
def OnePiece (ls : List Lexeme) : Prop := scan (· = ',') 0 ls = some 0

/-- Plain characters at both ends of a row change no depth. -/
theorem scan_between {stop : Char → Bool} (hstop : ∀ c, stop c = true → c ∈ special)
    {cs ds : List Char} (hcs : ∀ c ∈ cs, isPlain c = true) (hds : ∀ c ∈ ds, isPlain c = true)
    (ls : List Lexeme) :
    scan stop 0 (charsOf cs ++ ls ++ charsOf ds) = scan stop 0 ls := by
  rw [scan_append, scan_append, scan_plain hstop hcs, Option.bind_some]
  cases scan stop 0 ls with
  | none => rfl
  | some d => exact scan_plain hstop hds d

/-- Plain characters at both ends of a row change nothing that is due. -/
theorem nest_between {cs ds : List Char} (hcs : ∀ c ∈ cs, isPlain c = true)
    (hds : ∀ c ∈ ds, isPlain c = true) (due : List Char) (ls : List Lexeme) :
    nest due (charsOf cs ++ ls ++ charsOf ds) = nest due ls := by
  rw [nest_append, nest_append, nest_plain hcs, Option.bind_some]
  cases nest due ls with
  | none => rfl
  | some d => exact nest_plain hds d

theorem onePiece_between {cs ds : List Char} (hcs : ∀ c ∈ cs, isPlain c = true)
    (hds : ∀ c ∈ ds, isPlain c = true) {ls : List Lexeme} :
    OnePiece (charsOf cs ++ ls ++ charsOf ds) ↔ OnePiece ls := by
  rw [OnePiece, OnePiece, scan_between comma_special hcs hds]

/-- A row is upright iff it is with plain characters at both ends. -/
theorem upright_between {cs ds : List Char} (hcs : ∀ c ∈ cs, isPlain c = true)
    (hds : ∀ c ∈ ds, isPlain c = true) {ls : List Lexeme} :
    Upright (charsOf cs ++ ls ++ charsOf ds) ↔ Upright ls := by
  constructor
  · rintro ⟨hclean, hbalanced, hhead⟩
    refine ⟨hclean.stretch ⟨_, _, rfl⟩, ?_, ?_⟩
    · rwa [Balanced, nest_between hcs hds] at hbalanced
    · rwa [scan_between endsHead_special hcs hds] at hhead
  · rintro ⟨hclean, hbalanced, hhead⟩
    refine ⟨(hclean.plain_append hcs).append_plain hds, ?_, ?_⟩
    · rwa [Balanced, nest_between hcs hds]
    · rwa [scan_between endsHead_special hcs hds]

theorem plain_of_mem_takeWhile (cs : List Char) : ∀ c ∈ cs.takeWhile isBlank, isPlain c = true :=
  fun c hc => plain_of_blank (List.all_eq_true.mp List.all_takeWhile c hc)

/-- What is trimmed at the end of a text. -/
theorem trimEndBy_append (cs : List Char) :
    cs = trimEndBy isBlank cs ++ (cs.reverse.takeWhile isBlank).reverse := by
  have hsplit := (List.takeWhile_append_dropWhile (p := isBlank) (l := cs.reverse)).symm
  have hrev := congrArg List.reverse hsplit
  rwa [List.reverse_reverse, List.reverse_append] at hrev

/-- Trimming the text of a clean row drops plain characters at its ends. -/
theorem exists_trimmed {ls : List Lexeme} (h : Clean ls) :
    ∃ cs ms ds, ls = charsOf cs ++ ms ++ charsOf ds ∧ textOf ms = trim (textOf ls)
      ∧ (∀ c ∈ cs, isPlain c = true) ∧ ∀ c ∈ ds, isPlain c = true := by
  -- first the blanks at the start are split off, then those at the end of what is left
  have hstart : textOf ls
      = (textOf ls).takeWhile isBlank ++ trimStartBy isBlank (textOf ls) :=
    List.takeWhile_append_dropWhile.symm
  obtain ⟨ms, hls, hms⟩ := exists_plain_prefix h (plain_of_mem_takeWhile _) hstart
  have hend := trimEndBy_append (textOf ms)
  have hplain : ∀ c ∈ ((textOf ms).reverse.takeWhile isBlank).reverse, isPlain c = true :=
    fun c hc => plain_of_mem_takeWhile _ c (List.mem_reverse.mp hc)
  obtain ⟨ns, hms', hns⟩ := exists_plain_suffix
    (h.stretch ⟨_, [], by rw [hls, List.append_nil]⟩) hplain hend
  refine ⟨(textOf ls).takeWhile isBlank, ns, _, ?_, ?_, plain_of_mem_takeWhile _, hplain⟩
  · rw [List.append_assoc, ← hms', ← hls]
  · rw [hns, trim, trimBy, hms]

/-! ## §3. Trimmed text. -/

/-- Text that begins and ends with something other than white space. -/
structure Trimmed (cs : List Char) : Prop where
  ne_nil : cs ≠ []
  first : ∀ c, cs.head? = some c → isBlank c = false
  last : ∀ c, cs.getLast? = some c → isBlank c = false

theorem dropWhile_eq_self {cs : List Char} (h : ∀ c, cs.head? = some c → isBlank c = false) :
    cs.dropWhile isBlank = cs := by
  cases cs with
  | nil => rfl
  | cons c cs => rw [List.dropWhile_cons_of_neg (by simp [h c rfl])]

theorem Trimmed.dropWhile_reverse {cs : List Char} (h : Trimmed cs) :
    cs.reverse.dropWhile isBlank = cs.reverse := by
  refine dropWhile_eq_self fun c hc => h.last c ?_
  rwa [List.head?_reverse] at hc

theorem Trimmed.trim_eq {cs : List Char} (h : Trimmed cs) : trim cs = cs := by
  rw [trim, trimBy, trimStartBy, dropWhile_eq_self h.first, trimEndBy, h.dropWhile_reverse,
    List.reverse_reverse]

/-- White space at both ends of a trimmed text is trimmed away. -/
theorem Trimmed.trim_between {cs before after : List Char} (h : Trimmed cs)
    (hbefore : allBlank before = true) (hafter : allBlank after = true) :
    trim (before ++ cs ++ after) = cs := by
  have hstart : (before ++ cs ++ after).dropWhile isBlank = cs ++ after := by
    rw [List.append_assoc, List.dropWhile_append_of_pos (List.all_eq_true.mp hbefore)]
    refine dropWhile_eq_self fun c hc => h.first c ?_
    rwa [List.head?_append_of_ne_nil _ h.ne_nil] at hc
  have hend : ∀ c ∈ after.reverse, isBlank c = true := fun c hc =>
    List.all_eq_true.mp hafter c (List.mem_reverse.mp hc)
  rw [trim, trimBy, trimStartBy, hstart, trimEndBy, List.reverse_append,
    List.dropWhile_append_of_pos hend, h.dropWhile_reverse, List.reverse_reverse]

/-- A blank after a trimmed text is trimmed away. -/
theorem Trimmed.trim_append_blank {cs : List Char} (h : Trimmed cs) : trim (cs ++ [' ']) = cs :=
  h.trim_between (show allBlank [] = true from rfl) (show allBlank [' '] = true from rfl)

theorem head?_dropWhile {cs : List Char} {c : Char} (h : (cs.dropWhile isBlank).head? = some c) :
    isBlank c = false := by
  have hnot := List.head?_dropWhile_not isBlank cs
  rw [h] at hnot
  exact hnot

/-- The end of a trimmed text does not end with white space either. -/
theorem Trimmed.last_of_append {cs ds : List Char} (h : Trimmed (cs ++ ds)) (hne : ds ≠ []) {c : Char}
    (hc : ds.getLast? = some c) : isBlank c = false := by
  refine h.last c ?_
  rw [List.getLast?_append_of_ne_nil _ hne, hc]

/-- What is left after trimming is trimmed. -/
theorem trimmed_trim {cs : List Char} (h : trim cs ≠ []) : Trimmed (trim cs) := by
  refine ⟨h, fun c hc => ?_, fun c hc => ?_⟩
  · -- the end that was trimmed is not the start
    have hsplit : cs.dropWhile isBlank
        = trim cs ++ ((cs.dropWhile isBlank).reverse.takeWhile isBlank).reverse :=
      trimEndBy_append (cs.dropWhile isBlank)
    have hhead : (cs.dropWhile isBlank).head? = some c := by
      rw [hsplit, List.head?_append_of_ne_nil _ h, hc]
    exact head?_dropWhile hhead
  · rw [trim, trimBy, trimEndBy, List.getLast?_reverse] at hc
    exact head?_dropWhile hc

end ControlSurface.Stylesheet
