/-
  ControlSurface.Proofs.Stylesheet.Ending
  ───────────────────────────────────────
  How a stylesheet ends.  Only the last lexeme of a text can be a string or a comment that is not
  closed (`exists_ending`), and no block begins or ends in it.  So every stylesheet that can be
  confined has items behind which nothing but a tail stands, closed or not (`exists_itemized`),
  and putting other closed items in front of the tail does not change how it is read.
-/
import ControlSurface.Proofs.Stylesheet.Items

namespace ControlSurface.Stylesheet

open ControlSurface.Outcome ControlSurface.Text

/-! ## §1. Strings and comments without an end. -/

/-- A string ends somewhere, or it takes all that is left. -/
theorem string_cases (quote : Char) (escaped : Bool) (cs : List Char) :
    (∃ body rest, cs = body ++ rest ∧ stringEnds quote escaped body = true)
      ∨ ∀ done read, readFrom done (.inString quote escaped read) cs
          = (.quoted (read.reverse ++ cs) :: done).reverse := by
  induction cs generalizing escaped with
  | nil => exact .inr fun done read => by rw [readFrom, List.append_nil]
  | cons c cs ih =>
    -- one more character of the string, whatever comes of the rest
    have hstep : ∀ next,
        (∀ body, stringEnds quote escaped (c :: body) = stringEnds quote next body) →
        (∀ done read, readFrom done (.inString quote escaped read) (c :: cs)
          = readFrom done (.inString quote next (c :: read)) cs) →
        (∃ body rest, c :: cs = body ++ rest ∧ stringEnds quote escaped body = true)
          ∨ ∀ done read, readFrom done (.inString quote escaped read) (c :: cs)
              = (.quoted (read.reverse ++ c :: cs) :: done).reverse := by
      intro next hends hread
      rcases ih next with ⟨body, rest, rfl, hbody⟩ | hopen
      · exact .inl ⟨c :: body, rest, rfl, by rw [hends, hbody]⟩
      · refine .inr fun done read => ?_
        rw [hread, hopen]
        simp
    cases escaped with
    | true => exact hstep false (fun _ => rfl) fun _ _ => by rw [readFrom]
    | false =>
      by_cases hback : c = '\\'
      · exact hstep true (fun _ => by rw [stringEnds, if_pos hback])
          fun _ _ => by rw [readFrom, if_pos hback]
      · by_cases hquote : c = quote
        · refine .inl ⟨[c], cs, rfl, ?_⟩
          rw [stringEnds, if_neg hback, if_pos hquote]
          rfl
        · exact hstep false (fun _ => by rw [stringEnds, if_neg hback, if_neg hquote])
            fun _ _ => by rw [readFrom, if_neg hback, if_neg hquote]

/-- A comment ends somewhere, or it takes all that is left. -/
theorem comment_cases (star : Bool) (cs : List Char) :
    (∃ body rest, cs = body ++ rest ∧ commentEnds star body = true)
      ∨ ∀ done read, readFrom done (.inComment star read) cs
          = (.comment (read.reverse ++ cs) :: done).reverse := by
  induction cs generalizing star with
  | nil => exact .inr fun done read => by rw [readFrom, List.append_nil]
  | cons c cs ih =>
    by_cases hend : star = true ∧ c = '/'
    · refine .inl ⟨[c], cs, rfl, ?_⟩
      rw [commentEnds, if_pos hend]
      rfl
    · rcases ih (c = '*') with ⟨body, rest, rfl, hbody⟩ | hopen
      · exact .inl ⟨c :: body, rest, rfl, by rw [commentEnds, if_neg hend, hbody]⟩
      · refine .inr fun done read => ?_
        rw [readFrom, if_neg hend, hopen]
        simp

/-- What may be left at the end of a row: nothing, or one string or comment. -/
inductive Ending : List Lexeme → Prop
  | nil : Ending []
  | string {quote : Char} (hquote : quote = '"' ∨ quote = '\'') (cs : List Char) :
      Ending [.quoted (quote :: cs)]
  | comment (cs : List Char) : Ending [.comment cs]

/-- **Only the last lexeme of a text can be left open.** -/
theorem exists_ending (cs : List Char) :
    ∃ ls last, lexemes cs = ls ++ last ∧ (∀ l ∈ ls, l.isWhole = true) ∧ Ending last := by
  have hcons : ∀ {l : Lexeme} {rest : List Char}, l.isWhole = true →
      (∃ ls last, lexemes rest = ls ++ last ∧ (∀ l ∈ ls, l.isWhole = true) ∧ Ending last) →
      ∃ ls last, l :: lexemes rest = ls ++ last ∧ (∀ l ∈ ls, l.isWhole = true)
        ∧ Ending last := by
    rintro l rest hl ⟨ls, last, hrest, hls, hlast⟩
    exact ⟨l :: ls, last, by rw [hrest]; rfl, List.forall_mem_cons.mpr ⟨hl, hls⟩, hlast⟩
  have hread : ∀ (l : Lexeme) (rest : List Char),
      readFrom [l] .outside rest = l :: lexemes rest :=
    fun l rest => readFrom_prepend [l] [] .outside rest
  -- over the length: what follows a string or a comment is shorter
  induction hn : cs.length using Nat.strong_induction_on generalizing cs with
  | _ n ih =>
    subst hn
    rcases cs with - | ⟨c, cs⟩
    · exact ⟨[], [], rfl, by simp, .nil⟩
    · by_cases hmark : c = '/' ∧ cs.head? = some '*'
      · obtain ⟨rfl, hstar⟩ := hmark
        obtain ⟨cs, rfl⟩ : ∃ rest, cs = '*' :: rest := by
          cases cs with
          | nil => cases hstar
          | cons d rest => exact ⟨rest, by rw [Option.some.inj hstar]⟩
        have hstep : lexemes ('/' :: '*' :: cs) = readFrom [] (.inComment false ['*', '/']) cs := by
          rw [lexemes, readFrom]
        rcases comment_cases false cs with ⟨body, rest, rfl, hbody⟩ | hopen
        · rw [hstep, readFrom_inComment _ _ _ _ _ hbody, hread]
          have hshorter : rest.length < ('/' :: '*' :: (body ++ rest)).length := by
            simp only [List.length_cons, List.length_append]
            omega
          exact hcons hbody (ih _ hshorter rest rfl)
        · rw [hstep, hopen]
          exact ⟨[], _, rfl, by simp, .comment _⟩
      · have hout : ∀ rest, c = '/' → cs = '*' :: rest → False :=
          fun rest hc hcs => hmark ⟨hc, by rw [hcs]; rfl⟩
        by_cases hquote : c = '"' ∨ c = '\''
        · have hstep : lexemes (c :: cs) = readFrom [] (.inString c false [c]) cs := by
            rw [lexemes, readFrom, if_pos hquote]
            exact fun rest hc hcs => hout rest hc hcs
          rcases string_cases c false cs with ⟨body, rest, rfl, hbody⟩ | hopen
          · rw [hstep, readFrom_inString _ _ _ _ _ _ hbody, hread]
            have hshorter : rest.length < (c :: (body ++ rest)).length := by
              simp only [List.length_cons, List.length_append]
              omega
            refine hcons ?_ (ih _ hshorter rest rfl)
            rcases hquote with rfl | rfl <;> simpa [Lexeme.isWhole] using hbody
          · rw [hstep, hopen]
            exact ⟨[], _, rfl, by simp, .string hquote _⟩
        · have hstep : lexemes (c :: cs) = readFrom [.char c] .outside cs := by
            rw [lexemes, readFrom, if_neg hquote]
            exact fun rest hc hcs => hout rest hc hcs
          rw [hstep, hread]
          exact hcons (by simpa [Lexeme.isWhole] using hquote) (ih cs.length (by simp) cs rfl)

/-! ## §2. Items and an ending. -/

/-- No block begins or ends in what is left open. -/
theorem closes_of_ending {ls last : List Lexeme} (h : Closes (ls ++ last)) (hlast : Ending last) :
    Closes ls := by
  intro blocks hinside
  refine h blocks ?_
  rw [Position.after, List.foldl_append]
  show Position.after (Position.after .between ls) last = _
  rw [hinside]
  cases hlast <;> rfl

/-- A tail with an ending behind it belongs to no item. -/
theorem parts_ending {tail last : List Lexeme} (h : IsTail tail) (hlast : Ending last) :
    parts (tail ++ last) = .ok (tailParts (tail ++ last)) := by
  obtain rfl | ⟨hbegins, hcut⟩ := h
  · cases hlast with
    | nil => exact parts_tail (.inl rfl)
    | string hquote cs =>
      refine parts_tail (.inr ⟨⟨_, [], rfl, by simp, ?_⟩, rfl⟩)
      rcases hquote with rfl | rfl <;> rfl
    | comment cs =>
      rw [List.nil_append, parts_comment, parts, tailParts, if_neg (List.cons_ne_nil _ _)]
      exact congrArg (fun t => Except.ok [Part.copied t]) (List.append_nil cs).symm
  · -- an ending holds nothing at which a head ends
    obtain ⟨d, hd⟩ := scan_of_cut_none hcut
    refine parts_tail (.inr ⟨hbegins.append last, cut_eq_none (d := d) ?_⟩)
    rw [scan_append, hd, Option.bind_some]
    cases hlast <;> rfl

/-- Items are read as their parts, and what follows them as it is alone. -/
theorem parts_rows_append {is : List Item} (h : AllProper is) (rest : List Lexeme) :
    parts (rows is ++ rest) = (do .ok (partsOf is ++ (← parts rest))) := by
  induction is with
  | nil =>
    show parts rest = _
    cases parts rest <;> rfl
  | cons i is ih =>
    rw [rows, List.append_assoc, parts_row i h.1, ih h.2]
    cases parts rest <;> rfl

/-- No item ends with a slash. -/
theorem getLast?_rows {is : List Item} (h : AllProper is) :
    (rows is).getLast? ≠ some (.char '/') := by
  intro hlast
  obtain ⟨init, hinit⟩ := List.getLast?_eq_some_iff.mp hlast
  have hafter := after_rows h []
  rw [List.append_nil, hinit, Position.after, List.foldl_append] at hafter
  exact past_slash _ hafter

/-- A text told apart into items that are closed and what is left behind them. -/
structure Itemized (cs : List Char) (is : List Item) (tail : List Lexeme) : Prop where
  proper : AllProper is
  clean : Clean (rows is)
  text : textOf (rows is) ++ textOf tail = cs
  ended : parts tail = .ok (tailParts tail)
  reads : lexemes (textOf tail) = tail

namespace Itemized

variable {cs : List Char} {is : List Item} {tail : List Lexeme}

/-- Behind closed items a text is read as if nothing stood before it. -/
theorem lexemes_rows_append (hproper : AllProper is) (hclean : Clean (rows is)) (rest : List Char) :
    lexemes (textOf (rows is) ++ rest) = rows is ++ lexemes rest := by
  have hrow : lexemes (textOf (rows is)) = rows is := lexemes_textOf hclean
  have hlast := getLast?_rows hproper
  have hwhole := hclean.whole
  rw [← hrow] at hlast hwhole
  rw [Stylesheet.lexemes_append hwhole hlast, hrow]

theorem lexemes_eq (h : Itemized cs is tail) : lexemes cs = rows is ++ tail := by
  rw [← h.text, lexemes_rows_append h.proper h.clean, h.reads]

theorem parts_eq (h : Itemized cs is tail) :
    parts (lexemes cs) = .ok (partsOf is ++ tailParts tail) := by
  rw [h.lexemes_eq, parts_rows_append h.proper, h.ended]
  rfl

/-- Other items can be put before the same tail. -/
theorem change (h : Itemized cs is tail) {is' : List Item} (hproper : AllProper is')
    (hclean : Clean (rows is')) : Itemized (textOf (rows is') ++ textOf tail) is' tail :=
  ⟨hproper, hclean, rfl, h.ended, h.reads⟩

/-- **A stylesheet is written item by item**, and what is left behind the items as it stands. -/
theorem confined_eq {css : String} (h : Itemized css.toList is tail) (scope : String) :
    confined scope css
      = .ok (String.ofList (spellAll (scopedHead scope.toList) is ++ textOf tail)) := by
  rw [confined, h.parts_eq]
  show Except.ok (String.ofList (printAll (confineAll scope.toList (partsOf is ++ tailParts tail))))
    = _
  rw [confineAll_append, printAll_append, print_partsOf, printAll_tailParts]

end Itemized

/-- **Every text that closes has items.** -/
theorem exists_itemized {cs : List Char} (h : Closes (lexemes cs)) :
    ∃ is tail, Itemized cs is tail := by
  obtain ⟨ls, last, hlexemes, hwhole, hlast⟩ := exists_ending cs
  have hclean : Clean ls := by
    refine ⟨hwhole, ?_⟩
    have hapart := readFrom_apart [] .outside cs .nil (fun _ hslash => by cases hslash)
    exact hapart.infix ⟨[], last, by rw [List.nil_append, ← hlexemes]; rfl⟩
  obtain ⟨is, tail, his, htail, rfl⟩ :=
    exists_items hclean (closes_of_ending (hlexemes ▸ h) hlast)
  have hrows : Clean (rows is) := hclean.stretch ⟨[], tail, rfl⟩
  rw [List.append_assoc] at hlexemes
  have htext : textOf (rows is) ++ textOf (tail ++ last) = cs := by
    rw [← textOf_append, ← hlexemes, textOf_lexemes]
  have hreads : rows is ++ lexemes (textOf (tail ++ last)) = rows is ++ (tail ++ last) := by
    rw [← Itemized.lexemes_rows_append his hrows, htext, hlexemes]
  exact ⟨is, tail ++ last, his, hrows, htext, parts_ending htail hlast,
    List.append_cancel_left hreads⟩

end ControlSurface.Stylesheet
