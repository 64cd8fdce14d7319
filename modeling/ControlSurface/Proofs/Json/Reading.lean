/-
  ControlSurface.Proofs.Json.Reading
  ──────────────────────────────────
  The reader knows the whole grammar: every text that says what a document is, is read as the value
  of the document (`read_of_spells`).  Its layers follow the reader's.  A string is read as the
  characters that were spelled, a number as far as it goes, a spaced row of lexemes as one token
  each, and the tokens of a document hand over one value to whatever is open.

  Main results:
    * `tokensFrom_spaced` — the tokens of a text are those of its lexemes.
    * `read_of_spells` — a text is read as the value of the document it spells.
-/
import ControlSurface.Proofs.Fault.Outcome
import ControlSurface.Proofs.Json.Strings
import ControlSurface.Proofs.Text.Search

namespace ControlSurface.Json

open ControlSurface.Text ControlSurface.Outcome
open ControlSurface.Number (Digits)

/-! ## §1. Numbers. -/

/-- No digit stands here. -/
def NoDigit (cs : List Char) : Prop := ∀ c, cs.head? = some c → isAsciiDigit c = false

theorem noDigit_cons {c : Char} (h : isAsciiDigit c = false) (cs : List Char) :
    NoDigit (c :: cs) := fun d hd => by
  cases hd
  exact h

theorem Stops.noDigit {cs : List Char} (h : Stops cs) : NoDigit cs := fun c hc => by
  have hnone := h c hc
  simp only [inNumeral, Bool.or_eq_false_iff] at hnone
  exact hnone.1.1.1

theorem asciiDigits_append {ds rest : List Char} (hds : Digits ds) (hrest : NoDigit rest) :
    asciiDigits (ds ++ rest) = (ds, rest) := by
  rw [asciiDigits, takeWhile_append_stop hds.ascii hrest, dropWhile_append_stop hds.ascii hrest]

theorem wholePart?_append {whole rest : List Char} (h : Whole whole) (hrest : NoDigit rest) :
    wholePart? (whole ++ rest) = some (whole, rest) := by
  cases h with
  | zero => rfl
  | @digits c cs hfirst hdigits =>
    have hread := asciiDigits_append hdigits hrest
    rw [List.cons_append] at hread ⊢
    unfold wholePart?
    split
    next heq =>
      obtain ⟨rfl, _⟩ := List.cons.inj heq
      exact absurd rfl hfirst
    next => rw [hread]

/-- The digits after the point of a fraction. -/
def fractionDigits (fraction : List Char) : List Char := fraction.drop 1

theorem fractionPart_append {fraction rest : List Char} (h : Fraction fraction)
    (hrest : NoDigit rest) (hpoint : rest.head? ≠ some '.') :
    fractionPart (fraction ++ rest) = (fractionDigits fraction, rest) := by
  cases h with
  | none =>
    rw [List.nil_append]
    unfold fractionPart
    split
    next => exact absurd rfl hpoint
    next => rfl
  | point hdigits =>
    obtain ⟨d, ds, rfl⟩ := List.exists_cons_of_ne_nil hdigits.nonempty
    rw [List.cons_append, fractionPart, asciiDigits_append hdigits hrest]
    rfl

theorem sign_of_digit {cs : List Char} (h : Digits cs) (rest : List Char) :
    Number.sign (cs ++ rest) = (false, cs ++ rest) := by
  obtain ⟨c, cs, rfl⟩ := List.exists_cons_of_ne_nil h.nonempty
  have hc := h.ascii c (List.mem_cons_self ..)
  rw [List.cons_append]
  unfold Number.sign
  split
  next heq =>
    obtain ⟨rfl, _⟩ := List.cons.inj heq
    exact absurd hc (by decide)
  next heq =>
    obtain ⟨rfl, _⟩ := List.cons.inj heq
    exact absurd hc (by decide)
  next => rfl

theorem exponentPart_mark {e : Char} {more ds rest : List Char} {negative : Bool}
    (hmark : e = 'e' ∨ e = 'E') (hsign : Number.sign more = (negative, ds ++ rest))
    (hds : Digits ds) (hrest : NoDigit rest) :
    exponentPart (e :: more)
      = (if negative then -(digitsValue ds : Int) else digitsValue ds, rest) := by
  obtain ⟨d, ds, rfl⟩ := List.exists_cons_of_ne_nil hds.nonempty
  unfold exponentPart
  dsimp only
  rw [hsign]
  dsimp only
  rw [asciiDigits_append hds hrest]
  dsimp only
  rw [if_pos hmark]

theorem exponentPart_stops {rest : List Char} (h : Stops rest) : exponentPart rest = (0, rest) := by
  cases rest with
  | nil => rfl
  | cons c cs =>
    have hnone := h c rfl
    simp only [inNumeral, Bool.or_eq_false_iff, beq_eq_false_iff_ne] at hnone
    unfold exponentPart
    dsimp only
    split
    next => rfl
    next => rw [if_neg (by simp [hnone.1.2, hnone.2])]

/-- The exponent is read off the text, whatever follows it. -/
theorem exists_exponent {exponent : List Char} (h : Exponent exponent) :
    ∃ n, ∀ rest, Stops rest → exponentPart (exponent ++ rest) = (n, rest) := by
  cases h with
  | none => exact ⟨0, fun rest hrest => exponentPart_stops hrest⟩
  | @plain e cs hmark hdigits =>
    exact ⟨digitsValue cs, fun rest hrest =>
      exponentPart_mark hmark (sign_of_digit hdigits rest) hdigits hrest.noDigit⟩
  | @signed e s cs hmark hsign hdigits =>
    have hread : ∀ rest, Number.sign (s :: (cs ++ rest)) = (s == '-', cs ++ rest) := by
      intro rest
      rcases hsign with rfl | rfl <;> rfl
    exact ⟨_, fun rest hrest =>
      exponentPart_mark hmark (hread rest) hdigits hrest.noDigit⟩

theorem Exponent.head {exponent : List Char} (h : Exponent exponent) {rest : List Char}
    (hrest : Stops rest) : NoDigit (exponent ++ rest) ∧ (exponent ++ rest).head? ≠ some '.' := by
  have hmarked : ∀ {e : Char} {cs : List Char}, e = 'e' ∨ e = 'E' →
      NoDigit (e :: cs) ∧ (e :: cs).head? ≠ some '.' := by
    intro e cs he
    rcases he with rfl | rfl
    · exact ⟨noDigit_cons (by decide) cs, by simp⟩
    · exact ⟨noDigit_cons (by decide) cs, by simp⟩
  cases h with
  | none => exact ⟨hrest.noDigit, fun hhead => absurd (hrest _ hhead) (by decide)⟩
  | plain hmark => exact hmarked hmark
  | signed hmark => exact hmarked hmark

/-- A numeral is read off the text, whatever follows it. -/
theorem exists_number {whole fraction exponent : List Char} (hwhole : Whole whole)
    (hfraction : Fraction fraction) (hexponent : Exponent exponent) (negative : Bool) :
    ∃ v, ∀ rest, Stops rest →
      number? negative (whole ++ (fraction ++ (exponent ++ rest))) = some (v, rest) := by
  obtain ⟨n, hn⟩ := exists_exponent hexponent
  have hafter : ∀ rest, Stops rest → NoDigit (fraction ++ (exponent ++ rest)) := by
    intro rest hrest
    cases hfraction with
    | none => exact (hexponent.head hrest).1
    | point => exact noDigit_cons (by decide) _
  -- whether it is an integer does not depend on what follows either
  have hlength : ∀ rest : List Char,
      (decide (rest.length = (exponent ++ rest).length)) = exponent.isEmpty := by
    intro rest
    cases exponent with
    | nil => simp
    | cons e cs =>
      apply decide_eq_false
      rw [List.length_append, List.length_cons]
      omega
  have hread : ∀ rest, Stops rest →
      number? negative (whole ++ (fraction ++ (exponent ++ rest)))
        = if (fractionDigits fraction).isEmpty && exponent.isEmpty then
            some (if Number.maxIntegerDigits < whole.length then .error .badValue
              else .ok (.int (if negative then -(digitsValue whole : Int) else digitsValue whole)),
              exponent ++ rest)
          else some (.ok (.float (Number.ofDecimal negative
            (digitsValue (whole ++ fractionDigits fraction))
            (n - (fractionDigits fraction).length))), rest) := by
    intro rest hrest
    obtain ⟨hdigit, hpoint⟩ := hexponent.head hrest
    unfold number?
    rw [wholePart?_append hwhole (hafter rest hrest)]
    simp only [Option.bind_eq_bind, Option.bind_some]
    rw [fractionPart_append hfraction hdigit hpoint]
    dsimp only
    rw [hn rest hrest]
    dsimp only
    rw [hlength]
  by_cases hint : ((fractionDigits fraction).isEmpty && exponent.isEmpty) = true
  · have hnil : exponent = [] := List.isEmpty_iff.mp (Bool.and_eq_true _ _ ▸ hint).2
    refine ⟨if Number.maxIntegerDigits < whole.length then .error .badValue
      else .ok (.int (if negative then -(digitsValue whole : Int) else digitsValue whole)),
      fun rest hrest => ?_⟩
    rw [hread rest hrest, if_pos hint, hnil, List.nil_append]
  · refine ⟨.ok (.float (Number.ofDecimal negative
      (digitsValue (whole ++ fractionDigits fraction))
      (n - (fractionDigits fraction).length))), fun rest hrest => ?_⟩
    rw [hread rest hrest, if_neg hint]

/-! ## §2. Tokens. -/

/-- A number that was read, as a token. -/
def numberToken : Option (Except Fault Value × List Char) → Except Fault (Token × List Char)
  | some (.ok v, rest) => .ok (.scalar v, rest)
  | some (.error e, _) => .error e
  | none => .error .badJson

theorem mem_digits {c : Char} (h : isAsciiDigit c = true) :
    c ∈ ['0', '1', '2', '3', '4', '5', '6', '7', '8', '9'] := by
  have hrange : '0' ≤ c ∧ c ≤ '9' := of_decide_eq_true h
  have hlow : 48 ≤ c.toNat := hrange.1
  have hhigh : c.toNat ≤ 57 := hrange.2
  have hall : ∀ k < 10,
      Char.ofNat (48 + k) ∈ ['0', '1', '2', '3', '4', '5', '6', '7', '8', '9'] := by decide
  have hmem := hall (c.toNat - 48) (by omega)
  rwa [Nat.add_sub_cancel' hlow, Char.ofNat_toNat] at hmem

/-- A text that begins with a digit is read as a number. -/
theorem next?_digit {c : Char} (h : isAsciiDigit c = true) (cs : List Char) :
    next? (c :: cs) = numberToken (number? false (c :: cs)) := by
  have hmem := mem_digits h
  simp only [List.mem_cons, List.not_mem_nil, or_false] at hmem
  rcases hmem with rfl | rfl | rfl | rfl | rfl | rfl | rfl | rfl | rfl | rfl <;> rfl

/-- A minus before a digit begins a number too. -/
theorem next?_minus {c : Char} (h : isAsciiDigit c = true) (cs : List Char) :
    next? ('-' :: c :: cs) = numberToken (number? true (c :: cs)) := by
  have hmem := mem_digits h
  simp only [List.mem_cons, List.not_mem_nil, or_false] at hmem
  rcases hmem with rfl | rfl | rfl | rfl | rfl | rfl | rfl | rfl | rfl | rfl <;> rfl

theorem Whole.exists_cons {whole : List Char} (h : Whole whole) :
    ∃ c cs, whole = c :: cs ∧ isAsciiDigit c = true := by
  cases h with
  | zero => exact ⟨'0', [], rfl, rfl⟩
  | @digits c cs _ hdigits => exact ⟨c, cs, rfl, hdigits.ascii c (List.mem_cons_self ..)⟩

/-- What stands for a number is one token, whatever follows it. -/
theorem exists_numberToken {cs : List Char} (h : IsNumber cs) :
    ∃ v : Except Fault Value, ∀ rest, Stops rest →
      next? (cs ++ rest) = v.map fun v => (.scalar v, rest) := by
  have hmap : ∀ (v : Except Fault Value) (rest : List Char),
      numberToken (some (v, rest)) = v.map fun v => (.scalar v, rest) := by
    intro v rest
    cases v <;> rfl
  cases h with
  | special h =>
    simp only [specialWords, List.mem_cons, List.not_mem_nil, or_false] at h
    rcases h with rfl | rfl | rfl
    · exact ⟨.ok (.float Number.nan), fun rest _ => rfl⟩
    · exact ⟨.ok (.float Number.infinity), fun rest _ => rfl⟩
    · exact ⟨.ok (.float Number.negInfinity), fun rest _ => rfl⟩
  | numeral h =>
    obtain ⟨hsign, hwhole, hfraction, hexponent⟩ := h
    obtain ⟨c, cs, hcons, hc⟩ := hwhole.exists_cons
    rcases hsign with rfl | rfl
    · obtain ⟨v, hv⟩ := exists_number hwhole hfraction hexponent false
      refine ⟨v, fun rest hrest => ?_⟩
      rw [← hmap, ← hv rest hrest, hcons]
      simpa using next?_digit hc _
    · obtain ⟨v, hv⟩ := exists_number hwhole hfraction hexponent true
      refine ⟨v, fun rest hrest => ?_⟩
      rw [← hmap, ← hv rest hrest, hcons]
      simpa using next?_minus hc _

/-- A token is passed over at once. -/
theorem tokensFrom_token {c : Char} {cs rest : List Char} {t : Token}
    (hblank : isJsonBlank c = false) (hnext : next? (c :: (cs ++ rest)) = .ok (t, rest))
    (passed : List Token) :
    tokensFrom passed (c :: (cs ++ rest)) = tokensFrom (t :: passed) rest := by
  rw [tokensFrom, if_neg (by rw [hblank]; decide), hnext]
  dsimp only
  rw [if_pos (by rw [List.length_append]; omega)]

theorem tokensFrom_error {c : Char} {cs : List Char} {e : Fault} (hblank : isJsonBlank c = false)
    (hnext : next? (c :: cs) = .error e) (passed : List Token) :
    tokensFrom passed (c :: cs) = .error e := by
  rw [tokensFrom, if_neg (by rw [hblank]; decide), hnext]

theorem tokensFrom_blank {c : Char} (hblank : isJsonBlank c = true) (passed : List Token)
    (cs : List Char) : tokensFrom passed (c :: cs) = tokensFrom passed cs := by
  rw [tokensFrom, if_pos hblank]

theorem IsNumber.exists_cons {cs : List Char} (h : IsNumber cs) :
    ∃ c rest, cs = c :: rest ∧ isJsonBlank c = false := by
  cases h with
  | special h =>
    simp only [specialWords, List.mem_cons, List.not_mem_nil, or_false] at h
    rcases h with rfl | rfl | rfl <;> exact ⟨_, _, rfl, rfl⟩
  | numeral h =>
    obtain ⟨hsign, hwhole, hfraction, hexponent⟩ := h
    obtain ⟨c, cs, rfl, hc⟩ := hwhole.exists_cons
    rcases hsign with rfl | rfl
    · refine ⟨c, _, rfl, ?_⟩
      have hmem := mem_digits hc
      simp only [List.mem_cons, List.not_mem_nil, or_false] at hmem
      rcases hmem with rfl | rfl | rfl | rfl | rfl | rfl | rfl | rfl | rfl | rfl <;> rfl
    · exact ⟨'-', _, rfl, rfl⟩

/-- **A number is read by itself as it is inside a text.** -/
theorem next?_number {cs : List Char} (h : IsNumber cs) {rest : List Char} (hrest : Stops rest) :
    next? (cs ++ rest) = (read (String.ofList cs)).map fun v => (.scalar v, rest) := by
  obtain ⟨v, hv⟩ := exists_numberToken h
  obtain ⟨c, ds, rfl, hc⟩ := h.exists_cons
  have halone := hv [] stops_nil
  rw [hv rest hrest]
  congr 1
  unfold read tokens
  rw [String.toList_ofList]
  cases v with
  | error e =>
    rw [List.append_nil] at halone
    rw [tokensFrom_error hc halone]
    rfl
  | ok v =>
    have htokens := tokensFrom_token hc halone []
    rw [List.append_nil] at htokens
    rw [htokens, tokensFrom]
    rfl

/-- The token of a lexeme. -/
def Lexeme.token : Lexeme → Except Fault Token
  | .openList => .ok .openList
  | .closeList => .ok .closeList
  | .openObject => .ok .openObject
  | .closeObject => .ok .closeObject
  | .comma => .ok .comma
  | .colon => .ok .colon
  | .null => .ok (.scalar .null)
  | .bool b => .ok (.scalar (.bool b))
  | .number digits => (read (String.ofList digits)).map .scalar
  | .text s => .ok (.scalar (.text s))

/-- A spelled lexeme begins with a character that is no blank. -/
theorem Lexeme.Spelled.exists_cons {l : Lexeme} {spelling : List Char} (h : l.Spelled spelling) :
    ∃ c cs, spelling = c :: cs ∧ isJsonBlank c = false := by
  cases h with
  | number hnumber => exact hnumber.exists_cons
  | bool b => cases b <;> exact ⟨_, _, rfl, rfl⟩
  | text => exact ⟨'"', _, rfl, rfl⟩
  | _ => exact ⟨_, _, rfl, rfl⟩

/-- **A spelled lexeme is read as its token.** -/
theorem next?_lexeme {l : Lexeme} {spelling rest : List Char} (h : l.Spelled spelling)
    (hends : l.EndsBefore rest) :
    next? (spelling ++ rest) = l.token.map fun t => (t, rest) := by
  cases h with
  | number hnumber =>
    rw [next?_number hnumber hends, Lexeme.token]
    cases read _ <;> rfl
  | bool b => cases b <;> rfl
  | @text s body hchars =>
    have hread := stringBody_chars hchars [] rest
    rw [List.reverse_nil, List.nil_append, String.ofList_toList] at hread
    have happend : '"' :: (body ++ ['"']) ++ rest = '"' :: (body ++ '"' :: rest) := by simp
    rw [happend, next?, hread]
    rfl
  | _ => rfl

/-- **The tokens of a text** are those of its lexemes, in their order. -/
theorem tokensFrom_spaced {row : List Lexeme} {cs : List Char} (h : Spaced row cs)
    (passed : List Token) :
    tokensFrom passed cs = (row.mapM Lexeme.token).map (passed.reverse ++ ·) := by
  induction h generalizing passed with
  | nil =>
    rw [tokensFrom]
    simp [Except.map, pure, Except.pure]
  | blank hblank _ ih => rw [tokensFrom_blank hblank, ih]
  | @lexeme l spelling row cs hspelled hends _ ih =>
    have hnext := next?_lexeme hspelled hends
    obtain ⟨c, ds, rfl, hc⟩ := hspelled.exists_cons
    rw [List.mapM_cons]
    cases htoken : l.token with
    | error e =>
      rw [htoken] at hnext
      exact tokensFrom_error hc hnext passed
    | ok t =>
      rw [htoken] at hnext
      rw [List.cons_append, tokensFrom_token hc hnext, ih]
      cases row.mapM Lexeme.token with
      | error e => rfl
      | ok ts =>
        simp [Except.map, pure, Except.pure, bind, Except.bind]

/-! ## §3. Values. -/

/-- The machine along a row of lexemes. -/
def Machine.follow (m : Machine) : List Lexeme → Except Fault (Option Machine)
  | [] => .ok (some m)
  | l :: row => do
    let t ← l.token
    match m.step t with
    | some m' => m'.follow row
    | none => .ok none

/-- A lexeme whose token fits is passed. -/
theorem follow_step {m m' : Machine} {l : Lexeme} {t : Token} (htoken : l.token = .ok t)
    (hstep : m.step t = some m') (row : List Lexeme) : m.follow (l :: row) = m'.follow row := by
  rw [Machine.follow, htoken, ok_bind, hstep]

/-- Where a value may come. -/
def Opens (phase : Phase) : Prop := phase = .value ∨ phase = .firstItem

theorem step_scalar {phase : Phase} (h : Opens phase) (stack : List Frame) (v : Value) :
    Machine.step ⟨stack, phase⟩ (.scalar v) = some (Machine.deliver stack v) := by
  rcases h with rfl | rfl <;> rfl

theorem step_openList {phase : Phase} (h : Opens phase) (stack : List Frame) :
    Machine.step ⟨stack, phase⟩ .openList = some ⟨.list [] :: stack, .firstItem⟩ := by
  rcases h with rfl | rfl <;> rfl

theorem step_openObject {phase : Phase} (h : Opens phase) (stack : List Frame) :
    Machine.step ⟨stack, phase⟩ .openObject = some ⟨stack, .firstKey []⟩ := by
  rcases h with rfl | rfl <;> rfl

/-- A key is read where an object begins and after a comma. -/
theorem follow_key {phase : Phase} {done : List (String × Value)}
    (h : phase = .firstKey done ∨ phase = .key done) (stack : List Frame) (k : String)
    (row : List Lexeme) :
    Machine.follow ⟨stack, phase⟩ (.text k :: .colon :: row)
      = Machine.follow ⟨.object done k :: stack, .value⟩ row := by
  rcases h with rfl | rfl <;> rfl

/-- A document hands its value over to what is open, and the machine goes on after it. -/
def HandsOver (d : Doc) : Prop :=
  ∀ phase, Opens phase → ∀ stack row,
    Machine.follow ⟨stack, phase⟩ (d.lexemes ++ row)
      = (do
        let v ← d.value
        Machine.follow (Machine.deliver stack v) row)

/-- The items of a list are gathered behind those that are finished. -/
theorem follow_items {d : Doc} {ds : List Doc} (hall : ∀ d' ∈ d :: ds, HandsOver d')
    {phase : Phase} (h : Opens phase) (items : List Value) (stack : List Frame)
    (row : List Lexeme) :
    Machine.follow ⟨.list items :: stack, phase⟩
        (separated (itemLexemes (d :: ds)) ++ .closeList :: row)
      = (do
        let vs ← itemValues (d :: ds)
        Machine.follow (Machine.deliver stack (.list (items.reverse ++ vs))) row) := by
  -- each item is delivered in front of the finished ones
  have hdoc := hall d (List.mem_cons_self ..)
  induction ds generalizing d phase items with
  | nil =>
    rw [itemLexemes, itemLexemes, separated, hdoc phase h, itemValues, itemValues]
    cases d.value with
    | error e => rfl
    | ok v =>
      rw [ok_bind, ok_bind, ok_bind, ok_bind, ← List.reverse_cons]
      exact follow_step rfl rfl row
  | cons d' ds ih =>
    rw [itemLexemes, itemLexemes, separated, List.append_assoc, hdoc phase h, itemValues]
    cases d.value with
    | error e => rfl
    | ok v =>
      have hrest : ∀ e ∈ d' :: ds, HandsOver e := fun e he => hall e (List.mem_cons_of_mem d he)
      have hmore := ih hrest (Or.inl rfl) (v :: items) (hrest d' (List.mem_cons_self ..))
      rw [ok_bind, ok_bind]
      show Machine.follow ⟨.list (v :: items) :: stack, .after⟩ (.comma :: _) = _
      rw [follow_step rfl rfl]
      refine hmore.trans ?_
      rw [List.reverse_cons]
      cases itemValues (d' :: ds) with
      | error e => rfl
      | ok vs =>
        rw [ok_bind, ok_bind, ok_bind, List.append_assoc]
        rfl

/-- The fields of an object are put among those that are finished. -/
theorem follow_fields {f : String × Doc} {fs : List (String × Doc)}
    (hall : ∀ f' ∈ f :: fs, HandsOver f'.2) {phase : Phase} {done : List (String × Value)}
    (h : phase = .firstKey done ∨ phase = .key done) (stack : List Frame) (row : List Lexeme) :
    Machine.follow ⟨stack, phase⟩ (separated (fieldLexemes (f :: fs)) ++ .closeObject :: row)
      = (do
        let fields ← fieldValues (f :: fs)
        Machine.follow (Machine.deliver stack (.object (Keyed.putAll done fields))) row) := by
  have hdoc := hall f (List.mem_cons_self ..) .value (Or.inl rfl)
  induction fs generalizing f phase done with
  | nil =>
    rw [fieldLexemes, fieldLexemes, separated, List.cons_append, List.cons_append, follow_key h,
      hdoc, fieldValues, fieldValues]
    cases f.2.value with
    | error e => rfl
    | ok v =>
      show Machine.follow ⟨.object (Value.put f.1 v done) f.1 :: stack, .after⟩
        (.closeObject :: row) = _
      exact follow_step rfl rfl row
  | cons f' fs ih =>
    rw [fieldLexemes, fieldLexemes, separated, List.append_assoc, List.cons_append,
      List.cons_append, follow_key h, hdoc, fieldValues]
    cases f.2.value with
    | error e => rfl
    | ok v =>
      have hrest : ∀ e ∈ f' :: fs, HandsOver e.2 := fun e he => hall e (List.mem_cons_of_mem f he)
      have hkey : Phase.key (Value.put f.1 v done) = .firstKey (Value.put f.1 v done)
          ∨ Phase.key (Value.put f.1 v done) = .key (Value.put f.1 v done) := Or.inr rfl
      have hmore := ih hrest hkey
        (hrest f' (List.mem_cons_self ..) .value (Or.inl rfl))
      rw [ok_bind, ok_bind]
      show Machine.follow ⟨.object (Value.put f.1 v done) f.1 :: stack, .after⟩ (.comma :: _) = _
      rw [follow_step rfl rfl]
      refine hmore.trans ?_
      cases fieldValues (f' :: fs) <;> rfl

/-- **Every document hands its value over.** -/
theorem handsOver (d : Doc) : HandsOver d := by
  induction d using Doc.induct with
  | null => exact fun phase h stack row => follow_step rfl (step_scalar h stack _) row
  | bool b => exact fun phase h stack row => follow_step rfl (step_scalar h stack _) row
  | text s => exact fun phase h stack row => follow_step rfl (step_scalar h stack _) row
  | number digits =>
    intro phase h stack row
    rw [Doc.lexemes, Doc.value, List.singleton_append]
    cases hread : read (String.ofList digits) with
    | error e =>
      rw [Machine.follow, Lexeme.token, hread]
      rfl
    | ok v =>
      refine follow_step ?_ (step_scalar h stack v) row
      rw [Lexeme.token, hread]
      rfl
  | list items ih =>
    intro phase h stack row
    rw [Doc.lexemes, Doc.value, List.cons_append, follow_step rfl (step_openList h stack),
      List.append_assoc, List.singleton_append]
    cases items with
    | nil => exact follow_step rfl rfl row
    | cons d ds =>
      rw [follow_items ih (Or.inr rfl)]
      cases itemValues (d :: ds) <;> rfl
  | object fields ih =>
    intro phase h stack row
    rw [Doc.lexemes, Doc.value, List.cons_append, follow_step rfl (step_openObject h stack),
      List.append_assoc, List.singleton_append]
    cases fields with
    | nil => exact follow_step rfl rfl row
    | cons f fs =>
      rw [follow_fields ih (Or.inl rfl)]
      cases fieldValues (f :: fs) <;> rfl

/-! ## §4. Texts. -/

theorem tokens_of_follow {m : Machine} {row : List Lexeme} {e : Fault}
    (h : m.follow row = .error e) : row.mapM Lexeme.token = .error e := by
  induction row generalizing m with
  | nil => cases h
  | cons l row ih =>
    rw [List.mapM_cons]
    rw [Machine.follow] at h
    cases htoken : l.token with
    | error e' =>
      rw [htoken, error_bind] at h
      rw [error_bind]
      cases h
      rfl
    | ok t =>
      rw [htoken, ok_bind] at h
      rw [ok_bind]
      split at h
      next m' hstep => rw [ih h]; rfl
      next => cases h

theorem run_of_follow {m m' : Machine} {row : List Lexeme} (h : m.follow row = .ok (some m')) :
    ∃ ts, row.mapM Lexeme.token = .ok ts ∧ m.run ts = some m' := by
  induction row generalizing m with
  | nil =>
    cases h
    exact ⟨[], rfl, rfl⟩
  | cons l row ih =>
    rw [Machine.follow] at h
    obtain ⟨t, htoken, h⟩ := (bind_eq_ok_iff _ _ _).mp h
    split at h
    next next hstep =>
      obtain ⟨ts, hts, hrun⟩ := ih h
      refine ⟨t :: ts, ?_, ?_⟩
      · rw [List.mapM_cons, htoken, hts]
        rfl
      · rw [Machine.run, hstep]
        exact hrun
    next => cases h

/-- **A text is read as the value of the document it spells.** -/
theorem read_of_spells {d : Doc} {s : String} (h : Spells d s) : read s = d.value := by
  have hfollow := handsOver d .value (Or.inl rfl) [] []
  have htokens := tokensFrom_spaced h []
  rw [List.append_nil] at hfollow
  unfold read tokens
  rw [htokens]
  cases hvalue : d.value with
  | error e =>
    rw [hvalue] at hfollow
    rw [tokens_of_follow hfollow]
    rfl
  | ok v =>
    rw [hvalue] at hfollow
    obtain ⟨ts, hts, hrun⟩ := run_of_follow hfollow
    rw [hts]
    have hof : ofTokens? ts = some v := by
      rw [ofTokens?, hrun]
      rfl
    simp only [Except.map, List.reverse_nil, List.nil_append, ok_bind, hof]

end ControlSurface.Json
