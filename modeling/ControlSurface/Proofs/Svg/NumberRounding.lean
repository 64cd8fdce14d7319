/-
  ControlSurface.Proofs.Svg.NumberRounding
  ────────────────────────────────────────
  Rounding one number of a text.  What is put in its place is a plain number, with a space before it
  where it would run into the number before; so it is a numeral that ends where it ends, and nothing
  else in the text changes.

  Main results:
    * `roundFrom_number` — a number that is found is rounded and set apart from what stands before.
    * `longestNumeral_plain` — a plain number is the longest numeral at its place, unless more of a
      number follows it.
    * `spaced_setApart` — what is put in the place of a number does not run into the one before.
-/
import ControlSurface.Proofs.Svg.NumeralValue

namespace ControlSurface.Svg

open ControlSurface.Text
open ControlSurface.Number (Digits IsPlain UnsignedPlain isDecimalDigit_of_ascii)

/-! ## §1. Rounding from a place on. -/

variable {places : Nat}

/-- At a character that stands in no number none is found. -/
theorem numberOf_of_not {c : Char} (h : isNumberMark c = false) (cs : List Char) :
    numberOf (c :: cs) = [] := by
  obtain ⟨hdigit, hpoint, hsign, _⟩ := numberMark_false h
  have hdigits : digitsOf (c :: cs) = [] :=
    List.takeWhile_cons_of_neg (by rw [hdigit]; decide)
  have hmantissa : mantissaOf (c :: cs) = [] := by
    unfold mantissaOf
    rw [hdigits]
    dsimp only
    split
    next heq =>
      cases heq
      exact absurd rfl hpoint
    next => rfl
  have hfirst : ([] : List Char) = [] → ∀ d rest, c :: cs = d :: rest → ¬ (d = '-' ∨ d = '+') := by
    intro _ d rest heq
    cases heq
    exact hsign
  have hfound := numberOf_sign Sign.none hfirst
  rwa [hmantissa, if_pos rfl] at hfound

/-- A number set apart from the character before it. -/
def spaced (before : Option Char) (number : List Char) : List Char :=
  if runsInto before number then ' ' :: number else number

theorem roundFrom_copy {c : Char} {cs : List Char} (h : numberOf (c :: cs) = [])
    (before : Option Char) :
    roundFrom places 0 before (c :: cs) = c :: roundFrom places 0 (some c) cs := by
  rw [roundFrom, h]

/-- The last character after some others, the one before them if there are none. -/
theorem getLast?_cons_or (c : Char) (cs : List Char) (before : Option Char) :
    (c :: cs).getLast?.or before = cs.getLast?.or (some c) := by
  rw [List.getLast?_cons]
  cases cs.getLast? with
  | none => rfl
  | some d => rfl

/-- The rest of a number is passed over. -/
theorem roundFrom_skip (t rest : List Char) (before : Option Char) :
    roundFrom places t.length before (t ++ rest)
      = roundFrom places 0 (t.getLast?.or before) rest := by
  induction t generalizing before with
  | nil => rfl
  | cons c t ih => rw [List.length_cons, List.cons_append, roundFrom, ih, getLast?_cons_or]

/-- **A number is rounded** and set apart from the character before it. -/
theorem roundFrom_number {t rest : List Char} (hne : t ≠ []) (h : numberOf (t ++ rest) = t)
    (before : Option Char) :
    roundFrom places 0 before (t ++ rest)
      = spaced before (rounded places t) ++ roundFrom places 0 t.getLast? rest := by
  cases t with
  | nil => exact absurd rfl hne
  | cons c t =>
    rw [List.cons_append] at h ⊢
    rw [roundFrom, h]
    show spaced before (rounded places (c :: t))
        ++ roundFrom places ((c :: t).length - 1) (some c) (t ++ rest) = _
    rw [List.length_cons, Nat.add_sub_cancel, roundFrom_skip, ← getLast?_cons_or c t none,
      Option.or_none]

/-! ## §2. Plain numbers in a text. -/

theorem UnsignedPlain.mantissa {u : List Char} (h : UnsignedPlain u) : Mantissa u := by
  cases h with
  | whole hds => exact .whole hds
  | pointed hds hfs => exact .pointed hds hfs.ascii

theorem IsPlain.exists_sign {r : List Char} (h : IsPlain r) :
    ∃ s u, r = s ++ u ∧ Sign s ∧ UnsignedPlain u := by
  cases h with
  | positive h => exact ⟨[], r, rfl, .none, h⟩
  | negative h => exact ⟨['-'], _, rfl, .some (Or.inl rfl), h⟩

theorem IsPlain.isNumeral {r : List Char} (h : IsPlain r) : IsNumeral r := by
  obtain ⟨s, u, rfl, hs, hu⟩ := IsPlain.exists_sign h
  have hnumeral := IsNumeral.intro hs (UnsignedPlain.mantissa hu) .none
  rwa [List.append_nil] at hnumeral

theorem SetApart.digitsOf_eq {rest : List Char} (h : SetApart rest) : digitsOf rest = [] := by
  cases rest with
  | nil => rfl
  | cons c rest =>
    refine List.takeWhile_cons_of_neg ?_
    rw [(h c rfl).1]
    decide

theorem SetApart.exponentOf_eq {rest : List Char} (h : SetApart rest) : exponentOf rest = [] := by
  cases rest with
  | nil => rfl
  | cons c rest =>
    unfold exponentOf
    exact if_neg (h c rfl).2.2

/-- An unsigned plain number is found as it is. -/
theorem mantissaOf_plain {u rest : List Char} (hu : UnsignedPlain u) (hrest : SetApart rest) :
    mantissaOf (u ++ rest) = u := by
  cases hu with
  | whole hds =>
    refine mantissaOf_whole hds.decimal hds.nonempty hrest.digitsOf_eq fun more heq => ?_
    subst heq
    exact (hrest '.' rfl).2.1 rfl
  | pointed hds hfs =>
    rw [List.append_assoc, List.cons_append, mantissaOf_pointed hds.decimal hds.nonempty,
      digitsOf_append hfs.decimal, hrest.digitsOf_eq, List.append_nil]

/-- **A plain number that is set apart is the longest numeral.** -/
theorem longestNumeral_plain {r rest : List Char} (h : IsPlain r) (hrest : SetApart rest) :
    LongestNumeral (r ++ rest) r rest := by
  refine longestNumeral_of_numberOf (IsPlain.isNumeral h) ?_
  obtain ⟨s, u, rfl, hs, hu⟩ := IsPlain.exists_sign h
  have hmantissa := mantissaOf_plain hu hrest
  obtain ⟨c, tail, hcons, hc⟩ := (UnsignedPlain.mantissa hu).exists_cons
  have hfirst : s = [] → ∀ d more, u ++ rest = d :: more → ¬ (d = '-' ∨ d = '+') := by
    intro _ d more heq
    rw [hcons, List.cons_append] at heq
    cases heq
    exact hc.not_sign
  rw [List.append_assoc, numberOf_sign hs hfirst, hmantissa, if_neg (by rw [hcons]; simp),
    List.drop_left, hrest.exponentOf_eq, List.append_nil]

/-! ## §3. Rounded numbers. -/

/-- Whether the value of a numeral is finite. -/
def HasFiniteValue (t : List Char) : Prop :=
  ∀ x, Number.readFloat? t = some x → ∃ d, Number.parts x = .finite d

/-- A numeral of finite value is rounded to a plain number. -/
theorem rounded_isPlain (hplaces : 0 < places) {t : List Char} (ht : IsNumeral t)
    (hfinite : HasFiniteValue t) : IsPlain (rounded places t) := by
  obtain ⟨x, hx⟩ := ht.exists_float
  obtain ⟨d, hd⟩ := hfinite x hx
  unfold rounded
  rw [hx]
  exact Number.plainFloat_isPlain hplaces hd

/-- The digit of a flag is the number in front of the point. -/
theorem rounded_digit (hplaces : 0 < places) {n m : Nat} {e : Int} {x : Float}
    (hread : Number.readFloat? (Number.digits n) = some x)
    (hparts : Number.parts x = .finite ⟨false, m, e⟩)
    (hratio : ∃ den, 0 < den ∧ Number.dyadicRatio m e = (den * n, den)) :
    rounded places (Number.digits n) = Number.digits n := by
  obtain ⟨den, hden, hratio⟩ := hratio
  have hscaled : (⟨false, m, e⟩ : Number.Dyadic).scaled places = n * Number.tenTo places := by
    unfold Number.Dyadic.scaled Number.Dyadic.ratio
    simp only [hratio]
    rw [Nat.mul_assoc, Number.roundQuotient_mul _ hden]
  unfold rounded
  rw [hread]
  exact Number.plainFloat_whole hplaces hparts rfl hscaled

/-- A flag is a whole number and keeps its digit. -/
theorem rounded_flag (hplaces : 0 < places) {c : Char} (hc : c = '0' ∨ c = '1') :
    rounded places [c] = [c] := by
  rcases hc with rfl | rfl
  · have hdigits : Number.digits 0 = ['0'] := by decide
    rw [← hdigits]
    refine rounded_digit hplaces (x := Number.ofBits false 0) (m := 0) (e := -1074)
      (by decide) (by decide) ⟨Number.twoTo 1074, Number.twoTo_pos _, ?_⟩
    rw [Nat.mul_zero]
    rfl
  · have hdigits : Number.digits 1 = ['1'] := by decide
    rw [← hdigits]
    refine rounded_digit hplaces (x := Number.ofDecimal false 1 0) (m := Number.twoTo 52) (e := -52)
      (by decide) (by decide) ⟨Number.twoTo 52, Number.twoTo_pos _, ?_⟩
    rw [Nat.mul_one]
    rfl

/-! ## §4. What stands before. -/

/-- Whether a number would run into a character. -/
def EndsNumber (c : Char) : Prop := isAsciiDigit c = true ∨ c = '.'

/-- Whether a text ends in a character that a number would run into. -/
def EndsInNumber (cs : List Char) : Prop := ∃ last, cs.getLast? = some last ∧ EndsNumber last

theorem EndsInNumber.append {cs : List Char} (h : EndsInNumber cs) (before : List Char) :
    EndsInNumber (before ++ cs) := by
  obtain ⟨last, hlast, hends⟩ := h
  refine ⟨last, ?_, hends⟩
  rw [List.getLast?_append, hlast, Option.some_or]

theorem EndsInNumber.cons {cs : List Char} (h : EndsInNumber cs) (c : Char) :
    EndsInNumber (c :: cs) := h.append [c]

theorem Digits.endsInNumber {ds : List Char} (h : Digits ds) : EndsInNumber ds := by
  have hlast := List.getLast?_eq_some_getLast h.nonempty
  exact ⟨_, hlast, Or.inl (h.ascii _ (List.getLast_mem h.nonempty))⟩

/-- **A numeral ends in a digit or a point.** -/
theorem IsNumeral.endsInNumber {t : List Char} (h : IsNumeral t) : EndsInNumber t := by
  cases h with
  | intro _ hm he =>
    refine EndsInNumber.append ?_ _
    cases he with
    | none =>
      rw [List.append_nil]
      cases hm with
      | whole hds => exact Digits.endsInNumber hds
      | @pointed ds fs hds hfs =>
        refine EndsInNumber.append ?_ ds
        by_cases hnil : fs = []
        · subst hnil
          exact ⟨'.', rfl, Or.inr rfl⟩
        · exact (Digits.endsInNumber ⟨hnil, hfs⟩).cons '.'
      | fraction hfs => exact (Digits.endsInNumber hfs).cons '.'
    | plain _ hds => exact ((Digits.endsInNumber hds).cons _).append _
    | signed _ _ hds => exact (((Digits.endsInNumber hds).cons _).cons _).append _

theorem setApart_cons {c : Char} (hdigit : isDecimalDigit c = false) (hpoint : c ≠ '.')
    (hmark : ¬ IsExponentMark c) (cs : List Char) : SetApart (c :: cs) := by
  intro d hd
  cases hd
  exact ⟨hdigit, hpoint, hmark⟩

theorem setApart_of_not {c : Char} (h : isNumberMark c = false) (cs : List Char) :
    SetApart (c :: cs) := by
  obtain ⟨hdigit, hpoint, _, hexponent⟩ := numberMark_false h
  exact setApart_cons hdigit hpoint hexponent cs

theorem UnsignedPlain.exists_cons {u : List Char} (h : UnsignedPlain u) :
    ∃ c tail, u = c :: tail ∧ isAsciiDigit c = true := by
  cases h with
  | whole hds =>
    obtain ⟨c, tail, rfl⟩ := List.exists_cons_of_ne_nil hds.nonempty
    exact ⟨c, tail, rfl, hds.ascii c (List.mem_cons_self ..)⟩
  | pointed hds _ =>
    obtain ⟨c, tail, rfl⟩ := List.exists_cons_of_ne_nil hds.nonempty
    exact ⟨c, _, rfl, hds.ascii c (List.mem_cons_self ..)⟩

/-- **What is put in the place of a number does not run into the one before.** -/
theorem spaced_setApart {r : List Char} (hr : IsPlain r) (out : List Char) {last : Char}
    (hlast : EndsNumber last) : SetApart (spaced (some last) r ++ out) := by
  cases hr with
  | positive h =>
    obtain ⟨c, tail, rfl, hc⟩ := UnsignedPlain.exists_cons h
    have hruns : runsInto (some last) (c :: tail) = true := by
      show ((isAsciiDigit last || last == '.') && isDecimalDigit c) = true
      rw [isDecimalDigit_of_ascii hc, Bool.and_true, Bool.or_eq_true, beq_iff_eq]
      exact hlast
    rw [spaced, if_pos hruns]
    exact setApart_cons (by decide) (by decide) (by unfold IsExponentMark; decide) _
  | @negative u h =>
    have hruns : ¬ runsInto (some last) ('-' :: u) = true := by
      show ¬ ((isAsciiDigit last || last == '.') && isDecimalDigit '-') = true
      rw [show isDecimalDigit '-' = false by decide, Bool.and_false]
      decide
    rw [spaced, if_neg hruns]
    exact setApart_cons (by decide) (by decide) (by unfold IsExponentMark; decide) _

end ControlSurface.Svg
