/-
  ControlSurface.Proofs.Svg.Separation
  ────────────────────────────────────
  Whether rounding keeps the numbers of a text apart: whether the search finds the rounded numbers
  in what comes out, one for one, and around them the text there was.

  Main results:
    * `roundFrom_after` — from a number on, the rounded numbers are found again, each where it was
      put.
    * `keeps_apart_iff` — all of them are, unless a rounded number is a sign without digits, a sign
      before the first number gets a digit behind it, or a point behind the last one a number
      without a point before it.
    * `sign_takes_digits` — a sign before the first number that loses its own one.
-/
import ControlSurface.Proofs.Svg.Cutting
import ControlSurface.Proofs.Svg.Rounding
import Mathlib.Data.List.Forall2

namespace ControlSurface.Number

open ControlSurface.Text

/-! ## §1. Numbers rounded to whole ones. -/

/-- What is left of a signed whole number without the zeros at its end: a plain number, or nothing
but the sign. -/
theorem stripped_whole {sign ds : List Char} (hsign : sign = [] ∨ sign = ['-']) (hds : Digits ds) :
    IsPlain (stripped (sign ++ ds)) ∨ stripped (sign ++ ds) = ['-'] := by
  have hzero : IsPlain ['0'] := .positive (.whole (digits_of_all (by simp) rfl))
  have hplain : ∀ {front : List Char}, front <+: ds → front ≠ [] → UnsignedPlain front :=
    fun hfront hne => .whole ⟨hne, fun c hc => hds.ascii c (hfront.subset hc)⟩
  have hbared : bared (sign ++ ds) <+: sign ++ ds :=
    (trimEndBy_begins _ _).trans (trimEndBy_begins _ _)
  rw [stripped_eq]
  split
  next => exact Or.inl hzero
  next hne =>
    rw [not_or] at hne
    rcases hsign with rfl | rfl
    · exact Or.inl (.positive (hplain hbared hne.1))
    · obtain hnil | ⟨front, hfront, hbegins⟩ := List.prefix_cons_iff.mp hbared
      · exact absurd hnil hne.1
      · rw [hfront]
        by_cases hnil : front = []
        · exact Or.inr (by rw [hnil])
        · exact Or.inl (.negative (hplain hbegins hnil))

/-- The text of a finite double without decimals is plain or a bare sign. -/
theorem plainFloat_zero {x : Float} {d : Dyadic} (hx : parts x = .finite d) :
    IsPlain (plainFloat 0 x).toList ∨ (plainFloat 0 x).toList = ['-'] := by
  unfold plainFloat fixed
  rw [String.toList_ofList, hx]
  show IsPlain (stripped (if d.negative then '-' :: digits (d.scaled 0) else digits (d.scaled 0)))
    ∨ stripped (if d.negative then '-' :: digits (d.scaled 0) else digits (d.scaled 0)) = ['-']
  split
  · exact stripped_whole (Or.inr rfl) (digits_digits _)
  · exact stripped_whole (Or.inl rfl) (digits_digits _)

end ControlSurface.Number

namespace ControlSurface.Svg

open ControlSurface.Text
open ControlSurface.Number (Digits IsPlain UnsignedPlain isDecimalDigit_of_ascii)

/-- A numeral of finite value is rounded to a plain number or to a bare sign. -/
theorem rounded_cases {places : Nat} {t : List Char} (ht : IsNumeral t)
    (hfinite : HasFiniteValue t) : IsPlain (rounded places t) ∨ rounded places t = ['-'] := by
  by_cases hplaces : 0 < places
  · exact Or.inl (rounded_isPlain hplaces ht hfinite)
  · obtain rfl : places = 0 := Nat.eq_zero_of_not_pos hplaces
    obtain ⟨x, hx⟩ := ht.exists_float
    obtain ⟨d, hd⟩ := hfinite x hx
    unfold rounded
    rw [hx]
    exact Number.plainFloat_zero hd

/-! ## §2. Plain numbers in a text. -/

/-- What may follow a plain number for it to end there: no digit, no exponent, and a point only if
the number has one itself. -/
structure Bounds (r rest : List Char) : Prop where
  digits : digitsOf rest = []
  exponent : exponentOf rest = []
  point : rest.head? = some '.' → '.' ∈ r

theorem SetApart.bounds {rest : List Char} (h : SetApart rest) (r : List Char) : Bounds r rest :=
  ⟨h.digitsOf_eq, h.exponentOf_eq, fun hhead => absurd rfl (h '.' hhead).2.1⟩

theorem mantissaOf_bounds {u rest : List Char} (hu : UnsignedPlain u) (h : Bounds u rest) :
    mantissaOf (u ++ rest) = u := by
  cases hu with
  | whole hds =>
    refine mantissaOf_whole hds.decimal hds.nonempty h.digits fun more heq => ?_
    have hmem := h.point (by rw [heq]; rfl)
    exact absurd (hds.ascii _ hmem) (by decide)
  | pointed hds hfs =>
    rw [List.append_assoc, List.cons_append, mantissaOf_pointed hds.decimal hds.nonempty,
      digitsOf_append hfs.decimal, h.digits, List.append_nil]

/-- **A plain number is found as it is** where nothing that follows goes on with it. -/
theorem numberOf_bounds {r rest : List Char} (hr : IsPlain r) (h : Bounds r rest) :
    numberOf (r ++ rest) = r := by
  obtain ⟨s, u, rfl, hs, hu⟩ := IsPlain.exists_sign hr
  have hbounds : Bounds u rest := by
    refine ⟨h.digits, h.exponent, fun hhead => ?_⟩
    rcases List.mem_append.mp (h.point hhead) with hmem | hmem
    · cases hs with
      | none => exact absurd hmem List.not_mem_nil
      | some hs =>
        rw [← List.mem_singleton.mp hmem] at hs
        exact absurd hs (by unfold IsSignMark; decide)
    · exact hmem
  have hmantissa := mantissaOf_bounds hu hbounds
  obtain ⟨c, tail, rfl, hc⟩ := UnsignedPlain.exists_cons hu
  have hfirst : s = [] → ∀ d more, c :: tail ++ rest = d :: more → ¬ (d = '-' ∨ d = '+') := by
    intro _ d more heq
    rw [← (List.cons.inj heq).1]
    exact not_sign_of_digit (isDecimalDigit_of_ascii hc)
  rw [List.append_assoc, numberOf_sign hs hfirst, hmantissa, if_neg (List.cons_ne_nil _ _),
    List.drop_left, h.exponent, List.append_nil]

/-- A point behind a number without one becomes part of it. -/
theorem numberOf_point_ne {r : List Char} (hr : IsPlain r) (hpoint : '.' ∉ r)
    (more : List Char) : numberOf (r ++ '.' :: more) ≠ r := by
  obtain ⟨s, u, rfl, hs, hu⟩ := IsPlain.exists_sign hr
  have hnumeral : IsNumeral (s ++ u ++ ['.']) := by
    cases hu with
    | whole hds =>
      have hnone : ∀ c ∈ ([] : List Char), isAsciiDigit c = true :=
        fun _ hc => absurd hc List.not_mem_nil
      have hpointed := IsNumeral.intro hs (.pointed hds hnone) .none
      rwa [List.append_nil, ← List.append_assoc] at hpointed
    | pointed => exact absurd (by simp) hpoint
  intro heq
  have hbegins := prefix_numberOf hnumeral more
  rw [List.append_assoc (s ++ u), List.singleton_append, heq] at hbegins
  have hlength := hbegins.length_le
  rw [List.length_append, List.length_singleton] at hlength
  omega

/-- A sign alone is no number. -/
theorem numberOf_minus_ne (rest : List Char) : numberOf (['-'] ++ rest) ≠ ['-'] := by
  rw [numberOf_sign (.some (Or.inl rfl)) fun h => by cases h]
  split
  next => exact (List.cons_ne_nil _ _).symm
  next hsome =>
    intro heq
    have htail : mantissaOf rest ++ _ = [] := (List.cons.inj heq).2
    exact hsome (List.append_eq_nil_iff.mp htail).1

theorem Silent.no_digits {cs rest : List Char} (h : Silent cs rest) (hne : cs ≠ [])
    (out : List Char) : digitsOf (cs ++ out) = [] := by
  obtain ⟨c, cs, rfl⟩ := List.exists_cons_of_ne_nil hne
  exact digitsOf_cons_eq_nil_iff.mpr (digit_of_numberOf h.1)

/-- An exponent has a digit, so none is found in a text without numbers. -/
theorem Silent.no_exponent {cs : List Char} (h : Silent cs []) : exponentOf cs = [] := by
  have hnone : ∀ {ds : List Char}, (∀ c ∈ ds, isDecimalDigit c = false) → digitsOf ds = [] := by
    intro ds hds
    cases ds with
    | nil => rfl
    | cons d ds => exact digitsOf_cons_eq_nil_iff.mpr (hds d (List.mem_cons_self ..))
  have hdigits := h.digit
  unfold exponentOf
  split
  next e rest =>
    obtain ⟨_, hrest⟩ := List.forall_mem_cons.mp hdigits
    split
    next =>
      split
      next s more =>
        split
        next => rw [hnone (List.forall_mem_cons.mp hrest).2]
        next => rw [hnone hrest]
      next => rfl
    next => rfl
  next => rfl

/-! ## §3. Numbers kept apart. -/

/-- A text between two numbers without signs and points, and not just a mark of an exponent. -/
structure Quiet (before : List Char) : Prop where
  marks : ∀ c ∈ before, ¬ IsSignMark c ∧ c ≠ '.'
  exponent : ¬ ∃ e, before = [e] ∧ IsExponentMark e

/-- A number as it is found after rounding: what stands before it, maybe with a space more, and the
number rounded. -/
def Found (places : Nat) (p p' : List Char × List Char) : Prop :=
  (p'.1 = p.1 ∨ p'.1 = p.1 ++ [' ']) ∧ p'.2 = rounded places p.2

/-- Whether one cut has the rounded numbers of another, in the same text but for spaces before the
numbers. -/
structure KeepsApart (places : Nat) (k k' : Cut) : Prop where
  numbers : List.Forall₂ (Found places) k.numbers k'.numbers
  rest : k'.rest = k.rest

/-- When rounded numbers stay apart from what stands around them. -/
structure Separable (places : Nat) (k : Cut) : Prop where
  /-- No number is rounded to a sign without digits. -/
  digits : ∀ p ∈ k.numbers, rounded places p.2 ≠ ['-']
  /-- A sign before the first number is followed by another one. -/
  first : ∀ p, k.numbers.head? = some p → EndsInSign p.1 → (rounded places p.2).head? = some '-'
  /-- A point behind the last number is not its first one. -/
  last : ∀ p, k.numbers.getLast? = some p → k.rest.head? = some '.' → '.' ∈ rounded places p.2

variable {places : Nat}

/-- What the search passes is kept. -/
theorem roundFrom_silent {cs rest : List Char} (h : Silent cs rest) (before : Option Char) :
    roundFrom places 0 before (cs ++ rest)
      = cs ++ roundFrom places 0 (cs.getLast?.or before) rest := by
  induction cs generalizing before with
  | nil => rfl
  | cons c cs ih =>
    rw [List.cons_append, roundFrom_copy h.1, ih h.2, List.cons_append, getLast?_cons_or]

theorem Quiet.not_endsInSign {before : List Char} (h : Quiet before) : ¬ EndsInSign before := by
  rintro ⟨c, hc, hsign⟩
  exact (h.marks c (List.mem_of_getLast? hc)).1 hsign

theorem Quiet.not_point {before : List Char} (h : Quiet before) : before.getLast? ≠ some '.' :=
  fun hc => (h.marks '.' (List.mem_of_getLast? hc)).2 rfl

/-- What stands between two numbers ends the first one. -/
theorem Quiet.bounds {before rest : List Char} (hquiet : Quiet before) (h : Silent before rest)
    (hne : before ≠ []) (r out : List Char) : Bounds r (before ++ out) := by
  refine ⟨h.no_digits hne out, ?_, ?_⟩
  · obtain ⟨e, more, rfl⟩ := List.exists_cons_of_ne_nil hne
    by_cases he : IsExponentMark e
    · -- the mark of an exponent is followed by neither a sign nor a digit
      cases more with
      | nil => exact absurd ⟨e, rfl, he⟩ hquiet.exponent
      | cons s more =>
        have hsign := (hquiet.marks s (List.mem_cons_of_mem _ (List.mem_cons_self ..))).1
        have hdigits : digitsOf (s :: (more ++ out)) = [] :=
          digitsOf_cons_eq_nil_iff.mpr (digit_of_numberOf h.2.1)
        show exponentOf (e :: s :: (more ++ out)) = []
        unfold exponentOf
        simp only [show e = 'e' ∨ e = 'E' from he, show ¬ (s = '-' ∨ s = '+') from hsign, if_true,
          if_false, hdigits]
    · unfold Svg.exponentOf
      exact if_neg he
  · intro hhead
    obtain ⟨c, more, rfl⟩ := List.exists_cons_of_ne_nil hne
    obtain rfl : c = '.' := by simpa using hhead
    exact absurd rfl (hquiet.marks '.' (List.mem_cons_self ..)).2

/-! ## §4. What rounding leaves to find. -/

theorem CutInto.numerals {cs : List Char} {k : Cut} (h : CutInto cs k)
    (hascii : OnlyAsciiDigits cs) : ∀ p ∈ k.numbers, IsNumeral p.2 := by
  induction h with
  | rest => exact fun _ hp => absurd hp List.not_mem_nil
  | @number before t cs k _ hne hfound _ ih =>
    have htail := hascii.sublist (List.sublist_append_right before (t ++ cs))
    have hnumeral := (numberOf_spec htail (by rwa [hfound])).2
    rw [hfound] at hnumeral
    exact List.forall_mem_cons.mpr
      ⟨hnumeral, ih (htail.sublist (List.sublist_append_right t cs))⟩

/-- Each number is what is found at its place. -/
theorem CutInto.found {cs : List Char} {k : Cut} (h : CutInto cs k) :
    ∀ p ∈ k.numbers, ∃ rest, numberOf (p.2 ++ rest) = p.2 := by
  induction h with
  | rest => exact fun _ hp => absurd hp List.not_mem_nil
  | number _ _ hfound _ ih => exact List.forall_mem_cons.mpr ⟨⟨_, hfound⟩, ih⟩

/-- The last number is found before the rest. -/
theorem CutInto.last {cs : List Char} {k : Cut} (h : CutInto cs k) :
    ∀ p, k.numbers.getLast? = some p → numberOf (p.2 ++ k.rest) = p.2 := by
  induction h with
  | rest => exact fun _ hp => by cases hp
  | @number before t cs k _ _ hfound hk ih =>
    intro p hp
    rw [List.getLast?_cons] at hp
    cases hlast : k.numbers.getLast? with
    | some q =>
      rw [hlast] at hp
      cases hp
      exact ih _ hlast
    | none =>
      rw [hlast] at hp
      cases hp
      cases hk with
      | rest => exact hfound
      | number =>
        rw [List.getLast?_cons] at hlast
        cases hlast

/-- After a sign at its end a text without numbers goes on with no mantissa. -/
theorem Silent.mantissa {cs rest : List Char} (h : Silent cs rest) (hsign : EndsInSign cs) :
    mantissaOf rest = [] := by
  induction cs with
  | nil =>
    obtain ⟨c, hc, _⟩ := hsign
    cases hc
  | cons c cs ih =>
    obtain ⟨d, hd, hmark⟩ := hsign
    rw [List.getLast?_cons] at hd
    cases hlast : cs.getLast? with
    | some e =>
      rw [hlast] at hd
      cases hd
      exact ih h.2 ⟨e, hlast, hmark⟩
    | none =>
      rw [hlast] at hd
      cases hd
      rw [List.getLast?_eq_none_iff] at hlast
      subst hlast
      exact (numberOf_signed_eq_nil_iff hmark).mp h.1

theorem spaced_cases (before : Option Char) (r : List Char) :
    (spaced before r = r ∧ runsInto before r = false) ∨ spaced before r = ' ' :: r := by
  unfold spaced
  split
  next => exact Or.inr rfl
  next h => exact Or.inl ⟨rfl, by simpa using h⟩

/-- The first number of a text is rounded, and what stands before it is kept. -/
theorem roundFrom_found {before t cs : List Char} (hbefore : Silent before (t ++ cs)) (hne : t ≠ [])
    (hfound : numberOf (t ++ cs) = t) (b : Option Char) :
    roundFrom places 0 b (before ++ (t ++ cs))
      = before ++ (spaced (before.getLast?.or b) (rounded places t)
          ++ roundFrom places 0 t.getLast? cs) := by
  rw [roundFrom_silent hbefore, roundFrom_number hne hfound]

/-- **A number put behind what stood before another one** is found there, unless a sign before it
gets a digit behind it. -/
theorem cutInto_spaced {before rest r out : List Char} {k : Cut} (hbefore : Silent before rest)
    (hr : IsPlain r) (hfound : numberOf (r ++ out) = r) (hk : CutInto out k)
    (hsign : EndsInSign before → r.head? = some '-') (b : Option Char) :
    ∃ before', (before' = before ∨ before' = before ++ [' '])
      ∧ CutInto (before ++ (spaced (before.getLast?.or b) r ++ out))
          ⟨(before', r) :: k.numbers, k.rest⟩ := by
  have hne := (IsPlain.isNumeral hr).ne_nil
  obtain ⟨c, tail, rfl⟩ := List.exists_cons_of_ne_nil hne
  rcases spaced_cases (before.getLast?.or b) (c :: tail) with ⟨hspaced, hruns⟩ | hspaced
  · refine ⟨before, Or.inl rfl, ?_⟩
    rw [hspaced]
    refine .number (hbefore.before (fun hend => ?_) fun hpoint => ?_) hne hfound hk
    · obtain rfl : c = '-' := by simpa using hsign hend
      exact mantissaOf_eq_nil_iff.mpr
        ⟨digitsOf_cons_eq_nil_iff.mpr (by decide), fun _ heq => by cases heq⟩
    · rw [hpoint, Option.some_or] at hruns
      exact digitsOf_cons_eq_nil_iff.mpr (by simpa [runsInto] using hruns)
  · refine ⟨before ++ [' '], Or.inr rfl, ?_⟩
    have hnone : ∀ d ∈ [' '], ¬ StartsNumber d := by
      intro d hd
      rw [List.mem_singleton.mp hd]
      unfold StartsNumber IsSignMark
      decide
    have hsilent : Silent (before ++ [' ']) (c :: tail ++ out) := by
      refine Silent.append (hbefore.before (fun _ => ?_) fun _ => ?_) (silent_of_none hnone _)
      · exact mantissaOf_eq_nil_iff.mpr
          ⟨digitsOf_cons_eq_nil_iff.mpr (by decide), fun _ heq => by cases heq⟩
      · exact digitsOf_cons_eq_nil_iff.mpr (by decide)
    have hcut := CutInto.number hsilent hne hfound hk
    rw [hspaced]
    rwa [List.append_assoc] at hcut

/-- **From a number on**, the rounded numbers are found again, and the number itself ends where it
did. -/
theorem roundFrom_after {cs : List Char} {k : Cut} (h : CutInto cs k)
    (hquiet : ∀ p ∈ k.numbers, Quiet p.1)
    (hplain : ∀ p ∈ k.numbers, IsNumeral p.2 ∧ IsPlain (rounded places p.2))
    (hpoint : ∀ p, k.numbers.getLast? = some p → k.rest.head? = some '.' →
      '.' ∈ rounded places p.2) {last : Char} (hlast : EndsNumber last) :
    (∃ k', CutInto (roundFrom places 0 (some last) cs) k' ∧ KeepsApart places k k')
      ∧ ∀ r, IsPlain r → (k.numbers = [] → k.rest.head? = some '.' → '.' ∈ r) →
          numberOf (r ++ roundFrom places 0 (some last) cs) = r := by
  induction h generalizing last with
  | @rest cs hrest =>
    have hkept := @roundFrom_silent places cs [] hrest (some last)
    rw [List.append_nil, roundFrom, List.append_nil] at hkept
    rw [hkept]
    refine ⟨⟨_, .rest hrest, .nil, rfl⟩, fun r hr hpointed => ?_⟩
    have hdigits : digitsOf cs = [] := by
      cases cs with
      | nil => rfl
      | cons c cs => exact digitsOf_cons_eq_nil_iff.mpr (digit_of_numberOf hrest.1)
    exact numberOf_bounds hr ⟨hdigits, hrest.no_exponent, hpointed rfl⟩
  | @number before t cs k hbefore hne hfound hk ih =>
    obtain ⟨hquiet1, hquiets⟩ := List.forall_mem_cons.mp hquiet
    obtain ⟨⟨hnumeral, hr⟩, hplains⟩ := List.forall_mem_cons.mp hplain
    obtain ⟨last', hlast', hends⟩ := hnumeral.endsInNumber
    -- if this number is the last one, it is the one before the rest
    have hpoint1 : k.numbers = [] → k.rest.head? = some '.' → '.' ∈ rounded places t := by
      intro hnil
      exact hpoint (before, t) (by rw [hnil]; rfl)
    have hpoints : ∀ p, k.numbers.getLast? = some p → k.rest.head? = some '.' →
        '.' ∈ rounded places p.2 := by
      intro p hp
      refine hpoint p ?_
      rw [List.getLast?_cons, hp]
      rfl
    obtain ⟨⟨k', hcut, hkeeps⟩, hafter⟩ := ih hquiets hplains hpoints hends
    obtain ⟨before', hbefore', hall⟩ := cutInto_spaced hbefore hr (hafter _ hr hpoint1) hcut
      (fun hsign => absurd hsign hquiet1.not_endsInSign) (some last)
    rw [roundFrom_found hbefore hne hfound, hlast']
    refine ⟨⟨_, hall, .cons ⟨hbefore', rfl⟩ hkeeps.numbers, hkeeps.rest⟩, fun r' hr' _ => ?_⟩
    refine numberOf_bounds hr' ?_
    by_cases hnil : before = []
    · subst hnil
      exact (spaced_setApart hr _ hlast).bounds r'
    · exact hquiet1.bounds hbefore hnil r' _

/-! ## §5. When rounding keeps numbers apart. -/

theorem KeepsApart.exists_found {k k' : Cut} (h : KeepsApart places k k') {i : Nat}
    {p : List Char × List Char} (hp : k.numbers[i]? = some p) :
    ∃ p', k'.numbers[i]? = some p' ∧ Found places p p' := by
  obtain ⟨hi, hget⟩ := List.getElem?_eq_some_iff.mp hp
  have hi' : i < k'.numbers.length := h.numbers.length_eq ▸ hi
  refine ⟨k'.numbers[i], List.getElem?_eq_getElem hi', ?_⟩
  have hfound := h.numbers.get hi hi'
  rwa [List.get_eq_getElem, List.get_eq_getElem, hget] at hfound

/-- Behind a sign a number without one is not found where it was put. -/
theorem signed_of_found {before r out : List Char} {k : Cut} (hr : IsPlain r)
    (h : CutInto (before ++ (spaced before.getLast? r ++ out)) k) (hsign : EndsInSign before)
    {p : List Char × List Char} (hp : k.numbers[0]? = some p)
    (hbefore : p.1 = before ∨ p.1 = before ++ [' ']) (hfound : p.2 = r) : r.head? = some '-' := by
  cases hr with
  | negative => rfl
  | @positive r hu =>
    obtain ⟨c, tail, rfl, hc⟩ := UnsignedPlain.exists_cons hu
    have hspaced : spaced before.getLast? (c :: tail) = c :: tail := by
      obtain ⟨s, hs, hmark⟩ := hsign
      rw [hs, spaced, if_neg]
      rcases hmark with rfl | rfl
      · simp [runsInto, isAsciiDigit]
      · simp [runsInto, isAsciiDigit]
    rw [hspaced] at h
    generalize hall : before ++ (c :: tail ++ out) = cs at h
    cases h with
    | rest => cases hp
    | @number before' t rest k hsilent _ _ _ =>
      cases hp
      subst hfound
      rcases hbefore with rfl | rfl
      · -- what follows the sign would have to be no mantissa
        have hmantissa := hsilent.mantissa hsign
        rw [List.cons_append, mantissaOf_eq_nil_iff, digitsOf_cons_eq_nil_iff,
          isDecimalDigit_of_ascii hc] at hmantissa
        cases hmantissa.1
      · rw [List.append_assoc, List.append_cancel_left_eq] at hall
        obtain rfl := (List.cons.inj hall).1
        exact absurd hc (by decide)

/-- What can be told apart is found. -/
theorem keepsApart_of_separable {value : List Char} {k : Cut} (h : CutInto value k)
    (hascii : OnlyAsciiDigits value) (hfinite : ∀ p ∈ k.numbers, HasFiniteValue p.2)
    (hquiet : ∀ p ∈ k.numbers.tail, Quiet p.1) (hsep : Separable places k) :
    ∃ k', CutInto (roundNumbers places value) k' ∧ KeepsApart places k k' := by
  have hplain : ∀ p ∈ k.numbers, IsNumeral p.2 ∧ IsPlain (rounded places p.2) := by
    intro p hp
    have hnumeral := h.numerals hascii p hp
    exact ⟨hnumeral,
      (rounded_cases hnumeral (hfinite p hp)).resolve_right (hsep.digits p hp)⟩
  unfold roundNumbers
  cases h with
  | rest hrest =>
    have hkept := @roundFrom_silent places value [] hrest none
    rw [List.append_nil, roundFrom, List.append_nil] at hkept
    rw [hkept]
    exact ⟨_, .rest hrest, .nil, rfl⟩
  | @number before t cs k hbefore hne hfound hk =>
    obtain ⟨⟨hnumeral, hr⟩, hplains⟩ := List.forall_mem_cons.mp hplain
    obtain ⟨last, hlast, hends⟩ := hnumeral.endsInNumber
    have hpoints : ∀ p, k.numbers.getLast? = some p → k.rest.head? = some '.' →
        '.' ∈ rounded places p.2 := by
      intro p hp
      refine hsep.last p ?_
      rw [List.getLast?_cons, hp]
      rfl
    obtain ⟨⟨k', hcut, hkeeps⟩, hafter⟩ := roundFrom_after hk hquiet hplains hpoints hends
    have hout := hafter _ hr fun hnil => hsep.last (before, t) (by rw [hnil]; rfl)
    obtain ⟨before', hbefore', hall⟩ :=
      cutInto_spaced hbefore hr hout hcut (hsep.first (before, t) rfl) none
    rw [roundFrom_found hbefore hne hfound, hlast]
    exact ⟨_, hall, .cons ⟨hbefore', rfl⟩ hkeeps.numbers, hkeeps.rest⟩

/-- What is needed is kept. -/
theorem separable_of_keepsApart {value : List Char} {k k' : Cut} (h : CutInto value k)
    (hascii : OnlyAsciiDigits value) (hfinite : ∀ p ∈ k.numbers, HasFiniteValue p.2)
    (h' : CutInto (roundNumbers places value) k') (hkeeps : KeepsApart places k k') :
    Separable places k := by
  have hdigits : ∀ p ∈ k.numbers, rounded places p.2 ≠ ['-'] := by
    intro p hp hminus
    obtain ⟨i, hi⟩ := List.mem_iff_getElem?.mp hp
    obtain ⟨p', hp', hfound⟩ := hkeeps.exists_found hi
    obtain ⟨rest, hrest⟩ := h'.found p' (List.mem_of_getElem? hp')
    rw [hfound.2, hminus] at hrest
    exact numberOf_minus_ne rest hrest
  have hplain : ∀ p ∈ k.numbers, IsPlain (rounded places p.2) := fun p hp =>
    (rounded_cases (h.numerals hascii p hp) (hfinite p hp)).resolve_right (hdigits p hp)
  refine ⟨hdigits, fun p hp hsign => ?_, fun p hp hpoint => ?_⟩
  · cases h with
    | rest => cases hp
    | @number before t cs k hbefore hne hfound _ =>
      cases hp
      unfold roundNumbers at h'
      rw [roundFrom_found hbefore hne hfound, Option.or_none] at h'
      obtain ⟨p', hp', hbefore', hround⟩ := hkeeps.exists_found (i := 0) (p := (before, t)) rfl
      exact signed_of_found (hplain _ (List.mem_cons_self ..)) h' hsign hp' hbefore' hround
  · have hmem := List.mem_of_getLast? hp
    rw [List.getLast?_eq_getElem?] at hp
    obtain ⟨p', hp', hfound⟩ := hkeeps.exists_found hp
    rw [hkeeps.numbers.length_eq, ← List.getLast?_eq_getElem?] at hp'
    have hends := h'.last p' hp'
    rw [hfound.2, hkeeps.rest] at hends
    obtain ⟨more, hmore⟩ := List.head?_eq_some_iff.mp hpoint
    rw [hmore] at hends
    by_contra hnone
    exact numberOf_point_ne (hplain p hmem) hnone more hends

/-- **Rounding keeps the numbers of a text apart** exactly when the rounded numbers can be told from
what stands around them: no number is rounded to a bare sign, no sign before the first one gets a
digit behind it, and no point behind the last one follows a number without a point.  Between two
numbers nothing can go wrong. -/
theorem keeps_apart_iff {value : List Char} (hascii : OnlyAsciiDigits value)
    (hfinite : ∀ p ∈ (numbersIn value).numbers, HasFiniteValue p.2)
    (hquiet : ∀ p ∈ (numbersIn value).numbers.tail, Quiet p.1) :
    KeepsApart places (numbersIn value) (numbersIn (roundNumbers places value))
      ↔ Separable places (numbersIn value) := by
  have hcut := cutInto_numbersIn value
  refine ⟨separable_of_keepsApart hcut hascii hfinite (cutInto_numbersIn _), fun hsep => ?_⟩
  obtain ⟨k', hk', hkeeps⟩ := keepsApart_of_separable hcut hascii hfinite hquiet hsep
  rwa [hk'.numbersIn_eq]

instance : DecidablePred OnlyAsciiDigits := fun cs => List.decidableBAll _ cs

/-- Numbers that touch each other, a sign and a point. -/
def touchingNumbers : List Char := "--5-.0001.5,1.25.".toList

theorem numbersIn_touching : numbersIn touchingNumbers
    = ⟨[("-".toList, "-5".toList), ([], "-.0001".toList), ([], ".5".toList),
        (",".toList, "1.25".toList)], ".".toList⟩ := by
  decide +kernel

/-- They are kept apart: the one that loses its sign and the one that gets a digit before its point
are set apart by spaces, and the point behind the last one finds a point in it. -/
theorem touching_kept_apart :
    OnlyAsciiDigits touchingNumbers
      ∧ (∀ p ∈ (numbersIn touchingNumbers).numbers, HasFiniteValue p.2)
      ∧ (∀ p ∈ (numbersIn touchingNumbers).numbers.tail, Quiet p.1)
      ∧ KeepsApart 3 (numbersIn touchingNumbers) (numbersIn (roundNumbers 3 touchingNumbers))
      ∧ roundNumbers 3 touchingNumbers = "--5 0 0.5,1.25.".toList := by
  have hascii : OnlyAsciiDigits touchingNumbers := by decide +kernel
  have hfinite : ∀ p ∈ (numbersIn touchingNumbers).numbers, HasFiniteValue p.2 := by
    rw [numbersIn_touching]
    simp only [List.forall_mem_cons]
    exact ⟨finite_of_readFloat? (by decide), finite_of_readFloat? (by decide),
      finite_of_readFloat? (by decide), finite_of_readFloat? (by decide),
      fun _ hp => absurd hp List.not_mem_nil⟩
  have hquiet : ∀ p ∈ (numbersIn touchingNumbers).numbers.tail, Quiet p.1 := by
    rw [numbersIn_touching]
    simp only [List.tail_cons, List.forall_mem_cons]
    have hnone : Quiet [] :=
      ⟨fun _ hc => absurd hc List.not_mem_nil, fun ⟨_, he, _⟩ => by cases he⟩
    have hcomma : Quiet [','] := by
      constructor
      · rw [List.forall_mem_singleton]
        unfold IsSignMark
        decide
      · rintro ⟨e, he, hmark⟩
        rw [← (List.cons.inj he).1] at hmark
        exact absurd hmark (by unfold IsExponentMark; decide)
    exact ⟨hnone, hnone, hcomma, fun _ hp => absurd hp List.not_mem_nil⟩
  have hseparable : Separable 3 (numbersIn touchingNumbers) := by
    rw [numbersIn_touching]
    constructor
    · decide +kernel
    · rintro p hp -
      cases hp
      decide +kernel
    · rintro p hp -
      cases hp
      decide +kernel
  exact ⟨hascii, hfinite, hquiet, (keeps_apart_iff hascii hfinite hquiet).mpr hseparable,
    by decide +kernel⟩

/-- **A sign before the first number** takes the digits of a number that loses its own one. -/
theorem sign_takes_digits :
    OnlyAsciiDigits "-+5".toList
      ∧ (∀ p ∈ (numbersIn "-+5".toList).numbers, HasFiniteValue p.2)
      ∧ (∀ p ∈ (numbersIn "-+5".toList).numbers.tail, Quiet p.1)
      ∧ roundNumbers 3 "-+5".toList = "-5".toList
      ∧ ¬ KeepsApart 3 (numbersIn "-+5".toList) (numbersIn (roundNumbers 3 "-+5".toList)) := by
  have hcut : numbersIn "-+5".toList = ⟨[("-".toList, "+5".toList)], []⟩ := by decide +kernel
  have hround : roundNumbers 3 "-+5".toList = "-5".toList := by decide +kernel
  refine ⟨by decide +kernel, ?_, ?_, hround, fun hkeeps => ?_⟩
  · rw [hcut]
    simp only [List.forall_mem_cons]
    exact ⟨finite_of_readFloat? (by decide), fun _ hp => absurd hp List.not_mem_nil⟩
  · rw [hcut]
    exact fun _ hp => absurd hp List.not_mem_nil
  · -- the number found is not the one that was put there
    rw [hround, hcut] at hkeeps
    have hfound : numbersIn "-5".toList = ⟨[([], "-5".toList)], []⟩ := by decide +kernel
    rw [hfound] at hkeeps
    obtain ⟨p', hp', _, heq⟩ := hkeeps.exists_found (i := 0) rfl
    cases hp'
    exact absurd heq (by decide +kernel)

end ControlSurface.Svg
