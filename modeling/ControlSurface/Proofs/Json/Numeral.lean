/-
  ControlSurface.Proofs.Json.Numeral
  ──────────────────────────────────
  Numbers are written as numerals.  Decimal digits never begin with a needless zero, so an integer
  is one at once; of a double the shortest digits are laid out with the point before, among or
  after them or with an exponent, and each layout is one as long as the digits begin with another
  one than zero (`isNumeral_layout`).

  Main results:
    * `isNumeral_int` — the text of an integer is a numeral.
    * `isNumeral_float` — so is the text of a finite double.
    * `read_int` — an integer that is not too long is read back.
-/
import ControlSurface.Json.Printer
import ControlSurface.Proofs.Json.Reading

namespace ControlSurface.Json

open ControlSurface.Text
open ControlSurface.Number (Digits Interval digits paddedDigits layout digits_digits
  digits_paddedDigits twoTo_pos tenTo_pos)

/-! ## §1. Integers. -/

/-- Digits of a number other than zero begin with another digit than zero. -/
theorem exists_first_digit {n : Nat} (hn : n ≠ 0) : ∃ c cs, digits n = c :: cs ∧ c ≠ '0' := by
  induction n using Nat.strongRecOn with
  | ind n ih =>
    unfold digits
    by_cases hsmall : n < 10
    · rw [Nat.toDigits_of_lt_base hsmall]
      have hall : ∀ k < 10, k ≠ 0 → Nat.digitChar k ≠ '0' := by decide
      exact ⟨_, [], rfl, hall n hsmall hn⟩
    · rw [Nat.toDigits_of_base_le (by decide) (by omega)]
      obtain ⟨c, cs, hcs, hc⟩ := ih (n / 10) (by omega) (by omega)
      unfold digits at hcs
      rw [hcs]
      exact ⟨c, _, rfl, hc⟩

theorem whole_digits (n : Nat) : Whole (digits n) := by
  by_cases hn : n = 0
  · subst hn
    exact .zero
  · obtain ⟨c, cs, hcs, hc⟩ := exists_first_digit hn
    have hdigits := digits_digits n
    rw [hcs] at hdigits ⊢
    exact .digits hc hdigits

theorem isNumeral_whole {whole sign : List Char} (hsign : sign = [] ∨ sign = ['-'])
    (h : Whole whole) : IsNumeral (sign ++ whole) := by
  have hnumeral := IsNumeral.intro hsign h .none .none
  rwa [List.append_nil, List.append_nil] at hnumeral

/-- An integer is written as its digits, with a minus before them if it is negative. -/
theorem toList_toString_int (i : Int) :
    (toString i).toList = (if i < 0 then ['-'] else []) ++ digits i.natAbs := by
  cases i with
  | ofNat n =>
    have hnonneg : ¬ Int.ofNat n < 0 := Int.not_lt.mpr (Int.natCast_nonneg n)
    rw [if_neg hnonneg]
    exact Nat.toList_repr
  | negSucc n =>
    rw [if_pos (Int.negSucc_lt_zero n)]
    show ("-" ++ Nat.repr (n + 1)).toList = _
    rw [String.toList_append, Nat.toList_repr]
    rfl

/-- **The text of an integer is a numeral.** -/
theorem isNumeral_int (i : Int) : IsNumeral (toString i).toList := by
  rw [toList_toString_int]
  apply isNumeral_whole _ (whole_digits i.natAbs)
  split
  · exact Or.inr rfl
  · exact Or.inl rfl

/-! ## §2. Doubles. -/

/-- The shortest digits begin with another one than zero, except for zero itself. -/
structure Leading (ds : List Char) (k : Int) : Prop where
  whole : Whole ds
  zero : ds = ['0'] → k = 1

/-- Digits put after others that may stand before a point may stand there too. -/
theorem Leading.append {ds : List Char} {k : Int} (h : Leading ds k) {more : List Char}
    (hmore : ∀ c ∈ more, isAsciiDigit c = true) (hk : more ≠ [] → k ≠ 1) : Whole (ds ++ more) := by
  by_cases hnil : more = []
  · subst hnil
    rw [List.append_nil]
    exact h.whole
  · obtain ⟨hwhole, hzero⟩ := h
    cases hwhole with
    | zero => exact absurd (hzero rfl) (hk hnil)
    | @digits c cs hfirst hdigits =>
      refine .digits hfirst ⟨by simp, fun d (hd : d ∈ c :: cs ++ more) => ?_⟩
      rcases List.mem_append.mp hd with hd | hd
      · exact hdigits.ascii d hd
      · exact hmore d hd

theorem Whole.digits_of {ds : List Char} (h : Whole ds) : Digits ds := by
  cases h with
  | zero => exact ⟨by simp, by simp [isAsciiDigit]⟩
  | digits _ hdigits => exact hdigits

theorem isAsciiDigit_of_replicate {n : Nat} : ∀ c ∈ List.replicate n '0', isAsciiDigit c = true := by
  intro c hc
  rw [(List.mem_replicate.mp hc).2]
  rfl

/-- The first digits of some are some, if they are not none. -/
theorem Whole.take {ds : List Char} (h : Whole ds) {n : Nat} (hn : 0 < n) : Whole (ds.take n) := by
  obtain ⟨m, rfl⟩ := Nat.exists_eq_succ_of_ne_zero hn.ne'
  cases h with
  | zero =>
    rw [List.take_succ_cons, List.take_nil]
    exact .zero
  | @digits c cs hfirst hdigits =>
    rw [List.take_succ_cons]
    refine .digits hfirst ⟨by simp, fun d hd => hdigits.ascii d ?_⟩
    rw [← List.take_succ_cons] at hd
    exact List.mem_of_mem_take hd

theorem isNumeral_point {sign whole fraction : List Char} (hsign : sign = [] ∨ sign = ['-'])
    (hwhole : Whole whole) (hfraction : Digits fraction) :
    IsNumeral (sign ++ (whole ++ '.' :: fraction)) := by
  have hnumeral := IsNumeral.intro hsign hwhole (.point hfraction) .none
  rwa [List.append_nil] at hnumeral

/-- **Every layout of the shortest digits is a numeral.** -/
theorem isNumeral_layout {ds : List Char} {k : Int} (h : Leading ds k) {sign : List Char}
    (hsign : sign = [] ∨ sign = ['-']) : IsNumeral (sign ++ layout ds k) := by
  have hds : Digits ds := h.whole.digits_of
  unfold layout
  split
  next hpositional =>
    split
    next hbefore =>
      -- the point stands before the digits
      refine isNumeral_point hsign .zero ⟨?_, fun c hc => ?_⟩
      · exact fun hnil => hds.nonempty (List.append_eq_nil_iff.mp hnil).2
      · rcases List.mem_append.mp hc with hc | hc
        · exact isAsciiDigit_of_replicate c hc
        · exact hds.ascii c hc
    next hafter =>
      split
      next hlong =>
        -- it stands after them, and zeros fill the places between
        refine isNumeral_point hsign (h.append isAsciiDigit_of_replicate fun hne hk => ?_)
          (digits_digits 0)
        have hpositive : 0 < ds.length := List.length_pos_iff.mpr hds.nonempty
        have hnone : k.toNat - ds.length = 0 := by omega
        rw [hnone] at hne
        exact hne rfl
      next hshort =>
        refine isNumeral_point hsign (h.whole.take (by omega))
          ⟨?_, fun c hc => hds.ascii c (List.mem_of_mem_drop hc)⟩
        rw [Ne, List.drop_eq_nil_iff]
        omega
  next hscientific =>
    have hexponent : Exponent ('e' :: (if k - 1 < 0 then '-' else '+')
        :: paddedDigits 2 (k - 1).natAbs) := by
      refine .signed (Or.inl rfl) ?_ (digits_paddedDigits 2 _)
      split
      · exact Or.inl rfl
      · exact Or.inr rfl
    cases ds with
    | nil => exact absurd rfl hds.nonempty
    | cons d rest =>
      have hfirst : Whole [d] := h.whole.take (n := 1) (by decide)
      cases rest with
      | nil => exact IsNumeral.intro hsign hfirst .none hexponent
      | cons d' rest =>
        have hrest : Digits (d' :: rest) :=
          ⟨by simp, fun c hc => hds.ascii c (List.mem_cons_of_mem d hc)⟩
        exact IsNumeral.intro hsign hfirst (.point hrest) hexponent

/-! ## §3. The shortest digits. -/

theorem dyadicRatio_pos (e : Int) : 0 < (Number.dyadicRatio 1 e).1 := by
  unfold Number.dyadicRatio
  split
  · exact Nat.one_pos
  · rw [Nat.one_mul]
    exact twoTo_pos _

/-- Zero does not lie in the interval of another number. -/
theorem holds_zero {i : Interval} (hlow : 0 < i.low) (power : Int) : i.holds 0 power = false := by
  unfold Interval.holds
  have hbound : ∀ den, 0 < den → 0 < i.low * den := fun den hden => Nat.mul_pos hlow hden
  split
  next num den heq =>
    have hzero : num = 0 ∧ 0 < den := by
      split at heq
      · cases heq
        exact ⟨rfl, tenTo_pos _⟩
      · cases heq
        exact ⟨Nat.zero_mul _, Nat.one_pos⟩
    have := hbound den hzero.2
    rw [hzero.1, Nat.zero_mul]
    dsimp only
    split
    · apply decide_eq_false
      omega
    · apply decide_eq_false
      omega

/-- Of two candidates one that passes is chosen. -/
theorem passes_of_choice {p : Nat → Bool} {a b n : Nat}
    (h : (if p a then some a else if p b then some b else none) = some n) : p n = true := by
  split at h
  next ha =>
    cases h
    exact ha
  next =>
    split at h
    next hb =>
      cases h
      exact hb
    next => cases h

theorem nearest?_ne_zero {i : Interval} (hlow : 0 < i.low) {power : Int} {n : Nat}
    (h : i.nearest? power = some n) : n ≠ 0 := by
  have hholds : i.holds n power = true := by
    unfold Interval.nearest? at h
    split at h
    next => exact passes_of_choice (p := fun n => i.holds n power) h
  intro hzero
  rw [hzero, holds_zero hlow] at hholds
  cases hholds

theorem search_ne_zero {i : Interval} (hlow : 0 < i.low) (hmid : 0 < i.mid) (count : Nat)
    (power : Int) : (i.search count power).1 ≠ 0 := by
  induction count generalizing power with
  | zero => exact hmid.ne'
  | succ count ih =>
    rw [Interval.search]
    split
    next n hn => exact nearest?_ne_zero hlow hn
    next => exact ih (power - 1)

/-- Zeros that are stripped from the end of digits leave their beginning. -/
theorem whole_stripped {n : Nat} (hn : n ≠ 0) :
    Whole ((digits n).reverse.dropWhile (· = '0')).reverse ∧
      ((digits n).reverse.dropWhile (· = '0')).reverse ≠ ['0'] := by
  obtain ⟨c, cs, hcs, hc⟩ := exists_first_digit hn
  have hdigits := digits_digits n
  rw [hcs] at hdigits ⊢
  have hkept : ((c :: cs).reverse.dropWhile (· = '0')).reverse
      = c :: (cs.reverse.dropWhile (· = '0')).reverse := by
    rw [List.reverse_cons, List.dropWhile_append]
    split
    next hnil =>
      rw [List.dropWhile_cons_of_neg (by simpa using hc), List.isEmpty_iff.mp hnil]
      rfl
    next => rw [List.reverse_append]; rfl
  rw [hkept]
  refine ⟨.digits hc ⟨by simp, fun d hd => ?_⟩, fun heq => hc (List.cons.inj heq).1⟩
  rcases List.mem_cons.mp hd with rfl | hd
  · exact hdigits.ascii d (List.mem_cons_self ..)
  · have hmem : d ∈ cs := List.mem_reverse.mp ((List.dropWhile_sublist _).subset
      (List.mem_reverse.mp hd))
    exact hdigits.ascii d (List.mem_cons_of_mem c hmem)

/-- The shortest digits of a number begin with another one than zero, except for zero itself. -/
theorem leading_shortest (d : Number.Dyadic) : Leading d.shortest.1 d.shortest.2 := by
  unfold Number.Dyadic.shortest
  split
  next => exact ⟨.zero, fun _ => rfl⟩
  next hmantissa =>
    have hlow : 0 < d.interval.low := by
      unfold Number.Dyadic.interval
      refine Nat.mul_pos ?_ (dyadicRatio_pos _)
      split <;> omega
    have hmid : 0 < d.interval.mid := by
      unfold Number.Dyadic.interval
      exact Nat.mul_pos (by omega) (dyadicRatio_pos _)
    obtain ⟨hwhole, hzero⟩ := whole_stripped (search_ne_zero hlow hmid 18
      (Number.decimalExponent d.interval.mid d.interval.den - 1))
    exact ⟨hwhole, fun heq => absurd heq hzero⟩

/-- **The text of a finite double is a numeral.** -/
theorem isNumeral_float {x : Float} {d : Number.Dyadic} (hx : Number.parts x = .finite d) :
    IsNumeral (floatText x) := by
  have htext : floatText x
      = (if d.negative then ['-'] else []) ++ layout d.shortest.1 d.shortest.2 := by
    unfold floatText Number.shortest
    rw [hx]
    dsimp only
    rw [String.toList_ofList]
    split <;> rfl
  rw [htext]
  apply isNumeral_layout (leading_shortest d)
  split
  · exact Or.inr rfl
  · exact Or.inl rfl

/-- The text of any double stands for a number. -/
theorem isNumber_float (x : Float) : IsNumber (floatText x) := by
  cases hx : Number.parts x with
  | finite d => exact .numeral (isNumeral_float hx)
  | infinite negative =>
    refine .special ?_
    rw [floatText, hx]
    cases negative
    · exact List.mem_cons_of_mem _ (List.mem_cons_self ..)
    · exact List.mem_cons_of_mem _ (List.mem_cons_of_mem _ (List.mem_cons_self ..))
  | notANumber =>
    refine .special ?_
    rw [floatText, hx]
    exact List.mem_cons_self ..

/-! ## §4. Reading integers. -/

/-- Digits are read as the number they are written for. -/
theorem digitsValue_digits (n : Nat) : digitsValue (digits n) = n := by
  have hstep : (fun n (c : Char) => n * 10 + (c.toNat - 48))
      = fun n (c : Char) => 10 * n + (c.toNat - '0'.toNat) := by
    funext n c
    rw [Nat.mul_comm]
    rfl
  unfold digitsValue
  rw [hstep]
  exact Nat.ofDigitChars_ten_toDigits

theorem number?_digits (negative : Bool) {n : Nat}
    (hshort : (digits n).length ≤ Number.maxIntegerDigits) :
    number? negative (digits n)
      = some (.ok (.int (if negative then -(n : Int) else n)), []) := by
  have hwhole := wholePart?_append (whole_digits n) stops_nil.noDigit
  rw [List.append_nil] at hwhole
  unfold number?
  rw [hwhole]
  show some (if Number.maxIntegerDigits < (digits n).length then _ else _, _) = _
  rw [if_neg (by omega), digitsValue_digits]

/-- **An integer is read back**, if it is not too long to be read at all. -/
theorem read_int {i : Int} (hshort : (digits i.natAbs).length ≤ Number.maxIntegerDigits) :
    read (toString i) = .ok (.int i) := by
  have hnumber := next?_number (.numeral (isNumeral_int i)) stops_nil
  rw [List.append_nil, String.ofList_toList] at hnumber
  have hnext : next? (toString i).toList = .ok (.scalar (.int i), []) := by
    rw [toList_toString_int]
    obtain ⟨c, cs, hcs, hc⟩ := (whole_digits i.natAbs).exists_cons
    have hread := number?_digits (decide (i < 0)) hshort
    have hvalue : (if decide (i < 0) then -(i.natAbs : Int) else i.natAbs) = i := by
      by_cases hneg : i < 0
      · rw [if_pos (decide_eq_true hneg)]
        omega
      · rw [if_neg (by simpa using hneg)]
        omega
    rw [hvalue, hcs] at hread
    rw [hcs]
    by_cases hneg : i < 0
    · rw [decide_eq_true hneg] at hread
      rw [if_pos hneg, List.singleton_append, next?_minus hc, hread]
      rfl
    · rw [decide_eq_false hneg] at hread
      rw [if_neg hneg, List.nil_append, next?_digit hc, hread]
      rfl
  rw [hnext] at hnumber
  cases hread : read (toString i) with
  | error e =>
    rw [hread] at hnumber
    cases hnumber
  | ok v =>
    rw [hread] at hnumber
    cases hnumber
    rfl

end ControlSurface.Json
