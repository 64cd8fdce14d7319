/-
  ControlSurface.Proofs.Number.Decimal
  ────────────────────────────────────
  The numbers that texts write.  Digits behind a point count as tenths, hundredths and so on, so zeros
  at the end count for nothing, and what is stripped from a fixed-point text does not change its
  number.

  Main results:
    * `abs_scaled_sub_le` — a number in units of a decimal place is rounded by half a unit at most.
    * `decimal_plainFloat` — the plain text of a double writes the double rounded to its decimals.
    * `decimal_plainFloat_near` — which is half a unit of the last decimal away at most.
    * `decimal_toString` — the text of a whole number writes that number.
    * `exists_rational?_roundTo` — a number up to one stays finite where it is rounded to some decimals.
-/
import ControlSurface.Proofs.Number.Exact

namespace ControlSurface.Number

open ControlSurface.Text

/-! ## §1. Reading a decimal. -/

/-- The natural number that a run of digits writes. -/
def natural (ds : List Char) : ℕ := Nat.ofDigitChars 10 ds 0

/-- The number that digits write, maybe with a point among them. -/
def unsignedDecimal (cs : List Char) : ℚ :=
  let whole := cs.takeWhile (· ≠ '.')
  let fraction := cs.drop (whole.length + 1)
  natural (whole ++ fraction) / 10 ^ fraction.length

/-- The number that a decimal writes. -/
def decimal : List Char → ℚ
  | '-' :: cs => -unsignedDecimal cs
  | cs => unsignedDecimal cs

/-- Digits go on until a point. -/
theorem before_point {ds : List Char} (h : '.' ∉ ds) :
    ∀ c ∈ ds, decide (c ≠ '.') = true := by
  intro c hc
  refine decide_eq_true ?_
  rintro rfl
  exact h hc

theorem unsignedDecimal_whole {ds : List Char} (h : '.' ∉ ds) :
    unsignedDecimal ds = natural ds := by
  rw [unsignedDecimal, List.takeWhile_eq_self_iff.mpr (before_point h),
    List.drop_of_length_le (Nat.le_succ _), List.append_nil, List.length_nil, pow_zero, div_one]

theorem unsignedDecimal_pointed {ds : List Char} (h : '.' ∉ ds) (fs : List Char) :
    unsignedDecimal (ds ++ '.' :: fs) = natural (ds ++ fs) / 10 ^ fs.length := by
  have htake : (ds ++ '.' :: fs).takeWhile (· ≠ '.') = ds := by
    rw [List.takeWhile_append_of_pos (before_point h), List.takeWhile_cons_of_neg (by decide),
      List.append_nil]
  have hdrop : (ds ++ '.' :: fs).drop (ds.length + 1) = fs := by
    rw [List.drop_append, List.drop_of_length_le (Nat.le_succ _), Nat.add_sub_cancel_left]
    rfl
  rw [unsignedDecimal, htake, hdrop]

theorem decimal_unsigned {cs : List Char} (h : ∀ rest, cs ≠ '-' :: rest) :
    decimal cs = unsignedDecimal cs := by
  cases cs with
  | nil => rfl
  | cons c cs =>
    rw [decimal]
    exact h

/-! ## §2. Digits. -/

theorem natural_append (a b : List Char) :
    natural (a ++ b) = natural a * 10 ^ b.length + natural b := by
  rw [natural, Nat.ofDigitChars_append, Nat.ofDigitChars_eq_ofDigitChars_zero, Nat.mul_comm]
  rfl

theorem natural_zeros (k : ℕ) : natural (List.replicate k '0') = 0 := by
  rw [natural, Nat.ofDigitChars_replicate_zero, Nat.mul_zero]

theorem natural_digits (n : ℕ) : natural (digits n) = n := Nat.ofDigitChars_ten_toDigits

theorem natural_paddedDigits (width n : ℕ) : natural (paddedDigits width n) = n := by
  rw [paddedDigits, natural_append, natural_zeros, natural_digits, Nat.zero_mul, Nat.zero_add]

theorem length_paddedDigits {width n : ℕ} (hwidth : 0 < width) (h : n < tenTo width) :
    (paddedDigits width n).length = width := by
  have hlength : (digits n).length ≤ width := (Nat.length_toDigits_le_iff (by decide) hwidth).mpr h
  rw [paddedDigits, List.length_append, List.length_replicate]
  omega

theorem Digits.minus_not_mem {ds : List Char} (h : Digits ds) : '-' ∉ ds :=
  fun hmem => absurd (h.ascii '-' hmem) (by decide)

/-! ## §3. Rounding to a decimal place. -/

/-- A quotient is rounded by a half at most. -/
theorem abs_roundQuotient_sub_le (n : ℕ) {den : ℕ} (hden : 0 < den) :
    |(roundQuotient n den : ℚ) - n / den| ≤ 1 / 2 := by
  have hpos : (0 : ℚ) < den := by exact_mod_cast hden
  have hsplit : (n : ℚ) = den * (n / den : ℕ) + (n % den : ℕ) := by
    exact_mod_cast (Nat.div_add_mod n den).symm
  have hquotient : (n : ℚ) / den = (n / den : ℕ) + (n % den : ℕ) / den := by
    rw [hsplit, add_div, mul_div_cancel_left₀ _ hpos.ne']
  have hrest : (n % den : ℕ) / (den : ℚ) * den = (n % den : ℕ) := div_mul_cancel₀ _ hpos.ne'
  have hlow : 0 ≤ (n % den : ℕ) / (den : ℚ) := by positivity
  have hlt : (n % den : ℕ) / (den : ℚ) < 1 := by
    rw [div_lt_one hpos]
    exact_mod_cast Nat.mod_lt n hden
  have hdown : 2 * (n % den) ≤ den → (n % den : ℕ) / (den : ℚ) ≤ 1 / 2 := fun hle => by
    rw [div_le_div_iff₀ hpos two_pos]
    have : (2 : ℚ) * (n % den : ℕ) ≤ den := by exact_mod_cast hle
    linarith
  have hup : den ≤ 2 * (n % den) → 1 / 2 ≤ (n % den : ℕ) / (den : ℚ) := fun hge => by
    rw [div_le_div_iff₀ two_pos hpos]
    have : (den : ℚ) ≤ 2 * (n % den : ℕ) := by exact_mod_cast hge
    linarith
  rw [hquotient, abs_le, roundQuotient]
  split_ifs with hless heven
  · have := hdown hless.le
    constructor <;> linarith
  · have := hdown heven.le
    constructor <;> linarith
  · have := hup (by omega)
    push_cast
    constructor <;> linarith
  · have := hup (by omega)
    push_cast
    constructor <;> linarith

/-- A quotient that is no more than half above an even number is rounded to that number at most. -/
theorem roundQuotient_le {n den k : ℕ} (hden : 0 < den) (heven : k % 2 = 0)
    (h : 2 * n ≤ (2 * k + 1) * den) : roundQuotient n den ≤ k := by
  have hsplit := Nat.div_add_mod n den
  have hmod := Nat.mod_lt n hden
  have hle : n / den ≤ k := by
    refine Nat.le_of_lt_succ ((Nat.div_lt_iff_lt_mul hden).mpr ?_)
    have : (2 * k + 1) * den < 2 * ((k + 1) * den) := by nlinarith
    show n < (k + 1) * den
    omega
  rw [roundQuotient]
  rcases lt_or_eq_of_le hle with hlt | heq
  · split_ifs <;> omega
  · -- the remainder is half of the denominator at most
    have hrest : 2 * (n % den) ≤ den := by
      rw [← heq] at h
      nlinarith
    split_ifs <;> omega

/-- A quotient is rounded to a number below it at least. -/
theorem le_roundQuotient {n den k : ℕ} (hden : 0 < den) (h : k * den ≤ n) :
    k ≤ roundQuotient n den := by
  have hle : k ≤ n / den := (Nat.le_div_iff_mul_le hden).mpr h
  rw [roundQuotient]
  split_ifs <;> omega

theorem Dyadic.scaled_ratio (d : Dyadic) (places : ℕ) :
    ((d.ratio.1 * tenTo places : ℕ) : ℚ) / d.ratio.2 = d.magnitude * 10 ^ places := by
  have hten : ((tenTo places : ℕ) : ℚ) = 10 ^ places := by exact_mod_cast rfl
  rw [Nat.cast_mul, hten, mul_div_right_comm, d.ratio_eq, magnitude]

/-- **A number in units of a decimal place is rounded by half a unit at most.** -/
theorem Dyadic.abs_scaled_sub_le (d : Dyadic) (places : ℕ) :
    |(d.scaled places : ℚ) - d.magnitude * 10 ^ places| ≤ 1 / 2 := by
  rw [← d.scaled_ratio places]
  exact abs_roundQuotient_sub_le _ d.ratio_pos

/-- A number no more than half a unit above an even number of units is rounded to it at most. -/
theorem Dyadic.scaled_le {d : Dyadic} {places k : ℕ} (heven : k % 2 = 0)
    (h : d.magnitude * 10 ^ places ≤ k + 1 / 2) : d.scaled places ≤ k := by
  have hpos : (0 : ℚ) < d.ratio.2 := by exact_mod_cast d.ratio_pos
  rw [← d.scaled_ratio places, div_le_iff₀ hpos] at h
  refine roundQuotient_le d.ratio_pos heven ?_
  have : (2 : ℚ) * (d.ratio.1 * tenTo places : ℕ) ≤ (2 * k + 1) * d.ratio.2 := by linarith
  exact_mod_cast this

/-- A number of some units or more is rounded to that many at least. -/
theorem Dyadic.le_scaled {d : Dyadic} {places k : ℕ} (h : k ≤ d.magnitude * 10 ^ places) :
    k ≤ d.scaled places := by
  have hpos : (0 : ℚ) < d.ratio.2 := by exact_mod_cast d.ratio_pos
  rw [← d.scaled_ratio places, le_div_iff₀ hpos] at h
  exact le_roundQuotient d.ratio_pos (by exact_mod_cast h)

/-! ## §4. Fixed-point text. -/

/-- **A fixed-point text writes the number of its units.** -/
theorem unsignedDecimal_fixed {places : ℕ} (hplaces : 0 < places) (n : ℕ) :
    unsignedDecimal (pointed places n) = n / 10 ^ places := by
  have hrest : n % tenTo places < tenTo places := Nat.mod_lt _ (tenTo_pos _)
  have hlength := length_paddedDigits hplaces hrest
  have hten : tenTo places = 10 ^ places := rfl
  rw [pointed, if_neg hplaces.ne', unsignedDecimal_pointed (digits_digits _).point_not_mem, hlength,
    natural_append, natural_digits, natural_paddedDigits, hlength, ← hten, Nat.div_add_mod']

/-- Text is what is left of it and the characters trimmed from its end. -/
theorem trimEndBy_append_zeros (cs : List Char) :
    ∃ k, cs = trimEndBy (· = '0') cs ++ List.replicate k '0' := by
  refine ⟨(cs.reverse.takeWhile (· = '0')).length, ?_⟩
  have hzeros : cs.reverse.takeWhile (· = '0')
      = List.replicate (cs.reverse.takeWhile (· = '0')).length '0' :=
    List.eq_replicate_of_mem fun c hc =>
      of_decide_eq_true (List.mem_takeWhile_imp (p := fun c => decide (c = '0')) hc)
  rw [trimEndBy, ← List.reverse_replicate, ← hzeros, ← List.reverse_append,
    List.takeWhile_append_dropWhile, List.reverse_reverse]

/-- Zeros behind the last decimal count for nothing. -/
theorem unsignedDecimal_bared {whole fraction : List Char} (hwhole : '.' ∉ whole)
    (hfraction : '.' ∉ fraction) :
    unsignedDecimal (bared (whole ++ '.' :: fraction))
      = unsignedDecimal (whole ++ '.' :: fraction) := by
  obtain ⟨k, hk⟩ := trimEndBy_append_zeros fraction
  have hten : (10 : ℚ) ^ k ≠ 0 := by positivity
  have hvalue : unsignedDecimal (whole ++ '.' :: fraction)
      = natural (whole ++ trimEndBy (· = '0') fraction)
        / 10 ^ (trimEndBy (· = '0') fraction).length := by
    rw [unsignedDecimal_pointed hwhole, hk, ← List.append_assoc, natural_append, natural_zeros,
      List.length_append, List.length_replicate, Nat.add_zero, pow_add, Nat.cast_mul, Nat.cast_pow]
    simp only [← hk]
    exact mul_div_mul_right _ _ hten
  rw [bared_pointed hwhole hfraction, hvalue]
  split
  next hnil =>
    rw [unsignedDecimal_whole hwhole, hnil, List.append_nil, List.length_nil, pow_zero,
      div_one]
  next => rw [unsignedDecimal_pointed hwhole]

/-- What is left of a fixed-point text writes the same number. -/
theorem unsignedDecimal_bared_pointed {places : ℕ} (hplaces : 0 < places) (n : ℕ) :
    unsignedDecimal (bared (pointed places n)) = n / 10 ^ places := by
  rw [← unsignedDecimal_fixed hplaces, pointed, if_neg hplaces.ne']
  exact unsignedDecimal_bared (digits_digits _).point_not_mem
    (digits_paddedDigits _ _).point_not_mem

theorem minus_not_mem_pointed (places n : ℕ) : '-' ∉ pointed places n := by
  rw [pointed]
  split
  next => exact (digits_digits n).minus_not_mem
  next =>
    rw [List.mem_append, List.mem_cons]
    rintro (hmem | hpoint | hmem)
    · exact (digits_digits _).minus_not_mem hmem
    · exact absurd hpoint (by decide)
    · exact (digits_paddedDigits _ _).minus_not_mem hmem

theorem bared_minus {places : ℕ} (hplaces : 0 < places) (n : ℕ) :
    bared ('-' :: pointed places n) = '-' :: bared (pointed places n) := by
  have hwhole := (digits_digits (n / tenTo places)).point_not_mem
  have hminus : '.' ∉ '-' :: digits (n / tenTo places) := by
    rw [List.mem_cons]
    rintro (hpoint | hmem)
    · exact absurd hpoint (by decide)
    · exact hwhole hmem
  have hfraction := (digits_paddedDigits places (n % tenTo places)).point_not_mem
  have hsigned := bared_pointed hminus hfraction
  rw [List.cons_append] at hsigned
  rw [pointed, if_neg hplaces.ne', hsigned, bared_pointed hwhole hfraction]
  split <;> rfl

/-! ## §5. The texts of numbers. -/

/-- **A stripped fixed-point text writes the number of its units with its sign.** -/
theorem decimal_stripped {places : ℕ} (hplaces : 0 < places) (negative : Bool) (n : ℕ) :
    decimal (stripped (if negative then '-' :: pointed places n else pointed places n))
      = (if negative then -1 else 1) * (n / 10 ^ places) := by
  have hvalue := unsignedDecimal_bared_pointed hplaces n
  have hzero : decimal ['0'] = 0 := by decide +kernel
  cases negative with
  | false =>
    have hunsigned : '-' ∉ bared (pointed places n) := fun hmem =>
      minus_not_mem_pointed places n
        ((trimEndBy_begins _ _).subset ((trimEndBy_begins _ _).subset hmem))
    rw [if_neg (by decide), if_neg (by decide), one_mul, ← hvalue, stripped_eq]
    split
    next hbare =>
      rcases hbare with hnil | hminus
      · rw [hnil, hzero]
        decide +kernel
      · exact absurd (hminus ▸ List.mem_cons_self ..) hunsigned
    next =>
      refine decimal_unsigned fun rest heq => ?_
      exact hunsigned (heq ▸ List.mem_cons_self ..)
  | true =>
    rw [if_pos rfl, if_pos rfl, neg_one_mul, ← hvalue, stripped_eq, bared_minus hplaces]
    split
    next hbare =>
      rcases hbare with hnil | hminus
      · cases hnil
      · rw [(List.cons.inj hminus).2, hzero]
        decide +kernel
    next => rfl

/-- A finite double rounded to some decimals. -/
def Dyadic.rounded (d : Dyadic) (places : ℕ) : ℚ :=
  (if d.negative then -1 else 1) * (d.scaled places / 10 ^ places)

/-- **The plain text of a double writes the double rounded to its decimals.** -/
theorem decimal_plainFloat {places : ℕ} (hplaces : 0 < places) {x : Float} {d : Dyadic}
    (hx : parts x = .finite d) : decimal (plainFloat places x).toList = d.rounded places := by
  rw [plainFloat, String.toList_ofList, fixed, hx]
  exact decimal_stripped hplaces d.negative (d.scaled places)

/-- **The plain text of a double writes a number near it**, half a unit of the last decimal away at
most. -/
theorem decimal_plainFloat_near {places : ℕ} (hplaces : 0 < places) {x : Float} {q : ℚ}
    (hx : rational? x = some q) :
    |decimal (plainFloat places x).toList - q| ≤ 1 / 2 / 10 ^ places := by
  obtain ⟨d, hd, rfl⟩ := rational?_eq_some_iff.mp hx
  have hten : (0 : ℚ) < 10 ^ places := by positivity
  have hunits : (d.scaled places : ℚ) / 10 ^ places - d.magnitude
      = (d.scaled places - d.magnitude * 10 ^ places) / 10 ^ places := by
    rw [sub_div, mul_div_cancel_right₀ _ hten.ne']
  have hnear : |(d.scaled places : ℚ) / 10 ^ places - d.magnitude| ≤ 1 / 2 / 10 ^ places := by
    rw [hunits, abs_div, abs_of_pos hten]
    exact div_le_div_of_nonneg_right (d.abs_scaled_sub_le places) hten.le
  rw [decimal_plainFloat hplaces hd, Dyadic.rounded, Dyadic.value, ← mul_sub, abs_mul]
  cases d.negative <;> simpa using hnear

/-- **The text of a whole number writes that number.** -/
theorem decimal_toString (i : ℤ) : decimal (toString i).toList = i := by
  have hwhole : ∀ n : ℕ, unsignedDecimal (digits n) = n := fun n => by
    rw [unsignedDecimal_whole (digits_digits n).point_not_mem, natural_digits]
  cases i with
  | ofNat n =>
    have htext : (toString (Int.ofNat n)).toList = digits n := String.toList_ofList
    rw [htext, decimal_unsigned, hwhole]
    · rfl
    · intro rest heq
      exact (digits_digits n).minus_not_mem (heq ▸ List.mem_cons_self ..)
  | negSucc n =>
    have htext : (toString (Int.negSucc n)).toList = '-' :: digits (n + 1) := by
      show ("-" ++ Nat.repr (n + 1)).toList = _
      rw [String.toList_append]
      exact congrArg ('-' :: ·) String.toList_ofList
    rw [htext, decimal, hwhole]
    push_cast
    rfl

/-! ## §6. Texts that are read. -/

/-- **A decimal without an exponent is a finite double**, unless it has very many digits. -/
theorem finite_ofDecimal (negative : Bool) {n : ℕ} (hn : n.log2 < 1000) {exponent : ℤ}
    (hexponent : exponent ≤ 0) : ∃ d, parts (ofDecimal negative n exponent) = .finite d := by
  have hzero : ∃ d, parts (ofBits negative 0) = .finite d :=
    finite_ofBits negative (Nat.mul_pos (by decide) (twoTo_pos 52))
  have hratio : ∀ {num den : ℕ} (x : Float), num.log2 < 1000 → 0 < den →
      ∃ d, parts ((ofRatio? negative num den).getD x) = .finite d := by
    intro num den x hnum hden
    have hsome : ofRatio? negative num den = some (ofBits negative (bitsOfRatio num den)) :=
      if_pos (bitsOfRatio_lt hnum hden)
    rw [hsome]
    exact finite_of_ofRatio? hsome
  unfold ofDecimal
  dsimp only
  generalize (if negative then negInfinity else infinity) = huge
  by_cases hn0 : n = 0
  · rw [if_pos hn0]
    exact hzero
  rw [if_neg hn0, if_neg fun h => absurd hexponent (Int.not_le.mpr h.2)]
  by_cases htiny : exponent < 0 ∧ (n.log2 : ℤ) + exponent * 3 + 2000 < 0
  · rw [if_pos htiny]
    exact hzero
  rw [if_neg htiny]
  by_cases hneg : exponent < 0
  · rw [if_pos hneg]
    exact hratio _ hn (tenTo_pos _)
  · have hnone : exponent.natAbs = 0 := by omega
    rw [if_neg hneg, hnone]
    exact hratio _ (by rwa [show tenTo 0 = 1 from rfl, Nat.mul_one]) one_pos

theorem digitValue?_lt {c : Char} {d : ℕ} (h : digitValue? c = some d) : d < 10 := by
  unfold digitValue? at h
  split at h
  next =>
    split at h
    next hrange =>
      cases h
      have hle : c.toNat ≤ '9'.toNat := hrange.2
      have hnine : '9'.toNat = 57 := rfl
      omega
    next => cases h
  next =>
    obtain ⟨z, hz, rfl⟩ := Option.map_eq_some_iff.mp h
    have hrange := List.find?_some hz
    simp only [decide_eq_true_eq] at hrange
    omega

/-- A run of digits is a number of no more digits, and the text behind it stands at the end. -/
theorem digitRun_bounds (cs : List Char) (value count : ℕ) :
    (digitRun cs value count).1 < (value + 1) * 10 ^ cs.length
      ∧ (digitRun cs value count).2.2 <:+ cs := by
  induction cs generalizing value count with
  | nil => exact ⟨by rw [digitRun, List.length_nil]; omega, List.suffix_refl []⟩
  | cons c cs ih =>
    rw [digitRun]
    split
    next d hd =>
      obtain ⟨hlt, hrest⟩ := ih (value * 10 + d) (count + 1)
      have hdigit := digitValue?_lt hd
      refine ⟨hlt.trans_le ?_, hrest.trans (List.suffix_cons c cs)⟩
      rw [List.length_cons, Nat.pow_succ', ← Nat.mul_assoc]
      exact Nat.mul_le_mul_right _ (by omega)
    next =>
      refine ⟨?_, List.suffix_refl _⟩
      calc value < value + 1 := Nat.lt_succ_self value
        _ ≤ (value + 1) * 10 ^ (c :: cs).length := Nat.le_mul_of_pos_right _ (by positivity)

theorem exponentPart_none {cs : List Char} (h : 'e' ∉ cs ∧ 'E' ∉ cs) : (exponentPart cs).1 = 0 := by
  cases cs with
  | nil => rfl
  | cons c cs =>
    have hc : ¬ (c = 'e' ∨ c = 'E') := by
      rintro (rfl | rfl)
      · exact h.1 (List.mem_cons_self ..)
      · exact h.2 (List.mem_cons_self ..)
    rw [exponentPart, if_neg hc]

/-- A decimal without an exponent writes digits behind its point at most. -/
theorem unsignedDecimal?_bounds {cs rest : List Char} {n : ℕ} {exponent : ℤ}
    (h : unsignedDecimal? cs = some (n, exponent, rest)) (hnone : 'e' ∉ cs ∧ 'E' ∉ cs) :
    n < 10 ^ (2 * cs.length) ∧ exponent ≤ 0 := by
  have hbehind : ∀ {more : List Char}, more <:+ cs → (exponentPart more).1 = 0 := fun hmore =>
    exponentPart_none ⟨fun he => hnone.1 (hmore.mem he), fun he => hnone.2 (hmore.mem he)⟩
  obtain ⟨hwhole, hrest⟩ := digitRun_bounds cs 0 0
  rw [Nat.zero_add, Nat.one_mul] at hwhole
  unfold unsignedDecimal? at h
  dsimp only at h
  split at h
  next more hpoint =>
    rw [hpoint] at hrest
    obtain ⟨hfraction, hend⟩ := digitRun_bounds more (digitRun cs 0 0).1 0
    have hmore : more <:+ cs := (List.suffix_cons _ more).trans hrest
    split at h
    next => cases h
    next =>
      cases h
      refine ⟨?_, ?_⟩
      · calc (digitRun more (digitRun cs 0 0).1 0).1
            < ((digitRun cs 0 0).1 + 1) * 10 ^ more.length := hfraction
          _ ≤ 10 ^ cs.length * 10 ^ cs.length :=
              Nat.mul_le_mul hwhole (Nat.pow_le_pow_right (by decide) hmore.length_le)
          _ = 10 ^ (2 * cs.length) := by rw [← Nat.pow_add, Nat.two_mul]
      · rw [hbehind (hend.trans hmore)]
        omega
  next =>
    split at h
    next => cases h
    next =>
      cases h
      refine ⟨hwhole.trans_le (Nat.pow_le_pow_right (by decide) (by omega)), ?_⟩
      rw [hbehind hrest]
      omega

/-- Whether a character may stand in a decimal without an exponent. -/
def InDecimal (c : Char) : Prop := isAsciiDigit c = true ∨ c = '.' ∨ c = '-'

theorem InDecimal.ne {c : Char} (h : InDecimal c) {d : Char}
    (hd : ¬ (isAsciiDigit d = true ∨ d = '.' ∨ d = '-')) : c ≠ d := by
  rintro rfl
  exact hd h

theorem InDecimal.asciiLower_eq {c : Char} (h : InDecimal c) : asciiLower c = c := by
  unfold asciiLower
  refine if_neg fun hcapital => ?_
  rcases h with h | rfl | rfl
  · have hrange : '0' ≤ c ∧ c ≤ '9' := of_decide_eq_true h
    have hlow : 65 ≤ c.toNat := hcapital.1
    have hhigh : c.toNat ≤ 57 := hrange.2
    omega
  · exact absurd hcapital (by decide)
  · exact absurd hcapital (by decide)

theorem sign_suffix (cs : List Char) : (sign cs).2 <:+ cs := by
  unfold sign
  split
  · exact List.suffix_cons ..
  · exact List.suffix_cons ..
  · exact List.suffix_refl _

theorem log2_le_of_lt_ten {n k : ℕ} (h : n < 10 ^ k) : n.log2 ≤ 4 * k := by
  rcases Nat.eq_zero_or_pos n with rfl | hpos
  · exact Nat.zero_le _
  refine ((Nat.log2_lt hpos.ne').mpr (h.trans_le ?_)).le
  rw [Nat.pow_mul]
  exact Nat.pow_le_pow_left (by decide) k

theorem trimBy_sublist (p : Char → Bool) (cs : List Char) : (trimBy p cs).Sublist cs :=
  (trimEndBy_begins p _).sublist.trans (List.dropWhile_suffix p).sublist

/-- **A short text of digits is read as a finite double**, if it is read at all. -/
theorem finite_of_readFloat? {t : List Char} (hchars : ∀ c ∈ t, InDecimal c)
    (hlength : t.length ≤ 100) {x : Float} (h : readFloat? t = some x) :
    ∃ d, parts x = .finite d := by
  have htrim := trimBy_sublist isMargin t
  have hjoin : joinDigits false (trimBy isMargin t) = some (trimBy isMargin t) :=
    joinDigits_eq (fun hmem => (hchars _ (htrim.subset hmem)).ne (by decide) rfl) _
  have hbody := sign_suffix (trimBy isMargin t)
  unfold readFloat? at h
  rw [hjoin, Option.bind_eq_bind, Option.bind_some] at h
  generalize sign (trimBy isMargin t) = signed at h hbody
  obtain ⟨negative, body⟩ := signed
  have hdecimal : ∀ c ∈ body, InDecimal c := fun c hc => hchars c (htrim.subset (hbody.mem hc))
  have hshort : body.length ≤ 100 := hbody.length_le.trans (htrim.length_le.trans hlength)
  have hlower : body.map asciiLower = body :=
    (List.map_congr_left fun c hc => (hdecimal c hc).asciiLower_eq).trans (List.map_id body)
  have hword : ∀ {c : Char} {word : List Char}, ¬ (isAsciiDigit c = true ∨ c = '.' ∨ c = '-') →
      String.ofList body ≠ String.ofList (c :: word) := by
    intro c word hc heq
    refine (hdecimal c ?_).ne hc rfl
    rw [String.ofList_injective heq]
    exact List.mem_cons_self ..
  have hinf : String.ofList body ≠ "inf" := hword (c := 'i') (by decide)
  have hinfinity : String.ofList body ≠ "infinity" := hword (c := 'i') (by decide)
  have hnan : String.ofList body ≠ "nan" := hword (c := 'n') (by decide)
  simp only [hlower, hinf, hinfinity, hnan, or_self, if_false] at h
  obtain ⟨⟨n, exponent, rest⟩, hread, h⟩ := Option.bind_eq_some_iff.mp h
  obtain ⟨hn, hexponent⟩ := unsignedDecimal?_bounds hread
    ⟨fun he => (hdecimal _ he).ne (by decide) rfl, fun he => (hdecimal _ he).ne (by decide) rfl⟩
  dsimp only at h
  split at h
  next =>
    cases h
    have hlog := log2_le_of_lt_ten hn
    exact finite_ofDecimal negative (by omega) hexponent
  next => cases h

theorem pointed_inDecimal (places n : ℕ) : ∀ c ∈ pointed places n, InDecimal c := by
  have hdigits : ∀ {ds : List Char}, Digits ds → ∀ c ∈ ds, InDecimal c :=
    fun hds c hc => Or.inl (hds.ascii c hc)
  unfold pointed
  split
  next => exact hdigits (digits_digits n)
  next =>
    intro c hc
    rcases List.mem_append.mp hc with hc | hc
    · exact hdigits (digits_digits _) c hc
    · rcases List.mem_cons.mp hc with rfl | hc
      · exact Or.inr (Or.inl rfl)
      · exact hdigits (digits_paddedDigits _ _) c hc

theorem length_pointed_le {places n : ℕ} (hplaces : 0 < places) (h : n ≤ tenTo places) :
    (pointed places n).length ≤ places + 2 := by
  have hrest : n % tenTo places < tenTo places := Nat.mod_lt _ (tenTo_pos _)
  have hwhole : (digits (n / tenTo places)).length ≤ 1 := by
    refine (Nat.length_toDigits_le_iff (by decide) one_pos).mpr ?_
    have hone : n / tenTo places ≤ 1 :=
      (Nat.div_le_div_right h).trans_eq (Nat.div_self (tenTo_pos places))
    omega
  rw [pointed, if_neg hplaces.ne', List.length_append, List.length_cons,
    length_paddedDigits hplaces hrest]
  omega

/-- **A number up to one, rounded to some decimals, is finite.** -/
theorem exists_rational?_roundTo {places : ℕ} (hplaces : 0 < places) (hfew : places ≤ 90)
    {x : Float} {q : ℚ} (hx : rational? x = some q) (hlow : -1 ≤ q) (hhigh : q ≤ 1) :
    ∃ r, rational? (roundTo places x) = some r := by
  obtain ⟨d, hd, rfl⟩ := rational?_eq_some_iff.mp hx
  have hmagnitude : d.magnitude ≤ 1 := by
    cases hsign : d.negative with
    | false => rwa [Dyadic.value_positive hsign] at hhigh
    | true =>
      rw [Dyadic.value_negative hsign] at hlow
      linarith
  have hscaled : d.scaled places ≤ tenTo places := by
    have hten : tenTo places = 10 ^ places := rfl
    refine Dyadic.scaled_le ?_ ?_
    · rw [hten, ← Nat.sub_add_cancel hplaces, Nat.pow_succ, Nat.mul_mod]
      rfl
    · rw [hten]
      push_cast
      have hpos : (0 : ℚ) < 10 ^ places := by positivity
      nlinarith
  have hshort := length_pointed_le hplaces hscaled
  have htext : (∀ c ∈ fixed places x, InDecimal c) ∧ (fixed places x).length ≤ 100 := by
    rw [fixed, hd]
    dsimp only
    split
    next =>
      refine ⟨fun c hc => ?_, by rw [List.length_cons]; omega⟩
      rcases List.mem_cons.mp hc with rfl | hc
      · exact Or.inr (Or.inr rfl)
      · exact pointed_inDecimal _ _ c hc
    next => exact ⟨pointed_inDecimal _ _, by omega⟩
  have hfinite : ∃ e, parts (roundTo places x) = .finite e := by
    rw [roundTo, hd]
    dsimp only
    cases hread : readFloat? (fixed places x) with
    | none => exact ⟨d, hd⟩
    | some y => exact finite_of_readFloat? htext.1 htext.2 hread
  obtain ⟨e, he⟩ := hfinite
  exact ⟨e.value, rational?_eq_some_iff.mpr ⟨e, he, rfl⟩⟩

end ControlSurface.Number
