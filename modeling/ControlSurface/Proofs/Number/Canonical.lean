/-
  ControlSurface.Proofs.Number.Canonical
  ──────────────────────────────────────
  The one text of a number.  A decimal in canonical form has no zero that could be left out, so two
  of them that write the same number are the same, as long as no zero has a sign
  (`canonical_unique`).  Plain texts are canonical: integers because their digits begin with no
  needless zero, and doubles because of a fixed-point text only zeros behind the point are stripped
  (`canonical_stripped`).

  Main results:
    * `canonical_unique` — a number has one canonical text.
    * `Value.plainTo_canonical` — every plain text is canonical; that of an integer writes the
      integer, and that of a finite double writes the number of its fixed-point text.
-/
import ControlSurface.Proofs.Json.Numeral
import ControlSurface.Proofs.Number.Decimal

namespace ControlSurface.Number

open ControlSurface.Text
open ControlSurface.Json (Whole whole_digits toList_toString_int)

/-! ## §1. Runs of digits. -/

theorem digit_bounds {c : Char} (h : isAsciiDigit c = true) : 48 ≤ c.toNat ∧ c.toNat ≤ 57 :=
  of_decide_eq_true h

theorem natural_cons (c : Char) (ds : List Char) :
    natural (c :: ds) = (c.toNat - 48) * 10 ^ ds.length + natural ds := by
  rw [natural, Nat.ofDigitChars_cons, Nat.ofDigitChars_eq_ofDigitChars_zero, Nat.mul_comm,
    Nat.mul_zero, Nat.zero_add]
  rfl

theorem natural_lt {ds : List Char} (h : ∀ c ∈ ds, isAsciiDigit c = true) :
    natural ds < 10 ^ ds.length := by
  induction ds with
  | nil => exact Nat.one_pos
  | cons c ds ih =>
    have hrest := ih fun d hd => h d (List.mem_cons_of_mem c hd)
    have hc : c.toNat - 48 ≤ 9 := by
      have := digit_bounds (h c (List.mem_cons_self ..))
      omega
    have hfirst := Nat.mul_le_mul_right (10 ^ ds.length) hc
    rw [natural_cons, List.length_cons, pow_succ]
    omega

/-- A number has one quotient and one remainder. -/
theorem quotient_unique {a b c d p : ℕ} (hb : b < p) (hd : d < p) (h : a * p + b = c * p + d) :
    a = c ∧ b = d := by
  have hp : 0 < p := by omega
  have hquotient := congrArg (· / p) h
  have hremainder := congrArg (· % p) h
  simp only [Nat.mul_add_mod_self_right, Nat.mod_eq_of_lt hb, Nat.mod_eq_of_lt hd] at hremainder
  simp only [Nat.mul_comm _ p, Nat.mul_add_div hp, Nat.div_eq_of_lt hb, Nat.div_eq_of_lt hd,
    Nat.add_zero] at hquotient
  exact ⟨hquotient, hremainder⟩

/-- As many digits of the same number are the same digits. -/
theorem eq_of_natural {ds es : List Char} (hds : ∀ c ∈ ds, isAsciiDigit c = true)
    (hes : ∀ c ∈ es, isAsciiDigit c = true) (hlength : ds.length = es.length)
    (h : natural ds = natural es) : ds = es := by
  induction ds generalizing es with
  | nil => exact (List.length_eq_zero_iff.mp hlength.symm).symm
  | cons c ds ih =>
    cases es with
    | nil => cases hlength
    | cons d es =>
      obtain ⟨hc, hds⟩ := List.forall_mem_cons.mp hds
      obtain ⟨hd, hes⟩ := List.forall_mem_cons.mp hes
      have hsame : ds.length = es.length := Nat.succ.inj hlength
      have hltds := natural_lt hds
      rw [natural_cons, natural_cons, hsame] at h
      rw [hsame] at hltds
      -- the first digit is the number over the power, and the others are the remainder
      obtain ⟨hfirst, hrest⟩ := quotient_unique hltds (natural_lt hes) h
      have hcode : c.toNat = d.toNat := by
        have := digit_bounds hc
        have := digit_bounds hd
        omega
      rw [ih hds hes hsame hrest, Char.toNat_inj.mp hcode]

/-- A number is no smaller than the power of its first digit, if that is no zero. -/
theorem le_natural {c : Char} (hfirst : c ≠ '0') (hc : isAsciiDigit c = true) (cs : List Char) :
    10 ^ cs.length ≤ natural (c :: cs) := by
  have hcode : c.toNat ≠ 48 := fun hcode => hfirst (Char.toNat_inj.mp hcode)
  have hdigit : 1 ≤ c.toNat - 48 := by
    have := digit_bounds hc
    omega
  have hpower := Nat.mul_le_mul_right (10 ^ cs.length) hdigit
  rw [natural_cons]
  omega

/-- Whole parts of the same number are the same. -/
theorem whole_unique {ds es : List Char} (hds : Whole ds) (hes : Whole es)
    (h : natural ds = natural es) : ds = es := by
  have hzero : natural ['0'] = 0 := rfl
  cases hds with
  | zero =>
    cases hes with
    | zero => rfl
    | @digits c cs hfirst hdigits =>
      have hpos : 0 < 10 ^ cs.length := by positivity
      have := le_natural hfirst (hdigits.ascii c (List.mem_cons_self ..)) cs
      omega
  | @digits c cs hfirst hdigits =>
    have hle := le_natural hfirst (hdigits.ascii c (List.mem_cons_self ..)) cs
    have hpos : 0 < 10 ^ cs.length := by positivity
    cases hes with
    | zero => omega
    | @digits d es hfirst' hdigits' =>
      have hle' := le_natural hfirst' (hdigits'.ascii d (List.mem_cons_self ..)) es
      have hlt := natural_lt hdigits.ascii
      have hlt' := natural_lt hdigits'.ascii
      -- the number lies between the same powers of ten, so there are as many digits
      rw [h] at hle hlt
      have hlength : cs.length = es.length := by
        have := (Nat.pow_lt_pow_iff_right (by decide : 1 < 10)).mp (hle.trans_lt hlt')
        have := (Nat.pow_lt_pow_iff_right (by decide : 1 < 10)).mp (hle'.trans_lt hlt)
        simp only [List.length_cons] at *
        omega
      exact eq_of_natural hdigits.ascii hdigits'.ascii (congrArg Nat.succ hlength) h

/-! ## §2. Canonical decimals. -/

/-- An unsigned decimal without a zero that could be left out: `0` or digits that begin with another
one, and maybe a point and digits that end with another one. -/
inductive UnsignedCanonical : List Char → Prop where
  | whole {ds : List Char} (hds : Whole ds) : UnsignedCanonical ds
  | pointed {ds fs : List Char} (hds : Whole ds) (hfs : Digits fs)
      (hlast : fs.getLast? ≠ some '0') : UnsignedCanonical (ds ++ '.' :: fs)

/-- A decimal without a zero that could be left out. -/
inductive CanonicalForm : List Char → Prop where
  | positive {cs : List Char} (h : UnsignedCanonical cs) : CanonicalForm cs
  | negative {cs : List Char} (h : UnsignedCanonical cs) : CanonicalForm ('-' :: cs)

/-- Digits behind a point, perhaps none, of which the last is no zero. -/
structure Fraction (fs : List Char) : Prop where
  ascii : ∀ c ∈ fs, isAsciiDigit c = true
  last : fs.getLast? ≠ some '0'

/-- A whole part with digits behind it; the point stands only before digits. -/
def written (whole fraction : List Char) : List Char :=
  if fraction = [] then whole else whole ++ '.' :: fraction

theorem unsignedDecimal_written {whole : List Char} (h : Whole whole) (fraction : List Char) :
    unsignedDecimal (written whole fraction)
      = natural (whole ++ fraction) / 10 ^ fraction.length := by
  have hpoint := h.digits_of.point_not_mem
  rw [written]
  split
  next hnil =>
    rw [unsignedDecimal_whole hpoint, hnil, List.append_nil, List.length_nil, pow_zero, div_one]
  next => exact unsignedDecimal_pointed hpoint fraction

theorem UnsignedCanonical.exists_written {cs : List Char} (h : UnsignedCanonical cs) :
    ∃ whole fraction, Whole whole ∧ Fraction fraction ∧ cs = written whole fraction := by
  cases h with
  | whole hds => exact ⟨cs, [], hds, ⟨by simp, by simp⟩, rfl⟩
  | @pointed ds fs hds hfs hlast =>
    exact ⟨ds, fs, hds, ⟨hfs.ascii, hlast⟩, (if_neg hfs.nonempty).symm⟩

/-- **A whole part and a fraction are fixed by their number.** -/
theorem written_unique {whole whole' fraction fraction' : List Char} (hwhole : Whole whole)
    (hwhole' : Whole whole') (hfraction : Fraction fraction) (hfraction' : Fraction fraction')
    (h : (natural (whole ++ fraction) : ℚ) / 10 ^ fraction.length
      = natural (whole' ++ fraction') / 10 ^ fraction'.length) :
    whole = whole' ∧ fraction = fraction' := by
  wlog hle : fraction.length ≤ fraction'.length generalizing whole whole' fraction fraction'
  · obtain ⟨h1, h2⟩ := this hwhole' hwhole hfraction' hfraction h.symm (by omega)
    exact ⟨h1.symm, h2.symm⟩
  obtain ⟨k, hk⟩ := Nat.exists_eq_add_of_le hle
  -- zeros behind the shorter fraction make both as long
  have hlength : (fraction ++ List.replicate k '0').length = fraction'.length := by
    rw [List.length_append, List.length_replicate, hk]
  have hnumber : natural (whole ++ (fraction ++ List.replicate k '0'))
      = natural (whole' ++ fraction') := by
    rw [hk, pow_add, div_eq_div_iff (by positivity) (by positivity)] at h
    have hcross : natural (whole ++ fraction) * 10 ^ k = natural (whole' ++ fraction') := by
      have hpos : (10 : ℚ) ^ fraction.length ≠ 0 := by positivity
      have hq : (natural (whole ++ fraction) * 10 ^ k : ℚ) = natural (whole' ++ fraction') :=
        mul_right_cancel₀ hpos (by linarith)
      exact_mod_cast hq
    rw [← List.append_assoc, natural_append, natural_zeros, List.length_replicate, Nat.add_zero,
      hcross]
  have hpadded : ∀ c ∈ fraction ++ List.replicate k '0', isAsciiDigit c = true := by
    intro c hc
    rcases List.mem_append.mp hc with hc | hc
    · exact hfraction.ascii c hc
    · rw [(List.mem_replicate.mp hc).2]
      rfl
  have hlt := natural_lt hpadded
  rw [natural_append whole, natural_append whole', hlength] at hnumber
  rw [hlength] at hlt
  obtain ⟨hsameWhole, hsame⟩ := quotient_unique hlt (natural_lt hfraction'.ascii) hnumber
  have hfractions := eq_of_natural hpadded hfraction'.ascii hlength hsame
  refine ⟨whole_unique hwhole hwhole' hsameWhole, ?_⟩
  -- the longer fraction ends in no zero, so none was put behind the shorter one
  cases k with
  | zero => rwa [List.replicate_zero, List.append_nil] at hfractions
  | succ k =>
    refine absurd ?_ hfraction'.last
    rw [← hfractions, List.replicate_succ', ← List.append_assoc, List.getLast?_concat]

theorem UnsignedCanonical.unique {cs ds : List Char} (hcs : UnsignedCanonical cs)
    (hds : UnsignedCanonical ds) (h : unsignedDecimal cs = unsignedDecimal ds) : cs = ds := by
  obtain ⟨whole, fraction, hwhole, hfraction, rfl⟩ := hcs.exists_written
  obtain ⟨whole', fraction', hwhole', hfraction', rfl⟩ := hds.exists_written
  rw [unsignedDecimal_written hwhole, unsignedDecimal_written hwhole'] at h
  obtain ⟨rfl, rfl⟩ := written_unique hwhole hwhole' hfraction hfraction' h
  rfl

theorem unsignedDecimal_nonneg (cs : List Char) : 0 ≤ unsignedDecimal cs := by
  rw [unsignedDecimal]
  positivity

/-- The text of an unsigned number does not begin with a minus. -/
theorem UnsignedCanonical.unsigned {cs : List Char} (h : UnsignedCanonical cs) :
    decimal cs = unsignedDecimal cs := by
  obtain ⟨whole, fraction, hwhole, -, rfl⟩ := h.exists_written
  refine decimal_unsigned fun rest heq => ?_
  have hdigits := hwhole.digits_of
  obtain ⟨c, tail, rfl⟩ := List.exists_cons_of_ne_nil hdigits.nonempty
  have hhead : (written (c :: tail) fraction).head? = some c := by
    rw [written]
    split <;> rfl
  rw [heq] at hhead
  cases hhead
  exact absurd (hdigits.ascii '-' (List.mem_cons_self ..)) (by decide)

/-- Only zero writes zero. -/
theorem UnsignedCanonical.decimal_pos {cs : List Char} (h : UnsignedCanonical cs)
    (hne : cs ≠ ['0']) : 0 < unsignedDecimal cs := by
  have hzero : unsignedDecimal ['0'] = 0 := by decide +kernel
  refine lt_of_le_of_ne (unsignedDecimal_nonneg cs) fun heq => hne ?_
  exact h.unique (.whole .zero) (by rw [hzero, heq])

/-- **A number has one canonical text**, if no zero has a sign. -/
theorem canonical_unique {cs ds : List Char} (hcs : CanonicalForm cs) (hds : CanonicalForm ds)
    (hcs0 : cs ≠ ['-', '0']) (hds0 : ds ≠ ['-', '0']) (h : decimal cs = decimal ds) : cs = ds := by
  have hsigns : ∀ {as bs : List Char}, UnsignedCanonical as → UnsignedCanonical bs →
      '-' :: as ≠ ['-', '0'] → decimal ('-' :: as) ≠ decimal bs := by
    intro as bs has hbs hne heq
    have hpos := has.decimal_pos fun hzero => hne (by rw [hzero])
    have hnonneg := unsignedDecimal_nonneg bs
    rw [hbs.unsigned, decimal] at heq
    linarith
  cases hcs with
  | positive hcs =>
    cases hds with
    | positive hds =>
      rw [hcs.unsigned, hds.unsigned] at h
      exact hcs.unique hds h
    | negative hds => exact absurd h.symm (hsigns hds hcs hds0)
  | negative hcs =>
    cases hds with
    | positive hds => exact absurd h (hsigns hcs hds hcs0)
    | negative hds =>
      rw [decimal, decimal] at h
      rw [hcs.unique hds (neg_injective h)]

/-! ## §3. Plain texts. -/

theorem canonical_toString (i : ℤ) : CanonicalForm (toString i).toList := by
  rw [toList_toString_int]
  split
  · exact .negative (.whole (whole_digits _))
  · exact .positive (.whole (whole_digits _))

/-- Digits without the zeros at their end do not end in one. -/
theorem fraction_trimEndBy {fs : List Char} (h : ∀ c ∈ fs, isAsciiDigit c = true) :
    Fraction (trimEndBy (· = '0') fs) := by
  refine ⟨fun c hc => h c ((trimEndBy_begins _ _).subset hc), ?_⟩
  rw [trimEndBy, List.getLast?_reverse]
  intro hlast
  have hnot := List.head?_dropWhile_not (fun c => decide (c = '0')) fs.reverse
  rw [hlast] at hnot
  exact absurd hnot (by decide)

/-- A fixed-point text without its zeros is canonical. -/
theorem canonical_bared {places : ℕ} (hplaces : 0 < places) (n : ℕ) :
    UnsignedCanonical (bared (pointed places n)) := by
  have hwhole := whole_digits (n / tenTo places)
  have hdigits := digits_paddedDigits places (n % tenTo places)
  have hfraction := fraction_trimEndBy hdigits.ascii
  rw [pointed, if_neg hplaces.ne', bared_pointed hwhole.digits_of.point_not_mem
    hdigits.point_not_mem]
  split
  next => exact .whole hwhole
  next hne => exact .pointed hwhole ⟨hne, hfraction.ascii⟩ hfraction.last

/-- What is left of a text is no zero with a sign. -/
theorem canonical_of_bared {cs : List Char} (h : CanonicalForm (bared cs)) :
    CanonicalForm (stripped cs) ∧ stripped cs ≠ ['-', '0'] := by
  rw [stripped_eq]
  split
  next => exact ⟨.positive (.whole .zero), by decide⟩
  next hbare => exact ⟨h, fun hzero => hbare (Or.inr hzero)⟩

/-- **A stripped fixed-point text is canonical.** -/
theorem canonical_stripped {places : ℕ} (hplaces : 0 < places) {x : Float} {d : Dyadic}
    (hx : parts x = .finite d) :
    CanonicalForm (stripped (fixed places x)) ∧ stripped (fixed places x) ≠ ['-', '0'] := by
  refine canonical_of_bared ?_
  rw [fixed, hx]
  show CanonicalForm (bared (if d.negative then '-' :: pointed places (d.scaled places)
    else pointed places (d.scaled places)))
  split
  next =>
    rw [bared_minus hplaces]
    exact .negative (canonical_bared hplaces _)
  next => exact .positive (canonical_bared hplaces _)

/-- A fixed-point text writes the double rounded to its decimals. -/
theorem decimal_fixed {places : ℕ} (hplaces : 0 < places) {x : Float} {d : Dyadic}
    (hx : parts x = .finite d) : decimal (fixed places x) = d.rounded places := by
  have hvalue := unsignedDecimal_fixed hplaces (d.scaled places)
  rw [fixed, hx]
  show decimal (if d.negative then '-' :: pointed places (d.scaled places)
    else pointed places (d.scaled places)) = _
  rw [Dyadic.rounded]
  split
  next => rw [decimal, hvalue, neg_one_mul]
  next =>
    rw [one_mul, ← hvalue]
    refine decimal_unsigned fun rest heq => minus_not_mem_pointed places (d.scaled places) ?_
    rw [heq]
    exact List.mem_cons_self ..

/-- A whole number is not rounded. -/
theorem rounded_whole {d : Dyadic} {i : ℤ} (h : d.value = i) (places : ℕ) :
    d.rounded places = i := by
  have hten : (0 : ℚ) < 10 ^ places := by positivity
  have hmagnitude : d.magnitude = i.natAbs := by
    have habs : |d.value| = d.magnitude := by
      rw [Dyadic.value, abs_mul, abs_of_nonneg d.magnitude_nonneg]
      split <;> simp
    rw [← habs, h, Nat.cast_natAbs, Int.cast_abs]
  -- whole units that are half a unit away at most are the same
  have hscaled : d.scaled places = i.natAbs * 10 ^ places := by
    have hnear := d.abs_scaled_sub_le places
    rw [hmagnitude, abs_le] at hnear
    have hlow : (i.natAbs * 10 ^ places : ℚ) < d.scaled places + 1 := by linarith
    have hhigh : (d.scaled places : ℚ) < i.natAbs * 10 ^ places + 1 := by linarith
    have : i.natAbs * 10 ^ places < d.scaled places + 1 := by exact_mod_cast hlow
    have : d.scaled places < i.natAbs * 10 ^ places + 1 := by exact_mod_cast hhigh
    omega
  rw [Dyadic.rounded, hscaled, Nat.cast_mul, Nat.cast_pow, Nat.cast_ofNat,
    mul_div_cancel_right₀ _ hten.ne', ← hmagnitude, ← h, Dyadic.value]

/-! ## §4. Values. -/

/-- A run of digits is read to its end. -/
theorem digitRun_digits {ds : List Char} (h : ∀ c ∈ ds, isAsciiDigit c = true) (value count : ℕ) :
    digitRun ds value count = (Nat.ofDigitChars 10 ds value, count + ds.length, []) := by
  induction ds generalizing value count with
  | nil => rfl
  | cons c ds ih =>
    obtain ⟨hc, hds⟩ := List.forall_mem_cons.mp h
    have hbounds := digit_bounds hc
    have hvalue : digitValue? c = some (c.toNat - 48) := by
      rw [digitValue?, if_pos (by omega), if_pos (of_decide_eq_true hc)]
    rw [digitRun, hvalue]
    show digitRun ds (value * 10 + (c.toNat - 48)) (count + 1) = _
    rw [ih hds, Nat.ofDigitChars_cons, Nat.mul_comm, List.length_cons, Nat.add_assoc,
      Nat.add_comm 1]
    rfl

end ControlSurface.Number

namespace ControlSurface.Value

open ControlSurface.Number
open ControlSurface.Json (toList_toString_int)

theorem places_int (n : ℕ) :
    (int n).places = if n ≤ maxPlaces then .ok n else .error .badValue := by
  have htext : (int n).toText.toList = digits n := String.toList_ofList
  have hrun := digitRun_digits (digits_digits n).ascii 0 0
  rw [digits, Nat.ofDigitChars_ten_toDigits, ← digits] at hrun
  rw [places]
  simp only [htext, hrun]
  split
  next hmany =>
    have hlt : maxPlaces < n := by simpa [(digits_digits n).nonempty] using hmany
    rw [if_neg (by omega)]
  next hfew =>
    have hle : n ≤ maxPlaces := by
      simp only [not_or, Nat.not_lt] at hfew
      exact hfew.2.2
    rw [if_pos hle]

/-- The fixed-point text of a double has the decimals asked for, if they can be asked for. -/
theorem fixed_float (x : Float) (n : ℕ) :
    (float x).fixed (int n)
      = if n ≤ maxPlaces then .ok (String.ofList (Number.fixed n x)) else .error .badValue := by
  show (do let n ← (int n).places; _) = _
  rw [places_int]
  split <;> rfl

theorem eq_of_fixed_float {x : Float} {n : ℕ} {text : String}
    (h : (float x).fixed (int n) = .ok text) : text.toList = Number.fixed n x := by
  rw [fixed_float] at h
  split at h
  next =>
    cases h
    exact String.toList_ofList
  next => cases h

/-- The fixed-point text of an integer is that of the double nearest to it. -/
theorem fixed_int {i : ℤ} {x : Float} (h : (int i).toFloat = .ok x) (decimals : Value) :
    (int i).fixed decimals = (float x).fixed decimals := by
  show (do
    let n ← decimals.places
    let y ← (int i).toFloat
    .ok (String.ofList (Number.fixed n y))) = _
  rw [h]
  rfl

/-- The plain text of a double is its fixed-point text, stripped. -/
theorem plainTo_of_fixed {x : Float} {decimals : Value} {text : String}
    (h : (float x).fixed decimals = .ok text) :
    (float x).plainTo decimals = .ok (String.ofList (stripped text.toList)) := by
  show (do
    let s ← (float x).fixed decimals
    .ok (String.ofList (stripped s.toList))) = _
  rw [h]
  rfl

/-- The one text of a number. -/
structure CanonicalText (text : String) (q : ℚ) : Prop where
  form : CanonicalForm text.toList
  unsigned : text ≠ "-0"
  number : decimal text.toList = q

theorem CanonicalText.unique {s t : String} {q : ℚ} (hs : CanonicalText s q)
    (ht : CanonicalText t q) : s = t := by
  have hzero : ∀ {u : String}, u ≠ "-0" → u.toList ≠ ['-', '0'] := fun hne heq =>
    hne (String.toList_inj.mp heq)
  exact String.toList_inj.mp (canonical_unique hs.form ht.form (hzero hs.unsigned)
    (hzero ht.unsigned) (hs.number.trans ht.number.symm))

/-- The plain text of an integer is its own. -/
theorem plainTo_int (i : ℤ) (decimals : Value) :
    (int i).plainTo decimals = .ok (toString i) := rfl

theorem canonicalText_toString (i : ℤ) : CanonicalText (toString i) i := by
  refine ⟨canonical_toString i, fun hzero => ?_, decimal_toString i⟩
  have hlist := congrArg String.toList hzero
  rw [toList_toString_int] at hlist
  split at hlist
  next hneg =>
    have hdigits : digits i.natAbs = ['0'] := (List.cons.inj hlist).2
    have hnat := natural_digits i.natAbs
    rw [hdigits] at hnat
    have : natural ['0'] = 0 := rfl
    omega
  next =>
    have hdigits : digits i.natAbs = ['-', '0'] := hlist
    have := (digits_digits i.natAbs).minus_not_mem
    rw [hdigits] at this
    simp at this

/-- The plain text of a finite double is the one text of the number that its fixed-point text
writes. -/
theorem exists_canonicalText {x : Float} {d : Number.Dyadic} (hx : parts x = .finite d) {places : ℕ}
    (hplaces : 0 < places) {fixedText : String}
    (h : (float x).fixed (int places) = .ok fixedText) :
    ∃ text, (float x).plainTo (int places) = .ok text
      ∧ CanonicalText text (decimal fixedText.toList) := by
  obtain ⟨hform, hzero⟩ := canonical_stripped hplaces hx
  have hdecimal := decimal_plainFloat hplaces hx
  rw [plainFloat, String.toList_ofList] at hdecimal
  refine ⟨_, plainTo_of_fixed h, ?_⟩
  rw [eq_of_fixed_float h]
  refine ⟨by rwa [String.toList_ofList], fun heq => hzero ?_, ?_⟩
  · rw [← String.toList_ofList (l := stripped _), heq]
    rfl
  · rw [String.toList_ofList, hdecimal, decimal_fixed hplaces hx]

/-- A typed number and the value that holds it have one plain text. -/
theorem plainTo_value (n : Num) {places : ℕ} (h : places ≤ maxPlaces) :
    n.value.plainTo (int places) = .ok (n.plain places) := by
  cases n with
  | int i => rfl
  | float x =>
    have hfixed : (float x).fixed (int places) = .ok (String.ofList (Number.fixed places x)) :=
      (fixed_float x places).trans (if_pos h)
    have hplain := plainTo_of_fixed hfixed
    rwa [String.toList_ofList] at hplain

/-- **Plain texts are canonical.**  That of an integer writes the integer itself, and so does its
fixed-point text if the double nearest to it is the integer.  A finite double with at least one
decimal has a plain text as soon as it has a fixed-point text, which it has for all decimals that
can be asked for; the two write the same number.  So doubles whose fixed-point texts write the same
number have the same plain text.  Where a number is typed its text is the same. -/
theorem plainTo_canonical :
    (∀ (i : ℤ) (decimals : Value),
      ∃ text, (int i).plainTo decimals = .ok text ∧ CanonicalText text i)
    ∧ (∀ (i : ℤ) (x : Float) (places : ℕ) (fixedText : String), 0 < places →
        (int i).toFloat = .ok x → rational? x = some (i : ℚ) →
        (int i).fixed (int places) = .ok fixedText → decimal fixedText.toList = i)
    ∧ (∀ (x : Float) (places : ℕ), (rational? x).isSome → 0 < places →
        (places ≤ maxPlaces → ∃ fixedText, (float x).fixed (int places) = .ok fixedText)
        ∧ ∀ fixedText, (float x).fixed (int places) = .ok fixedText →
            ∃ text, (float x).plainTo (int places) = .ok text
              ∧ CanonicalText text (decimal fixedText.toList))
    ∧ (∀ (x y : Float) (m n : ℕ) (s t : String), (rational? x).isSome → (rational? y).isSome →
        0 < m → 0 < n → (float x).fixed (int m) = .ok s → (float y).fixed (int n) = .ok t →
        decimal s.toList = decimal t.toList →
        (float x).plainTo (int m) = (float y).plainTo (int n))
    ∧ ∀ (n : Num) (places : ℕ), places ≤ maxPlaces →
        n.value.plainTo (int places) = .ok (n.plain places) := by
  have hfinite : ∀ {x : Float}, (rational? x).isSome → ∃ d, parts x = .finite d := by
    intro x hx
    obtain ⟨q, hq⟩ := Option.isSome_iff_exists.mp hx
    obtain ⟨d, hd, -⟩ := rational?_eq_some_iff.mp hq
    exact ⟨d, hd⟩
  refine ⟨fun i decimals => ⟨_, plainTo_int i decimals, canonicalText_toString i⟩, ?_, ?_, ?_,
    fun n places => plainTo_value n⟩
  · intro i x places fixedText hplaces hx hq htext
    obtain ⟨d, hd, hvalue⟩ := rational?_eq_some_iff.mp hq
    rw [fixed_int hx] at htext
    rw [eq_of_fixed_float htext, decimal_fixed hplaces hd, rounded_whole hvalue]
  · intro x places hx hplaces
    obtain ⟨d, hd⟩ := hfinite hx
    refine ⟨fun hle => ⟨_, (fixed_float x places).trans (if_pos hle)⟩, fun fixedText htext => ?_⟩
    exact exists_canonicalText hd hplaces htext
  · intro x y m n s t hx hy hm hn hs ht hsame
    obtain ⟨d, hd⟩ := hfinite hx
    obtain ⟨e, he⟩ := hfinite hy
    obtain ⟨text, htext, hcanonical⟩ := exists_canonicalText hd hm hs
    obtain ⟨text', htext', hcanonical'⟩ := exists_canonicalText he hn ht
    rw [htext, htext', hcanonical.unique (hsame ▸ hcanonical')]

/-- A negative double that is rounded to zero and zero itself: the fixed-point texts differ in the
sign, and the plain texts are the same. -/
theorem negative_zero_plain :
    (float (-0.00001)).fixed (int 4) = .ok "-0.0000" ∧ (float 0.0).fixed (int 3) = .ok "0.000"
      ∧ (float (-0.00001)).plainTo (int 4) = (float 0.0).plainTo (int 3)
      ∧ ∃ text, (float (-0.00001)).plainTo (int 4) = .ok text ∧ CanonicalText text 0 := by
  have hs : (float (-0.00001)).fixed (int 4) = .ok "-0.0000" := by decide +kernel
  have ht : (float 0.0).fixed (int 3) = .ok "0.000" := by decide +kernel
  have hx : (rational? (-0.00001)).isSome = true := by decide +kernel
  have hy : (rational? 0.0).isSome = true := by decide +kernel
  obtain ⟨-, -, hdouble, hsame, -⟩ := plainTo_canonical
  have hzero : decimal "-0.0000".toList = 0 := by decide +kernel
  refine ⟨hs, ht, hsame _ _ 4 3 _ _ hx hy (by decide) (by decide) hs ht (by decide +kernel), ?_⟩
  obtain ⟨text, htext, hcanonical⟩ := (hdouble _ 4 hx (by decide)).2 _ hs
  exact ⟨text, htext, hzero ▸ hcanonical⟩

/-- An integer that no double holds: its plain text writes another number than its fixed-point
text, which is that of the double nearest to it. -/
theorem large_integer_differs :
    ∃ text fixedText, (int 9007199254740993).plainTo (int 4) = .ok text
      ∧ (int 9007199254740993).fixed (int 4) = .ok fixedText
      ∧ decimal text.toList ≠ decimal fixedText.toList :=
  ⟨"9007199254740993", "9007199254740992.0000", by decide +kernel, by decide +kernel,
    by decide +kernel⟩

end ControlSurface.Value
