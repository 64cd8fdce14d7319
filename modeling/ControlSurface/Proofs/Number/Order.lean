/-
  ControlSurface.Proofs.Number.Order
  ──────────────────────────────────
  The order of numbers.  A double has a size: the number that it stands for, or beyond all numbers
  if it is infinite.  Doubles are compared as their sizes are (`Sized.compare_eq`), and so are
  integers with doubles (`Num.lt_iff_size`); not-a-number alone has no size.  So values that can be
  compared are in one line, in which each has its place (`compared_as_places`).

  Main results:
    * `zero_lt_iff`, `lt_one_iff` — a double is above zero and below one as its number is.
    * `Value.compared_as_places` — numbers by size, texts by code point, the rest not at all.
-/
import ControlSurface.Proofs.Number.Exact
import ControlSurface.Value.Number

namespace ControlSurface.Number

open Float.Model Float.Model.UnpackedFloat

/-! ## §1. Sizes. -/

/-- A size: a rational number, or beyond all of them on one side. -/
abbrev Size := WithBot (WithTop ℚ)

/-- A rational number as a size. -/
def Size.finite (q : ℚ) : Size := ((q : WithTop ℚ) : WithBot (WithTop ℚ))

theorem Size.finite_lt {p q : ℚ} : finite p < finite q ↔ p < q := by
  rw [finite, finite, WithBot.coe_lt_coe, WithTop.coe_lt_coe]

theorem Size.finite_inj {p q : ℚ} : finite p = finite q ↔ p = q := by
  rw [finite, finite, WithBot.coe_inj, WithTop.coe_inj]

theorem Size.bot_lt_finite (q : ℚ) : ⊥ < finite q := WithBot.bot_lt_coe _

theorem Size.finite_lt_top (q : ℚ) : finite q < ⊤ := WithBot.coe_lt_coe.mpr (WithTop.coe_lt_top q)

theorem Size.bot_lt_top : (⊥ : Size) < ⊤ := WithBot.bot_lt_coe _

theorem Size.compare_finite (p q : ℚ) : compare (finite p) (finite q) = compare p q := by
  rcases lt_trichotomy p q with h | h | h
  · rw [compare_lt_iff_lt.mpr h, compare_lt_iff_lt.mpr (finite_lt.mpr h)]
  · rw [compare_eq_iff_eq.mpr h, compare_eq_iff_eq.mpr (finite_inj.mpr h)]
  · rw [compare_gt_iff_gt.mpr h, compare_gt_iff_gt.mpr (finite_lt.mpr h)]

theorem compare_neg (p q : ℚ) : compare (-p) (-q) = (compare p q).swap := by
  rcases lt_trichotomy p q with h | h | h
  · rw [compare_lt_iff_lt.mpr h, compare_gt_iff_gt.mpr (neg_lt_neg h)]
    rfl
  · rw [compare_eq_iff_eq.mpr h, compare_eq_iff_eq.mpr (congrArg _ h)]
    rfl
  · rw [compare_gt_iff_gt.mpr h, compare_lt_iff_lt.mpr (neg_lt_neg h)]
    rfl

/-- The size of what a double stands for; not-a-number has none. -/
def Parts.size? : Parts → Option Size
  | .finite d => some (.finite d.value)
  | .infinite negative => some (if negative then ⊥ else ⊤)
  | .notANumber => none

/-! ## §2. Doubles. -/

/-- Of two numbers of at most 53 bits the one with the larger exponent is larger. -/
theorem Dyadic.Canonical.magnitude_lt {c d : Dyadic} (hc : c.Canonical) (hd : d.Canonical)
    (h : c.exponent < d.exponent) : c.magnitude < d.magnitude := by
  have hnormal : 2 ^ 52 ≤ d.mantissa := by
    by_contra hsmall
    have hlow := hd.normal (by omega)
    have hge := hc.exponent_ge
    omega
  have hmantissa : (c.mantissa : ℚ) < 2 ^ 53 := by exact_mod_cast hc.mantissa_lt
  have hmantissa' : (2 : ℚ) ^ 52 ≤ d.mantissa := by exact_mod_cast hnormal
  have hpos : (0 : ℚ) < 2 ^ c.exponent := zpow_pos (by norm_num) _
  have hpower : (2 : ℚ) * 2 ^ c.exponent ≤ 2 ^ d.exponent := by
    rw [← zpow_one_add₀ two_ne_zero]
    exact zpow_le_zpow_right₀ (by norm_num) (by omega)
  calc (c.mantissa : ℚ) * 2 ^ c.exponent < 2 ^ 53 * 2 ^ c.exponent :=
        mul_lt_mul_of_pos_right hmantissa hpos
    _ = 2 ^ 52 * (2 * 2 ^ c.exponent) := by ring
    _ ≤ d.mantissa * 2 ^ d.exponent :=
        mul_le_mul hmantissa' hpower (by positivity) (by positivity)

/-- Exponents decide, then mantissas. -/
theorem Dyadic.Canonical.compare_magnitude {c d : Dyadic} (hc : c.Canonical) (hd : d.Canonical) :
    (compare c.exponent d.exponent).then (compare c.mantissa d.mantissa)
      = compare c.magnitude d.magnitude := by
  rcases lt_trichotomy c.exponent d.exponent with h | h | h
  · rw [compare_lt_iff_lt.mpr h, compare_lt_iff_lt.mpr (hc.magnitude_lt hd h)]
    rfl
  · have hpos : (0 : ℚ) < 2 ^ d.exponent := zpow_pos (by norm_num) _
    rw [compare_eq_iff_eq.mpr h, magnitude, magnitude, h]
    rcases lt_trichotomy c.mantissa d.mantissa with hm | hm | hm
    · have hcast : (c.mantissa : ℚ) < d.mantissa := by exact_mod_cast hm
      rw [compare_lt_iff_lt.mpr hm, compare_lt_iff_lt.mpr (mul_lt_mul_of_pos_right hcast hpos)]
      rfl
    · rw [compare_eq_iff_eq.mpr hm, hm, compare_eq_iff_eq.mpr rfl]
      rfl
    · have hcast : (d.mantissa : ℚ) < c.mantissa := by exact_mod_cast hm
      rw [compare_gt_iff_gt.mpr hm, compare_gt_iff_gt.mpr (mul_lt_mul_of_pos_right hcast hpos)]
      rfl
  · rw [compare_gt_iff_gt.mpr h, compare_gt_iff_gt.mpr (hd.magnitude_lt hc h)]
    rfl

/-- The size of a double as arithmetic takes it apart. -/
inductive Sized : UnpackedFloat → Size → Prop
  | below : Sized (.infinity .negative) ⊥
  | above : Sized (.infinity .positive) ⊤
  | zero (s : Sign) : Sized (.zero s) (.finite 0)
  | positive {d : Dyadic} (hm : 0 < d.mantissa) (h : d.Canonical) :
      Sized (.finite .positive d.mantissa d.exponent hm) (.finite d.magnitude)
  | negative {d : Dyadic} (hm : 0 < d.mantissa) (h : d.Canonical) :
      Sized (.finite .negative d.mantissa d.exponent hm) (.finite (-d.magnitude))

theorem sized_of_size? {x : Float} {p : Size} (h : (parts x).size? = some p) :
    Sized x.toModel.unpack p := by
  cases hx : parts x with
  | notANumber =>
    rw [hx] at h
    cases h
  | infinite negative =>
    rw [hx] at h
    rw [parts_eq_unpacked] at hx
    cases h
    cases hu : x.toModel.unpack with
    | infinity s =>
      rw [hu] at hx
      cases hx
      cases s
      · exact .below
      · exact .above
    | _ =>
      rw [hu] at hx
      cases hx
  | finite d =>
    have hcanonical := canonical_of_parts hx
    rw [hx] at h
    cases h
    rcases unpacked_of_finite hx with ⟨s, hu, rfl⟩ | ⟨s, m, e, hm, hu, rfl⟩
    · rw [hu]
      have hzero : (⟨isMinus s, 0, -1074⟩ : Dyadic).value = 0 := by
        simp [Dyadic.value, Dyadic.magnitude]
      rw [hzero]
      exact .zero s
    · rw [hu]
      cases s with
      | positive =>
        rw [Dyadic.value_positive rfl]
        exact .positive (d := ⟨false, m, e⟩) hm hcanonical
      | negative =>
        rw [Dyadic.value_negative rfl]
        exact .negative (d := ⟨true, m, e⟩) hm hcanonical

/-- **Doubles are compared as their sizes.** -/
theorem Sized.compare_eq {u v : UnpackedFloat} {p q : Size} (hu : Sized u p) (hv : Sized v q) :
    UnpackedFloat.compare u v = some (compare p q) := by
  have hpos : ∀ {d : Dyadic}, 0 < d.mantissa → 0 < d.magnitude := fun hm =>
    mul_pos (by exact_mod_cast hm) (zpow_pos (by norm_num) _)
  have hlt : ∀ {p q : Size}, p < q → some Ordering.lt = some (compare p q) := fun h =>
    congrArg some (compare_lt_iff_lt.mpr h).symm
  have hgt : ∀ {p q : Size}, q < p → some Ordering.gt = some (compare p q) := fun h =>
    congrArg some (compare_gt_iff_gt.mpr h).symm
  have heq : ∀ {p : Size}, some Ordering.eq = some (compare p p) :=
    congrArg some (compare_eq_iff_eq.mpr rfl).symm
  cases hu with
  | below =>
    cases hv with
    | below => exact heq
    | above => exact hlt Size.bot_lt_top
    | _ => exact hlt (Size.bot_lt_finite _)
  | above =>
    cases hv with
    | above => exact heq
    | below => exact hgt Size.bot_lt_top
    | _ => exact hgt (Size.finite_lt_top _)
  | zero s =>
    cases hv with
    | below => exact hgt (Size.bot_lt_finite _)
    | above => exact hlt (Size.finite_lt_top _)
    | zero => exact heq
    | positive hm => exact hlt (Size.finite_lt.mpr (hpos hm))
    | negative hm => exact hgt (Size.finite_lt.mpr (neg_lt_zero.mpr (hpos hm)))
  | positive hm h =>
    cases hv with
    | below => exact hgt (Size.bot_lt_finite _)
    | above => exact hlt (Size.finite_lt_top _)
    | zero => exact hgt (Size.finite_lt.mpr (hpos hm))
    | positive hm' h' => exact congrArg some ((h.compare_magnitude h').trans (Size.compare_finite _ _).symm)
    | negative hm' =>
      exact hgt (Size.finite_lt.mpr ((neg_lt_zero.mpr (hpos hm')).trans (hpos hm)))
  | negative hm h =>
    cases hv with
    | below => exact hgt (Size.bot_lt_finite _)
    | above => exact hlt (Size.finite_lt_top _)
    | zero => exact hlt (Size.finite_lt.mpr (neg_lt_zero.mpr (hpos hm)))
    | positive hm' =>
      exact hlt (Size.finite_lt.mpr ((neg_lt_zero.mpr (hpos hm)).trans (hpos hm')))
    | negative hm' h' =>
      rw [Size.compare_finite, compare_neg]
      exact congrArg (fun o => some (Ordering.swap o)) (h.compare_magnitude h')

theorem lt_iff_unpacked (x y : Float) : x < y ↔ x.toModel.unpack.lt y.toModel.unpack = true := by
  show decide (x.toModel < y.toModel) = true ↔ _
  rw [decide_eq_true_iff]
  rfl

/-- **A double is less than another one** as its size is. -/
theorem lt_iff_size {x y : Float} {p q : Size} (hx : (parts x).size? = some p)
    (hy : (parts y).size? = some q) : x < y ↔ p < q := by
  rw [lt_iff_unpacked, UnpackedFloat.lt, (sized_of_size? hx).compare_eq (sized_of_size? hy),
    beq_iff_eq, Option.some_inj, compare_lt_iff_lt]

/-- **Doubles are equal** as their sizes are. -/
theorem beq_iff_size {x y : Float} {p q : Size} (hx : (parts x).size? = some p)
    (hy : (parts y).size? = some q) : (x == y) = true ↔ p = q := by
  show UnpackedFloat.beq x.toModel.unpack y.toModel.unpack = true ↔ _
  rw [UnpackedFloat.beq, (sized_of_size? hx).compare_eq (sized_of_size? hy),
    beq_iff_eq, Option.some_inj, compare_eq_iff_eq]

theorem size?_of_finite {x : Float} {d : Dyadic} (h : parts x = .finite d) :
    (parts x).size? = some (.finite d.value) := by
  rw [h]
  rfl

theorem size?_zero : (parts (0.0 : Float)).size? = some (.finite 0) := by
  have hparts : parts (0.0 : Float) = .finite ⟨false, 0, -1074⟩ := by with_unfolding_all rfl
  rw [size?_of_finite hparts]
  simp [Dyadic.value, Dyadic.magnitude]

theorem size?_one : (parts (1.0 : Float)).size? = some (.finite 1) := by
  have hparts : parts (1.0 : Float) = .finite ⟨false, 2 ^ 52, -52⟩ := by with_unfolding_all rfl
  rw [size?_of_finite hparts]
  norm_num [Dyadic.value, Dyadic.magnitude]

/-- **Zero is less than a double** as it is less than its number. -/
theorem zero_lt_iff {x : Float} {d : Dyadic} (h : parts x = .finite d) :
    (0.0 : Float) < x ↔ 0 < d.value := by
  rw [lt_iff_size size?_zero (size?_of_finite h), Size.finite_lt]

/-- **A double is less than one** as its number is. -/
theorem lt_one_iff {x : Float} {d : Dyadic} (h : parts x = .finite d) :
    x < (1.0 : Float) ↔ d.value < 1 := by
  rw [lt_iff_size (size?_of_finite h) size?_one, Size.finite_lt]

/-- **A double between zero and one is finite.** -/
theorem finite_of_unit {x : Float} (hpos : (0.0 : Float) < x) (hlt : x < (1.0 : Float)) :
    ∃ d, parts x = .finite d := by
  rw [lt_iff_unpacked, unpack_zero] at hpos
  rw [lt_iff_unpacked, unpack_one] at hlt
  rw [parts_eq_unpacked]
  cases hx : x.toModel.unpack with
  | infinity s =>
    rw [hx] at hpos hlt
    cases s with
    | negative => exact absurd hpos (by decide)
    | positive => exact absurd hlt (by decide)
  | notANumber =>
    rw [hx] at hpos
    exact absurd hpos (by decide)
  | zero s => exact ⟨_, rfl⟩
  | finite s m e hm => exact ⟨_, rfl⟩

end Number

/-! ## §3. Numbers. -/

namespace Num

open Number

/-- The size of a number; not-a-number has none. -/
def size? : Num → Option Size
  | int i => some (.finite i)
  | float x => (parts x).size?

/-- A finite number is its fraction. -/
theorem size?_of_fraction {n : Num} {p : ℤ} {q : ℕ} (h : n.fraction? = some (p, q)) :
    0 < q ∧ n.size? = some (.finite (p / q)) := by
  cases n with
  | int i =>
    cases h
    refine ⟨Nat.one_pos, ?_⟩
    rw [size?, Nat.cast_one, div_one]
  | float x =>
    rw [fraction?] at h
    split at h
    next d hd =>
      have hpair : ((if d.negative then -(d.ratio.1 : ℤ) else d.ratio.1), d.ratio.2) = (p, q) :=
        Option.some.inj h
      obtain ⟨rfl, rfl⟩ := Prod.mk.inj hpair
      refine ⟨d.ratio_pos, ?_⟩
      rw [size?, size?_of_finite hd, Dyadic.value, Dyadic.magnitude, ← d.ratio_eq]
      cases d.negative <;> simp [neg_div]
    next => cases h

/-- A number without a fraction is beyond all others, if it is a number. -/
theorem size?_of_no_fraction {x : Float} (h : fraction? (float x) = none) {p : Size}
    (hp : (parts x).size? = some p) : p = ⊥ ∨ p = ⊤ := by
  rw [fraction?] at h
  cases hx : parts x with
  | finite d =>
    rw [hx] at h
    cases h
  | infinite negative =>
    rw [hx] at hp
    cases hp
    cases negative
    · exact Or.inr rfl
    · exact Or.inl rfl
  | notANumber =>
    rw [hx] at hp
    cases hp

theorem cross_lt {p r : ℤ} {q s : ℕ} (hq : 0 < q) (hs : 0 < s) :
    p * s < r * q ↔ (p : ℚ) / q < r / s := by
  rw [div_lt_div_iff₀ (by exact_mod_cast hq) (by exact_mod_cast hs)]
  exact_mod_cast Iff.rfl

theorem cross_eq {p r : ℤ} {q s : ℕ} (hq : 0 < q) (hs : 0 < s) :
    p * s = r * q ↔ (p : ℚ) / q = r / s := by
  rw [div_eq_div_iff (by exact_mod_cast hq.ne') (by exact_mod_cast hs.ne')]
  exact_mod_cast Iff.rfl

/-- **Numbers are less than others** as their sizes are. -/
theorem lt_iff_size {a b : Num} {p q : Size} (ha : a.size? = some p) (hb : b.size? = some q) :
    a.lt b = true ↔ p < q := by
  cases a with
  | int i =>
    cases b with
    | int j =>
      cases ha
      cases hb
      rw [lt, decide_eq_true_iff, Size.finite_lt, Int.cast_lt]
    | float y =>
      obtain ⟨hone, hi⟩ := size?_of_fraction (n := int i) rfl
      cases hi.symm.trans ha
      unfold lt
      cases hy : fraction? (float y) with
      | some fraction =>
        obtain ⟨hs, hsize⟩ := size?_of_fraction hy
        cases hsize.symm.trans hb
        exact decide_eq_true_iff.trans ((cross_lt hone hs).trans Size.finite_lt.symm)
      | none =>
        refine decide_eq_true_iff.trans ((Number.lt_iff_size size?_zero hb).trans ?_)
        rcases size?_of_no_fraction hy hb with rfl | rfl
        · exact iff_of_false not_lt_bot not_lt_bot
        · exact iff_of_true (Size.finite_lt_top _) (Size.finite_lt_top _)
  | float x =>
    cases b with
    | float y => rw [lt, decide_eq_true_iff, Number.lt_iff_size ha hb]
    | int j =>
      obtain ⟨hone, hj⟩ := size?_of_fraction (n := int j) rfl
      cases hj.symm.trans hb
      unfold lt
      cases hx : fraction? (float x) with
      | some fraction =>
        obtain ⟨hs, hsize⟩ := size?_of_fraction hx
        cases hsize.symm.trans ha
        exact decide_eq_true_iff.trans ((cross_lt hs hone).trans Size.finite_lt.symm)
      | none =>
        refine decide_eq_true_iff.trans ((Number.lt_iff_size ha size?_zero).trans ?_)
        rcases size?_of_no_fraction hx ha with rfl | rfl
        · exact iff_of_true (Size.bot_lt_finite _) (Size.bot_lt_finite _)
        · exact iff_of_false not_top_lt not_top_lt

/-- **Numbers are equal** as their sizes are. -/
theorem eq_iff_size {a b : Num} {p q : Size} (ha : a.size? = some p) (hb : b.size? = some q) :
    a.eq b = true ↔ p = q := by
  cases a with
  | int i =>
    cases b with
    | int j =>
      cases ha
      cases hb
      rw [eq, beq_iff_eq, Size.finite_inj, Int.cast_inj]
    | float y =>
      obtain ⟨hone, hi⟩ := size?_of_fraction (n := int i) rfl
      cases hi.symm.trans ha
      unfold eq
      cases hy : fraction? (float y) with
      | some fraction =>
        obtain ⟨hs, hsize⟩ := size?_of_fraction hy
        cases hsize.symm.trans hb
        exact beq_iff_eq.trans ((cross_eq hone hs).trans Size.finite_inj.symm)
      | none =>
        refine iff_of_false Bool.false_ne_true ?_
        rcases size?_of_no_fraction hy hb with rfl | rfl
        · exact (Size.bot_lt_finite _).ne'
        · exact (Size.finite_lt_top _).ne
  | float x =>
    cases b with
    | float y => exact Number.beq_iff_size ha hb
    | int j =>
      obtain ⟨hone, hj⟩ := size?_of_fraction (n := int j) rfl
      cases hj.symm.trans hb
      unfold eq
      cases hx : fraction? (float x) with
      | some fraction =>
        obtain ⟨hs, hsize⟩ := size?_of_fraction hx
        cases hsize.symm.trans ha
        exact beq_iff_eq.trans ((cross_eq hs hone).trans Size.finite_inj.symm)
      | none =>
        refine iff_of_false Bool.false_ne_true ?_
        rcases size?_of_no_fraction hx ha with rfl | rfl
        · exact (Size.bot_lt_finite _).ne
        · exact (Size.finite_lt_top _).ne'

end Num

/-! ## §4. Values. -/

namespace Value

open Number

/-- Not-a-number, which is less than no number and more than none. -/
def IsNaN (v : Value) : Prop := ∃ x, v = .float x ∧ Number.parts x = .notANumber

theorem exists_size {v : Value} (h : ¬ v.IsNaN) {n : Num} (hn : v.num? = some n) :
    ∃ p, n.size? = some p := by
  cases v with
  | bool b => cases hn; exact ⟨_, rfl⟩
  | int i => cases hn; exact ⟨_, rfl⟩
  | float x =>
    cases hn
    rw [Num.size?]
    cases hx : parts x with
    | finite d => exact ⟨_, rfl⟩
    | infinite negative => exact ⟨_, rfl⟩
    | notANumber => exact absurd ⟨x, rfl, hx⟩ h
  | _ => cases hn

/-- The places of values: those of numbers, then those of texts; what is neither stands before
both. -/
abbrev Place := WithBot (Size ⊕ₗ String)

/-- The place of a value. -/
def place (v : Value) : Place :=
  match v with
  | text s => ((Sum.inrₗ s : Size ⊕ₗ String) : Place)
  | v => match v.num?.bind Num.size? with
    | some p => ((Sum.inlₗ p : Size ⊕ₗ String) : Place)
    | none => ⊥

theorem place_text (s : String) : (text s).place = ((Sum.inrₗ s : Size ⊕ₗ String) : Place) := rfl

theorem place_of_num {v : Value} {n : Num} {p : Size} (hv : v.num? = some n)
    (hp : n.size? = some p) : v.place = ((Sum.inlₗ p : Size ⊕ₗ String) : Place) := by
  unfold place
  split
  next => cases hv
  next => rw [hv, Option.bind_some, hp]

theorem less_of_num {v w : Value} {n m : Num} (hv : v.num? = some n) (hw : w.num? = some m) :
    v.less w = .ok (n.lt m) := by
  unfold less
  split
  next => cases hv
  next => rw [num, num, hv, hw]; rfl

/-- Nothing but two numbers and two texts can be less than one another. -/
theorem less_eq_error {v w : Value} (hnum : v.num? = none ∨ w.num? = none)
    (htext : (∀ s, v ≠ .text s) ∨ ∀ s, w ≠ .text s) : v.less w = .error .wrongType := by
  unfold less
  split
  next s t => exact absurd htext (by simp)
  next =>
    rw [num]
    cases hn : v.num? with
    | none => rfl
    | some n =>
      rw [num, hnum.resolve_left (by simp [hn])]
      rfl

theorem same_of_num {v w : Value} {n : Num} (hv : v.num? = some n) : v.same w = sameNum n w := by
  cases v with
  | bool b => cases hv; rw [same]
  | int i => cases hv; rw [same]
  | float x => cases hv; rw [same]
  | _ => cases hv

/-- What is no number and no text is compared with its like only, which has no place either. -/
theorem unplaced {v w : Value} (hv : v.num? = none) (htext : ∀ s, v ≠ .text s)
    (h : v.same w = true ∨ (v.less w).isOk = true) :
    v.same w = true ∧ v.precedes w = false ∧ v.place = ⊥ ∧ w.place = ⊥ := by
  have hless : v.less w = .error .wrongType := less_eq_error (.inl hv) (.inl htext)
  have hsame : v.same w = true := by
    rw [hless] at h
    exact h.resolve_right Bool.false_ne_true
  refine ⟨hsame, by rw [precedes, hless], ?_⟩
  cases v with
  | text s => exact absurd rfl (htext s)
  | bool b => cases hv
  | int i => cases hv
  | float x => cases hv
  | null =>
    cases w with
    | null => exact ⟨rfl, rfl⟩
    | _ => simp [same] at hsame
  | list vs =>
    cases w with
    | list ws => exact ⟨rfl, rfl⟩
    | _ => simp [same] at hsame
  | object fields =>
    cases w with
    | object fields' => exact ⟨rfl, rfl⟩
    | _ => simp [same] at hsame

/-- **Values that can be compared are compared as their places**, where none is not-a-number. -/
theorem compared_as_places {v w : Value} (hv : ¬ v.IsNaN) (hw : ¬ w.IsNaN)
    (h : v.same w = true ∨ (v.less w).isOk = true) :
    (v.precedes w = true ↔ v.place < w.place) ∧ (v.same w = true ↔ v.place = w.place) := by
  have herror : v.less w = .error .wrongType → v.same w = true := fun hless => by
    rw [hless] at h
    exact h.resolve_right Bool.false_ne_true
  cases hn : v.num? with
  | some n =>
    obtain ⟨p, hp⟩ := exists_size hv hn
    have hsame : v.same w = sameNum n w := same_of_num hn
    cases hm : w.num? with
    | some m =>
      obtain ⟨q, hq⟩ := exists_size hw hm
      rw [hsame, sameNum, hm, place_of_num hn hp, place_of_num hm hq, precedes, less_of_num hn hm,
        WithBot.coe_lt_coe, WithBot.coe_inj, Sum.Lex.inl_lt_inl_iff]
      exact ⟨Num.lt_iff_size hp hq, (Num.eq_iff_size hp hq).trans (by simp)⟩
    | none =>
      -- a number is not compared with anything else
      have htext : ∀ s, v ≠ .text s := fun s hs => by
        rw [hs] at hn
        cases hn
      have hyes := herror (less_eq_error (.inr hm) (.inl htext))
      rw [hsame, sameNum, hm] at hyes
      cases hyes
  | none =>
    by_cases htext : ∀ s, v ≠ .text s
    · obtain ⟨hsame, hprecedes, hplace, hplace'⟩ := unplaced hn htext h
      rw [hsame, hprecedes, hplace, hplace']
      simp
    · obtain ⟨s, rfl⟩ := not_forall_not.mp htext
      by_cases hother : ∀ t, w ≠ .text t
      · -- a text is not compared with anything else
        have hyes := herror (less_eq_error (.inl hn) (.inr hother))
        cases w with
        | text t => exact absurd rfl (hother t)
        | _ => simp [same] at hyes
      · obtain ⟨t, rfl⟩ := not_forall_not.mp hother
        rw [place_text, place_text, precedes, less, same, WithBot.coe_lt_coe, WithBot.coe_inj,
          Sum.Lex.inr_lt_inr_iff]
        simp

end Value

end ControlSurface
