/-
  ControlSurface.Proofs.Readout.Place
  ───────────────────────────────────
  The place of a value between two bounds.  Whatever the value and its bounds are, and whatever is
  lost on the way or grows beyond all doubles, a place that is found is a number from 0 to 1.  Between
  0 and 1 themselves nothing is lost: the place of a double is the double, kept between them.

  Main results:
    * `normalized_unit` — every place is a number from 0 to 1.
    * `normalized_double`, `normalized_whole` — the place of a number between 0 and 1.
    * `plainFloat_kept` — a double no more than half a unit of the last decimal outside has the text
      of the end that it is nearest to.
    * `exists_filled` — a place fills no more cells than there are.
-/
import ControlSurface.Proofs.Fault.Outcome
import ControlSurface.Proofs.Number.Decimal
import ControlSurface.Proofs.Number.Order
import ControlSurface.Readout

namespace ControlSurface

/-- The number that a value stands for, if it is a finite one. -/
def Value.rational? (v : Value) : Option ℚ :=
  match v.num? with
  | some (.int i) => some i
  | some (.float x) => Number.rational? x
  | none => none

namespace Readout

open ControlSurface.Number ControlSurface.Outcome

/-! ## §1. Kept between zero and one. -/

/-- A double kept between zero and one; what is not above zero is zero. -/
def kept (x : Float) : Float :=
  let raised := if (0.0 : Float) < x then x else 0.0
  if raised < (1.0 : Float) then raised else 1.0

theorem parts_zero : parts 0.0 = .finite ⟨false, 0, -1074⟩ := by decide +kernel

theorem parts_half : parts 0.5 = .finite ⟨false, 2 ^ 52, -53⟩ := by decide +kernel

theorem parts_one : parts 1.0 = .finite ⟨false, 2 ^ 52, -52⟩ := by decide +kernel

theorem rational?_zero : rational? 0.0 = some 0 := by
  rw [rational?, parts_zero]
  norm_num [Dyadic.value, Dyadic.magnitude]

theorem rational?_half : rational? 0.5 = some (1 / 2) := by
  rw [rational?, parts_half]
  norm_num [Dyadic.value, Dyadic.magnitude]

theorem rational?_one : rational? 1.0 = some 1 := by
  rw [rational?, parts_one]
  norm_num [Dyadic.value, Dyadic.magnitude]

/-- What is kept is the double itself where it stands for a number between zero and one, and one of
the two elsewhere. -/
theorem kept_cases (x : Float) :
    (∃ q, rational? x = some q ∧ 0 < q ∧ q < 1 ∧ kept x = x)
      ∨ (¬ (0.0 : Float) < x ∧ kept x = 0.0)
      ∨ ((0.0 : Float) < x ∧ ¬ x < (1.0 : Float) ∧ kept x = 1.0) := by
  have hzero : (0.0 : Float) < 1.0 := by decide +kernel
  by_cases hpos : (0.0 : Float) < x
  · by_cases hlt : x < (1.0 : Float)
    · obtain ⟨d, hd⟩ := finite_of_unit hpos hlt
      refine Or.inl ⟨d.value, rational?_eq_some_iff.mpr ⟨d, hd, rfl⟩, (zero_lt_iff hd).mp hpos,
        (lt_one_iff hd).mp hlt, ?_⟩
      rw [kept, if_pos hpos, if_pos hlt]
    · refine Or.inr (Or.inr ⟨hpos, hlt, ?_⟩)
      rw [kept, if_pos hpos, if_neg hlt]
  · refine Or.inr (Or.inl ⟨hpos, ?_⟩)
    rw [kept, if_neg hpos, if_pos hzero]

/-- **What is kept is a number from 0 to 1.** -/
theorem kept_unit (x : Float) : ∃ q, rational? (kept x) = some q ∧ 0 ≤ q ∧ q ≤ 1 := by
  rcases kept_cases x with ⟨q, hq, hpos, hlt, heq⟩ | ⟨-, heq⟩ | ⟨-, -, heq⟩ <;> rw [heq]
  · exact ⟨q, hq, hpos.le, hlt.le⟩
  · exact ⟨0, rational?_zero, le_refl _, zero_le_one⟩
  · exact ⟨1, rational?_one, zero_le_one, le_refl _⟩

/-! ## §2. Places. -/

theorem exists_float_of_div {a b n : Num} (h : a.div b = .ok n) : ∃ x, n = .float x := by
  unfold Num.div at h
  split at h
  next => cases h
  next =>
    split at h
    next i j =>
      split at h
      next => exact ⟨_, (Except.ok.inj h).symm⟩
      next => cases h
    next =>
      obtain ⟨x, -, h⟩ := (bind_eq_ok_iff _ _ _).mp h
      obtain ⟨y, -, h⟩ := (bind_eq_ok_iff _ _ _).mp h
      exact ⟨_, (Except.ok.inj h).symm⟩

/-- A quotient kept between zero and one. -/
theorem min_max_eq (x : Float) :
    ((Num.float 1.0).min ((Num.float 0.0).max (.float x))).value = .float (kept x) := by
  have hraised : (Num.float 0.0).max (.float x)
      = .float (if (0.0 : Float) < x then x else 0.0) := by
    show (if decide ((0.0 : Float) < x) then Num.float x else .float 0.0) = _
    by_cases hpos : (0.0 : Float) < x <;> simp [hpos]
  rw [hraised, kept]
  generalize (if (0.0 : Float) < x then x else 0.0) = raised
  show (if decide (raised < (1.0 : Float)) then Num.float raised else .float 1.0).value = _
  by_cases hlt : raised < (1.0 : Float) <;> simp [hlt, Num.value]

/-- The steps to a place: equal bounds have none to take. -/
theorem normalized_eq_ok {value lo hi p : Value} (h : normalized value lo hi = .ok p) :
    (hi.same lo = true ∧ p = .float 0.5)
      ∨ ∃ a b l m n x, value.num = .ok a ∧ lo.num = .ok l ∧ a.sub l = .ok m ∧ hi.num = .ok b
        ∧ b.sub l = .ok n ∧ m.div n = .ok (.float x) ∧ p = .float (kept x) := by
  rw [normalized] at h
  split at h
  next hsame => exact Or.inl ⟨hsame, (Except.ok.inj h).symm⟩
  next =>
    obtain ⟨a, ha, h⟩ := (bind_eq_ok_iff _ _ _).mp h
    obtain ⟨l, hl, h⟩ := (bind_eq_ok_iff _ _ _).mp h
    obtain ⟨m, hm, h⟩ := (bind_eq_ok_iff _ _ _).mp h
    obtain ⟨b, hb, h⟩ := (bind_eq_ok_iff _ _ _).mp h
    obtain ⟨n, hn, h⟩ := (bind_eq_ok_iff _ _ _).mp h
    obtain ⟨q, hq, h⟩ := (bind_eq_ok_iff _ _ _).mp h
    obtain ⟨x, rfl⟩ := exists_float_of_div hq
    refine Or.inr ⟨a, b, l, m, n, x, ha, hl, hm, hb, hn, hq, ?_⟩
    rw [← Except.ok.inj h]
    exact min_max_eq x

/-- **Every place is a number from 0 to 1.** -/
theorem normalized_unit {value lo hi p : Value} (h : normalized value lo hi = .ok p) :
    ∃ x q, p = .float x ∧ Number.rational? x = some q ∧ 0 ≤ q ∧ q ≤ 1 := by
  rcases normalized_eq_ok h with ⟨-, rfl⟩ | ⟨_, _, _, _, _, x, -, -, -, -, -, -, rfl⟩
  · exact ⟨0.5, 1 / 2, rfl, rational?_half, by norm_num, by norm_num⟩
  · obtain ⟨q, hq, hlow, hhigh⟩ := kept_unit x
    exact ⟨kept x, q, rfl, hq, hlow, hhigh⟩

/-- **The place of a double between 0 and 1** is the double, kept between them. -/
theorem normalized_double {y : Float} {q : ℚ} (hy : rational? y = some q) :
    normalized (.float y) (.int 0) (.int 1) = .ok (.float (kept y)) := by
  obtain ⟨d, hd, -⟩ := rational?_eq_some_iff.mp hy
  have hzero : Num.toFloat (.int 0) = .ok 0.0 := by with_unfolding_all rfl
  have hone : Num.toFloat (.int 1) = .ok 1.0 := by with_unfolding_all rfl
  have habove : (Num.float y).sub (.int 0) = .ok (.float y) := by
    show (do .ok (.float (y - (← Num.toFloat (.int 0)))) : Except Fault Num) = _
    rw [hzero, ok_bind, float_sub_zero hd]
  have hplace : (Num.float y).div (.int 1) = .ok (.float y) := by
    show (do .ok (.float (y / (← Num.toFloat (.int 1)))) : Except Fault Num) = _
    rw [hone, ok_bind, float_div_one hd]
  show (do
    let above ← (Num.float y).sub (.int 0)
    let place ← above.div (.int 1)
    .ok ((Num.float 1.0).min ((Num.float 0.0).max place)).value) = _
  rw [habove, ok_bind, hplace, ok_bind, min_max_eq]

/-- **The place of zero or one between 0 and 1.** -/
theorem normalized_whole :
    normalized (.int 0) (.int 0) (.int 1) = .ok (.float 0.0)
      ∧ normalized (.int 1) (.int 0) (.int 1) = .ok (.float 1.0) :=
  ⟨by with_unfolding_all rfl, by with_unfolding_all rfl⟩

/-! ## §3. Texts of places. -/

/-- The text of a number from 0 to 1 writes such a number. -/
theorem decimal_unit {x : Float} {q : ℚ} (hx : rational? x = some q) (hlow : 0 ≤ q) (hhigh : q ≤ 1) :
    0 ≤ decimal (plainFloat 4 x).toList ∧ decimal (plainFloat 4 x).toList ≤ 1 := by
  obtain ⟨d, hd, rfl⟩ := rational?_eq_some_iff.mp hx
  rw [decimal_plainFloat (by decide) hd, Dyadic.rounded]
  cases hsign : d.negative with
  | false =>
    rw [Dyadic.value_positive hsign] at hhigh
    have hunits : (d.scaled 4 : ℚ) ≤ 10000 := by
      exact_mod_cast Dyadic.scaled_le (k := 10000) (by decide) (by push_cast; linarith)
    rw [if_neg (by decide), one_mul]
    constructor
    · positivity
    · rw [div_le_one (by positivity)]
      linarith
  | true =>
    rw [Dyadic.value_negative hsign] at hlow
    have hnone : d.scaled 4 = 0 :=
      Nat.le_zero.mp (Dyadic.scaled_le (by decide) (by push_cast; linarith))
    rw [hnone]
    norm_num

theorem plainFloat_of_scaled {x : Float} {d : Number.Dyadic} (hx : parts x = .finite d) {n : ℕ}
    (hscaled : d.scaled 4 = n) :
    plainFloat 4 x
      = String.ofList (stripped (if d.negative then '-' :: pointed 4 n else pointed 4 n)) := by
  rw [plainFloat, fixed, hx, ← hscaled]

/-- **A double that is no more than half a unit of the last decimal outside** has the text of what is
kept of it. -/
theorem plainFloat_kept {x : Float} {q : ℚ} (hx : rational? x = some q) (hlow : -(1 / 20000) ≤ q)
    (hhigh : q ≤ 20001 / 20000) : plainFloat 4 (kept x) = plainFloat 4 x := by
  obtain ⟨d, hd, rfl⟩ := rational?_eq_some_iff.mp hx
  have hnonneg := d.magnitude_nonneg
  rcases kept_cases x with ⟨-, -, -, -, heq⟩ | ⟨hpos, heq⟩ | ⟨hpos, hlt, heq⟩
  · rw [heq]
  · rw [zero_lt_iff hd, not_lt] at hpos
    have hsmall : d.magnitude ≤ 1 / 20000 := by
      cases hsign : d.negative with
      | false =>
        rw [Dyadic.value_positive hsign] at hpos
        linarith
      | true =>
        rw [Dyadic.value_negative hsign] at hlow
        linarith
    have hscaled : d.scaled 4 = 0 :=
      Nat.le_zero.mp (Dyadic.scaled_le (by decide) (by push_cast; linarith))
    have hzero : plainFloat 4 0.0 = "0" := by decide +kernel
    rw [heq, hzero, plainFloat_of_scaled hd hscaled]
    cases d.negative <;> decide +kernel
  · rw [zero_lt_iff hd] at hpos
    rw [lt_one_iff hd, not_lt] at hlt
    have hsign : d.negative = false := by
      cases hsign : d.negative with
      | false => rfl
      | true =>
        rw [Dyadic.value_negative hsign] at hpos
        linarith
    rw [Dyadic.value_positive hsign] at hhigh hlt
    have hscaled : d.scaled 4 = 10000 :=
      le_antisymm (Dyadic.scaled_le (by decide) (by push_cast; linarith))
        (Dyadic.le_scaled (by push_cast; linarith))
    have hone : plainFloat 4 1.0 = "1" := by decide +kernel
    rw [heq, hone, plainFloat_of_scaled hd hscaled, hsign]
    decide +kernel

/-! ## §4. Cells that a place fills. -/

/-- A product that is no larger than a whole number is rounded to no more than that. -/
theorem nearest_le {x : Float} {d : Number.Dyadic} (hx : parts x = .finite d) {n : ℕ}
    (hle : d.magnitude ≤ n) (hsign : d.negative = true → n = 0) :
    ∃ k : ℕ, Num.nearest (.float x) = .ok (k : ℤ) ∧ k ≤ n := by
  have hscaled : d.scaled 0 ≤ n := by
    have hnear := (abs_le.mp (d.abs_scaled_sub_le 0)).2
    rw [pow_zero, mul_one] at hnear
    have hlt : (d.scaled 0 : ℚ) < (n + 1 : ℕ) := by
      push_cast
      linarith
    exact Nat.le_of_lt_succ (by exact_mod_cast hlt)
  refine ⟨d.scaled 0, ?_, hscaled⟩
  rw [Num.nearest, hx]
  dsimp only
  cases hnegative : d.negative with
  | false => rw [if_neg Bool.false_ne_true]
  | true =>
    have hnone : d.scaled 0 = 0 := Nat.le_zero.mp (hscaled.trans_eq (hsign hnegative))
    rw [hnone, if_pos rfl]
    rfl

/-- **A place fills no more cells than there are.** -/
theorem exists_filled {x : Float} {q : ℚ} (hx : rational? x = some q) (hlow : 0 ≤ q) (hhigh : q ≤ 1)
    {width : ℕ} (hwidth : width < 2 ^ 53) :
    ∃ k : ℕ, ((Num.float x).mul (.int width) >>= Num.nearest) = .ok (k : ℤ) ∧ k ≤ width := by
  obtain ⟨c, hc, rfl⟩ := rational?_eq_some_iff.mp hx
  obtain ⟨y, d, hy, hd, hpositive, hmagnitude⟩ := exists_ofInt? hwidth
  obtain ⟨hcanonical, hlarge⟩ := canonical_of_bits hd
  have hmul : (Num.float x).mul (.int width) = .ok (.float (x * y)) := by
    show (do .ok (.float (x * (← Num.toFloat (.int width)))) : Except Fault Num) = _
    rw [Num.toFloat, hy]
    rfl
  rw [hmul, ok_bind]
  cases hsign : c.negative with
  | false =>
    rw [Dyadic.value_positive hsign] at hhigh
    have hle : c.magnitude * d.magnitude ≤ d.magnitude :=
      mul_le_of_le_one_left d.magnitude_nonneg hhigh
    obtain ⟨p, hp, hbound, hnegative⟩ := exists_parts_mul hc hd hcanonical hlarge hle
    refine nearest_le hp (hbound.trans_eq hmagnitude) fun h => ?_
    rcases hnegative h with h | h
    · cases hsign.symm.trans h
    · cases hpositive.symm.trans h
  | true =>
    -- the only place with a sign is zero
    rw [Dyadic.value_negative hsign] at hlow
    have hzero : c.magnitude = 0 := le_antisymm (by linarith) c.magnitude_nonneg
    have hnone : (⟨false, 0, -1074⟩ : Number.Dyadic).Canonical := ⟨by decide, le_refl _, fun _ => rfl⟩
    have hle : c.magnitude * d.magnitude ≤ (⟨false, 0, -1074⟩ : Number.Dyadic).magnitude := by
      rw [hzero, zero_mul]
      exact Dyadic.magnitude_nonneg _
    obtain ⟨p, hp, hbound, -⟩ := exists_parts_mul hc hd hnone (by decide) hle
    have hbelow : p.magnitude ≤ (0 : ℕ) := hbound.trans (by simp [Dyadic.magnitude])
    obtain ⟨k, hk, hkle⟩ := nearest_le hp hbelow fun _ => rfl
    exact ⟨k, hk, hkle.trans (Nat.zero_le width)⟩

end Readout

end ControlSurface
