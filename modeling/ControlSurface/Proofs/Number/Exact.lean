/-
  ControlSurface.Proofs.Number.Exact
  ──────────────────────────────────
  The numbers that doubles stand for.  A double is taken apart twice, by the library for its texts
  and by the arithmetic of doubles for its operations, and both find the same number
  (`parts_eq_unpacked`), written with at most 53 bits (`Dyadic.Canonical`).  So what an operation
  gives back unchanged can be said exactly, and where a product is rounded, it does not pass a double
  that the exact product does not pass.

  Main results:
    * `float_sub_zero`, `float_div_one` — taking nothing away and dividing by one change no finite double.
    * `exists_parts_mul` — a product is no larger than a double above the exact product.
    * `exists_ofInt?` — a natural number of at most 53 bits is a double.
-/
import ControlSurface.Proofs.Number.Plain
import Mathlib

namespace ControlSurface.Number

open Float.Model Float.Model.UnpackedFloat

/-! ## §1. A double taken apart. -/

theorem unpackExponent_toNat (b : BitVec 64) :
    (@unpackExponent Format.binary64 b).toNat = b.toNat / twoTo 52 % 2048 := by
  simp [unpackExponent, twoTo, Nat.shiftRight_eq_div_pow]

theorem unpackMantissa_toNat (b : BitVec 64) :
    (@unpackMantissa Format.binary64 b).toNat = b.toNat % twoTo 52 := by
  simp [unpackMantissa, twoTo]

theorem unpackSign_toNat (b : BitVec 64) :
    (@unpackSign Format.binary64 b).toNat = b.toNat / twoTo 63 % 2 := by
  simp [unpackSign, twoTo, Nat.shiftRight_eq_div_pow]

/-- Whether a sign is the negative one. -/
def isMinus : Sign → Bool
  | .negative => true
  | .positive => false

/-- The parts of a double as arithmetic takes it apart. -/
def unpackedParts : UnpackedFloat → Parts
  | .infinity s => .infinite (isMinus s)
  | .notANumber => .notANumber
  | .zero s => .finite ⟨isMinus s, 0, -1074⟩
  | .finite s m e _ => .finite ⟨isMinus s, m, e⟩

theorem isMinus_ofBitVec (b : BitVec 1) : isMinus (Sign.ofBitVec b) = decide (b.toNat = 1) := by
  revert b
  decide

theorem partsOfBits_eq_unpacked (b : BitVec 64) :
    partsOfBits b.toNat = unpackedParts (unpack Format.binary64 b) := by
  have hexponent := unpackExponent_toNat b
  have hmantissa := unpackMantissa_toNat b
  have hsign := unpackSign_toNat b
  have hones : (@unpackExponent Format.binary64 b = -1#_)
      ↔ b.toNat / twoTo 52 % 2048 = 2047 := by
    rw [← hexponent, ← BitVec.toNat_inj]
    rfl
  have hzeros : (@unpackExponent Format.binary64 b = 0#_)
      ↔ b.toNat / twoTo 52 % 2048 = 0 := by
    rw [← hexponent, ← BitVec.toNat_inj]
    rfl
  have hnone : (@unpackMantissa Format.binary64 b = 0#_) ↔ b.toNat % twoTo 52 = 0 := by
    rw [← hmantissa, ← BitVec.toNat_inj]
    rfl
  have hnegative : isMinus (Sign.ofBitVec (@unpackSign Format.binary64 b))
      = decide (b.toNat / twoTo 63 % 2 = 1) := by
    rw [isMinus_ofBitVec, hsign]
  have hbias : ((Format.binary64.exponentBias : Int) + Format.binary64.mantissaBitsWithoutImplicit)
      = 1075 := by decide
  have hwhole : ((1#1 ++ @unpackMantissa Format.binary64 b).toNat)
      = b.toNat % twoTo 52 + twoTo 52 := by
    have hlt : b.toNat % twoTo 52 < 2 ^ 52 := Nat.mod_lt _ (by decide)
    rw [BitVec.toNat_append, hmantissa, ← Nat.shiftLeft_add_eq_or_of_lt hlt, Nat.add_comm]
    rfl
  rw [partsOfBits]
  fun_cases UnpackedFloat.unpack Format.binary64 b with
  | case1 mantissa exponent sign s hspecial hzero =>
    rw [if_pos (hones.mp hspecial), if_pos (hnone.mp hzero)]
    exact congrArg Parts.infinite hnegative.symm
  | case2 mantissa exponent hspecial hzero =>
    rw [if_pos (hones.mp hspecial), if_neg fun h => hzero (hnone.mpr h)]
    rfl
  | case3 mantissa exponent sign s hplain hlow hzero =>
    rw [if_neg fun h => hplain (hones.mpr h), if_pos (hzeros.mp hlow), hnone.mp hzero]
    exact congrArg (fun n => Parts.finite ⟨n, 0, -1074⟩) hnegative.symm
  | case4 mantissa exponent e sign s hplain hlow hzero =>
    have he : e + 1 = -1074 := by
      have hvalue : e = ((b.toNat / twoTo 52 % 2048 : Nat) : Int) - 1075 := by
        rw [← hbias, ← hexponent]
      rw [hvalue, hzeros.mp hlow]
      rfl
    rw [if_neg fun h => hplain (hones.mpr h), if_pos (hzeros.mp hlow)]
    show _ = Parts.finite ⟨isMinus s, mantissa.toNat, e + 1⟩
    rw [he, ← hnegative, ← hmantissa]
  | case5 mantissa exponent e sign s hplain hhigh =>
    have he : e = ((b.toNat / twoTo 52 % 2048 : Nat) : Int) - 1075 := by
      rw [← hbias, ← hexponent]
    rw [if_neg fun h => hplain (hones.mpr h), if_neg fun h => hhigh (hzeros.mpr h)]
    show _ = Parts.finite ⟨isMinus s, (1#1 ++ mantissa).toNat, e⟩
    rw [he, ← hnegative, hwhole]

theorem parts_eq_unpacked (x : Float) : parts x = unpackedParts x.toModel.unpack :=
  partsOfBits_eq_unpacked x.toModel.toBits.toBitVec

/-- A finite double is a zero or a number with a mantissa, of some sign. -/
theorem unpacked_of_finite {x : Float} {d : Dyadic} (h : parts x = .finite d) :
    (∃ s, x.toModel.unpack = .zero s ∧ d = ⟨isMinus s, 0, -1074⟩)
      ∨ ∃ s m e hm, x.toModel.unpack = .finite s m e hm ∧ d = ⟨isMinus s, m, e⟩ := by
  rw [parts_eq_unpacked] at h
  cases hx : x.toModel.unpack with
  | infinity s => rw [hx] at h; cases h
  | notANumber => rw [hx] at h; cases h
  | zero s =>
    rw [hx] at h
    cases h
    exact .inl ⟨s, rfl, rfl⟩
  | finite s m e hm =>
    rw [hx] at h
    cases h
    exact .inr ⟨s, m, e, hm, rfl, rfl⟩

/-! ## §2. Exact values. -/

/-- A finite double without its sign. -/
def Dyadic.magnitude (d : Dyadic) : ℚ := d.mantissa * 2 ^ d.exponent

theorem Dyadic.magnitude_nonneg (d : Dyadic) : 0 ≤ d.magnitude :=
  mul_nonneg (Nat.cast_nonneg _) (zpow_nonneg (by norm_num) _)

/-- The number that a finite double stands for. -/
def Dyadic.value (d : Dyadic) : ℚ :=
  (if d.negative then -1 else 1) * d.magnitude

theorem Dyadic.value_positive {d : Dyadic} (h : d.negative = false) : d.value = d.magnitude := by
  rw [value, h, if_neg (by decide), one_mul]

theorem Dyadic.value_negative {d : Dyadic} (h : d.negative = true) : d.value = -d.magnitude := by
  rw [value, h, if_pos rfl, neg_one_mul]

/-- The number that a double stands for, if it is finite. -/
def rational? (x : Float) : Option ℚ :=
  match parts x with
  | .finite d => some d.value
  | _ => none

theorem rational?_eq_some_iff {x : Float} {q : ℚ} :
    rational? x = some q ↔ ∃ d, parts x = .finite d ∧ d.value = q := by
  rw [rational?]
  cases parts x <;> simp

/-- A finite double as it is written in 64 bits: a small mantissa, or one of 53 bits. -/
structure Dyadic.Canonical (d : Dyadic) : Prop where
  mantissa_lt : d.mantissa < 2 ^ 53
  exponent_ge : -1074 ≤ d.exponent
  normal : d.mantissa < 2 ^ 52 → d.exponent = -1074

theorem canonical_of_bits {bits : ℕ} {d : Dyadic} (h : partsOfBits bits = .finite d) :
    d.Canonical ∧ d.exponent ≤ 971 := by
  have hfraction : bits % twoTo 52 < 2 ^ 52 := Nat.mod_lt _ (by decide)
  have hbiased : bits / twoTo 52 % 2048 < 2048 := Nat.mod_lt _ (by decide)
  have htwo : twoTo 52 = 2 ^ 52 := rfl
  rw [partsOfBits] at h
  split at h
  · split at h <;> cases h
  · split at h <;> cases h
    · exact ⟨⟨by simp only; omega, le_refl _, fun _ => rfl⟩, by simp only; omega⟩
    · refine ⟨⟨by simp only; omega, by simp only; omega, fun hsmall => ?_⟩, by simp only; omega⟩
      simp only at hsmall
      omega

theorem canonical_of_parts {x : Float} {d : Dyadic} (h : parts x = .finite d) : d.Canonical :=
  (canonical_of_bits h).1

theorem Dyadic.ratio_pos (d : Dyadic) : 0 < d.ratio.2 := by
  rw [ratio, dyadicRatio]
  split
  · exact twoTo_pos _
  · exact Nat.one_pos

/-- The fraction of a double is its magnitude. -/
theorem Dyadic.ratio_eq (d : Dyadic) : (d.ratio.1 : ℚ) / d.ratio.2 = d.mantissa * 2 ^ d.exponent := by
  rw [ratio, dyadicRatio]
  split
  next hneg =>
    have hexponent : d.exponent = -(d.exponent.natAbs : ℤ) := by omega
    have htwo : ((twoTo d.exponent.natAbs : ℕ) : ℚ) = 2 ^ d.exponent.natAbs := by
      exact_mod_cast rfl
    rw [hexponent, zpow_neg, zpow_natCast, Int.natAbs_neg, Int.natAbs_natCast, ← div_eq_mul_inv]
    exact congrArg _ htwo
  next hnonneg =>
    have hexponent : d.exponent = (d.exponent.natAbs : ℤ) := by omega
    have htwo : ((twoTo d.exponent.natAbs : ℕ) : ℚ) = 2 ^ d.exponent.natAbs := by
      exact_mod_cast rfl
    rw [hexponent, zpow_natCast, Int.natAbs_natCast, Nat.cast_one, div_one, Nat.cast_mul]
    exact congrArg _ htwo

/-! ## §3. Operations that change nothing. -/

theorem unpack_zero : (0.0 : Float).toModel.unpack = .zero .positive := by with_unfolding_all rfl

theorem unpack_one : (1.0 : Float).toModel.unpack = .finite .positive (2 ^ 52) (-52) (by decide) := by
  with_unfolding_all rfl

theorem ofModel_pack_unpack (x : Float) : Float.ofModel (Float.Model.pack x.toModel.unpack) = x :=
  Float.ofBits_toBits x

/-- Nothing is taken away. -/
theorem float_sub_zero {x : Float} {d : Dyadic} (h : parts x = .finite d) : x - 0.0 = x := by
  have hsame : UnpackedFloat.sub Format.binary64 x.toModel.unpack (.zero .positive)
      = x.toModel.unpack := by
    rcases unpacked_of_finite h with ⟨s, hx, rfl⟩ | ⟨s, m, e, hm, hx, rfl⟩
    · rw [hx]
      cases s <;> rfl
    · rw [hx]
      rfl
  show Float.ofModel (Float.Model.pack (UnpackedFloat.sub Format.binary64 x.toModel.unpack
    (0.0 : Float).toModel.unpack)) = x
  rw [unpack_zero, hsame, ofModel_pack_unpack]

theorem repeat_shiftRightOne (m k : ℕ) :
    Nat.repeat ExtendedMantissa.shiftRightOne k ⟨m * 2 ^ k, false, false⟩ = ⟨m, false, false⟩ := by
  induction k generalizing m with
  | zero => simp [Nat.repeat]
  | succ k ih =>
    rw [Nat.repeat, Nat.pow_succ, ← Nat.mul_assoc, Nat.mul_right_comm, ih]
    simp [ExtendedMantissa.shiftRightOne]

theorem log2_mul_two_pow {m : ℕ} (hm : 0 < m) (k : ℕ) : (m * 2 ^ k).log2 = m.log2 + k := by
  induction k with
  | zero => rw [Nat.pow_zero, Nat.mul_one, Nat.add_zero]
  | succ k ih =>
    have hne : m * 2 ^ k ≠ 0 := (Nat.mul_pos hm (Nat.two_pow_pos k)).ne'
    rw [Nat.pow_succ, ← Nat.mul_assoc, Nat.mul_comm (m * 2 ^ k), Nat.log2_two_mul hne, ih]
    rfl

/-- The exponent that a number of some bits is given. -/
theorem Dyadic.Canonical.targetExponent_eq {d : Dyadic} (h : d.Canonical) (hm : 0 < d.mantissa)
    (k : ℕ) :
    Format.binary64.targetExponent (totalExponent (d.mantissa * 2 ^ k) (d.exponent - k))
      = d.exponent := by
  have hlog := log2_mul_two_pow hm k
  have hbits : (Format.binary64.mantissaBits : ℤ) = 53 := by decide
  have hleast : Format.binary64.minExponent = -1074 := by decide
  have hlt : d.mantissa.log2 < 53 := (Nat.log2_lt hm.ne').mpr h.mantissa_lt
  rw [Format.targetExponent, totalExponent, hlog, hbits, hleast]
  by_cases hsmall : d.mantissa < 2 ^ 52
  · have hexponent := h.normal hsmall
    have hlow : d.mantissa.log2 < 52 := (Nat.log2_lt hm.ne').mpr hsmall
    omega
  · have hhigh : ¬ d.mantissa.log2 < 52 := fun hlow => hsmall ((Nat.log2_lt hm.ne').mp hlow)
    have hge := h.exponent_ge
    omega

/-- The bits that a number is written with beyond its own are shifted out again. -/
theorem Dyadic.Canonical.shift_eq {d : Dyadic} (h : d.Canonical) (hm : 0 < d.mantissa) (k : ℕ) :
    shiftToTargetExponent Format.binary64 (d.mantissa * 2 ^ k) (d.exponent - k) .exact
      = (⟨d.mantissa, false, false⟩, d.exponent) := by
  have hshift : (d.exponent - (d.exponent - k)).toNat = k := by omega
  rw [shiftToTargetExponent, h.targetExponent_eq hm, shiftToExponent, hshift]
  refine Prod.ext (repeat_shiftRightOne _ _) ?_
  show d.exponent - k + k = d.exponent
  omega

/-- A number that is written with more bits is rounded to itself. -/
theorem Dyadic.Canonical.round_eq {d : Dyadic} (h : d.Canonical) (hm : 0 < d.mantissa)
    (s : Sign) (k : ℕ) :
    roundWithAccuracy Format.binary64 s (d.mantissa * 2 ^ k) (d.exponent - k) .exact
      = .finite s d.mantissa d.exponent hm := by
  have hagain := h.shift_eq hm 0
  rw [Nat.pow_zero, Nat.mul_one, Nat.cast_zero, Int.sub_zero] at hagain
  have hmantissa : (⟨d.mantissa, false, false⟩ : ExtendedMantissa).roundedMantissa = d.mantissa :=
    rfl
  simp only [roundWithAccuracy, h.shift_eq hm k, hmantissa, hagain, hm.ne', dite_false]

/-- The quotient by one is the number, written with more bits. -/
theorem Dyadic.Canonical.divCore_one {d : Dyadic} (h : d.Canonical) (hm : 0 < d.mantissa) :
    ∃ k : ℕ, divCore Format.binary64 d.mantissa d.exponent (2 ^ 52) (-52)
      = (d.mantissa * 2 ^ k, d.exponent - k, .exact) := by
  have hlt : d.mantissa.log2 < 53 := (Nat.log2_lt hm.ne').mpr h.mantissa_lt
  have hge := h.exponent_ge
  have hbits : (Format.binary64.mantissaBits : ℤ) = 53 := by decide
  have hleast : Format.binary64.minExponent = -1074 := by decide
  have htwo : (2 ^ 52 : ℕ).log2 = 52 := Nat.log2_two_pow
  -- the exponent of the quotient is no larger than that of the number, so no bit is lost
  obtain ⟨k, hk⟩ : ∃ k : ℕ, min (d.exponent - -52) (Format.binary64.targetExponent
      (totalExponent d.mantissa d.exponent - totalExponent (2 ^ 52) (-52))) = d.exponent - k := by
    rw [Format.targetExponent, totalExponent, totalExponent, hbits, hleast, htwo]
    exact ⟨(d.exponent - max (d.mantissa.log2 + d.exponent - 53) (-1074)).toNat, by omega⟩
  have hshift : (d.exponent - -52 - (d.exponent - k)).toNat = 52 + k := by omega
  have hwritten : d.mantissa <<< (52 + k) = 2 ^ 52 * (d.mantissa * 2 ^ k) := by
    rw [Nat.shiftLeft_eq, Nat.pow_add]
    ring
  refine ⟨k, ?_⟩
  rw [divCore, hk, hshift, hwritten, Nat.mul_div_cancel_left _ (by decide), Nat.mul_mod_right]
  rfl

/-- Division by one. -/
theorem float_div_one {x : Float} {d : Dyadic} (h : parts x = .finite d) : x / 1.0 = x := by
  have hcanonical := canonical_of_parts h
  have hsame : UnpackedFloat.div Format.binary64 x.toModel.unpack
      (.finite .positive (2 ^ 52) (-52) (by decide)) = x.toModel.unpack := by
    rcases unpacked_of_finite h with ⟨s, hx, rfl⟩ | ⟨s, m, e, hm, hx, rfl⟩
    · rw [hx]
      cases s <;> rfl
    · rw [hx]
      obtain ⟨k, hcore⟩ := hcanonical.divCore_one hm
      have hsign : s / Sign.positive = s := by cases s <;> rfl
      show (fun c : ℕ × ℤ × Accuracy =>
        roundWithAccuracy Format.binary64 (s / .positive) c.1 c.2.1 c.2.2) (divCore _ _ _ _ _) = _
      rw [hcore, hsign]
      exact hcanonical.round_eq hm s k
  show Float.ofModel (Float.Model.pack (UnpackedFloat.div Format.binary64 x.toModel.unpack
    (1.0 : Float).toModel.unpack)) = x
  rw [unpack_one, hsame, ofModel_pack_unpack]

/-! ## §4. Packed numbers. -/

/-- What the parts of a number are put together to: the exponent 0 stands for the small mantissas. -/
theorem unpack_components (s : Sign) {e : BitVec 11} (he : e ≠ -1#11) (m : BitVec 52) :
    UnpackedFloat.unpack Format.binary64 (packComponents Format.binary64 s e m)
      = if e = 0#11 then
          if h : m = 0#52 then .zero s else .finite s m.toNat (-1074)
            (Nat.pos_of_ne_zero fun hzero => h (BitVec.eq_of_toNat_eq hzero))
        else .finite s (m.toNat + 2 ^ 52) (e.toNat - 1075) (by omega) := by
  have hwhole : (1#1 ++ m).toNat = m.toNat + 2 ^ 52 := by
    rw [BitVec.toNat_append, ← Nat.shiftLeft_add_eq_or_of_lt m.isLt, Nat.add_comm]
    rfl
  unfold UnpackedFloat.unpack
  simp only [unpackMantissa_packComponents, unpackExponent_packComponents,
    unpackSign_packComponents, Sign.ofBitVec_toBitVec, if_neg he]
  split
  next hzero =>
    subst hzero
    split <;> rfl
  next => congr 1

/-- **A number of at most 53 bits is packed without loss**, unless it is too large. -/
theorem Dyadic.Canonical.unpack_pack {d : Dyadic} (h : d.Canonical) (hlarge : d.exponent ≤ 971)
    (s : Sign) (hm : 0 < d.mantissa) :
    UnpackedFloat.unpack Format.binary64
        (UnpackedFloat.pack Format.binary64 (.finite s d.mantissa d.exponent hm))
      = .finite s d.mantissa d.exponent hm := by
  have hge := h.exponent_ge
  have hbias : (d.exponent + (Format.binary64.exponentBias : ℤ)
      + (Format.binary64.mantissaBitsWithoutImplicit : ℤ)) = d.exponent + 1075 := by
    show d.exponent + 1023 + 52 = _
    omega
  have hfits : ¬ 2 ^ Format.binary64.exponentBits ≤ (d.exponent + 1075).toNat + 1 := by
    show ¬ 2048 ≤ _
    omega
  have hwidth : Format.binary64.mantissaBits = 53 := rfl
  rw [UnpackedFloat.pack, hbias, if_neg hfits, hwidth]
  by_cases hsmall : d.mantissa < 2 ^ 52
  · have hexponent := h.normal hsmall
    have hbits : ¬ d.mantissa.log2 + 1 = 53 := by
      have := (Nat.log2_lt hm.ne').mpr hsmall
      omega
    have hfraction : (BitVec.ofNat 52 d.mantissa).toNat = d.mantissa := Nat.mod_eq_of_lt hsmall
    have hsome : BitVec.ofNat 52 d.mantissa ≠ 0#52 := fun heq => by
      rw [heq] at hfraction
      exact hm.ne hfraction
    rw [if_neg hbits]
    refine (unpack_components s (by decide) _).trans ?_
    rw [if_pos rfl, dif_neg hsome]
    congr 1
    exact hexponent.symm
  · have hlog : d.mantissa.log2 = 52 :=
      (Nat.log2_eq_iff hm.ne').mpr ⟨Nat.not_lt.mp hsmall, h.mantissa_lt⟩
    have hexponent : (BitVec.ofNat 11 (d.exponent + 1075).toNat).toNat
        = (d.exponent + 1075).toNat := Nat.mod_eq_of_lt (by omega)
    have hfraction : (BitVec.ofNat 52 d.mantissa).toNat + 2 ^ 52 = d.mantissa := by
      have hlt := h.mantissa_lt
      show d.mantissa % 2 ^ 52 + 2 ^ 52 = _
      omega
    have hnotOnes : BitVec.ofNat 11 (d.exponent + 1075).toNat ≠ -1#11 := fun heq => by
      rw [heq] at hexponent
      have : (-1#11).toNat = 2047 := rfl
      omega
    have hnotZero : BitVec.ofNat 11 (d.exponent + 1075).toNat ≠ 0#11 := fun heq => by
      rw [heq] at hexponent
      have : (0#11).toNat = 0 := rfl
      omega
    rw [if_pos (by rw [hlog])]
    refine (unpack_components s hnotOnes _).trans ?_
    rw [if_neg hnotZero]
    congr 1
    rw [hexponent]
    omega

/-- The parts of a number that was packed. -/
theorem Dyadic.Canonical.parts_pack {d : Dyadic} (h : d.Canonical) (hlarge : d.exponent ≤ 971)
    (s : Sign) (hm : 0 < d.mantissa) :
    parts (Float.ofModel (Float.Model.pack (.finite s d.mantissa d.exponent hm)))
      = .finite ⟨isMinus s, d.mantissa, d.exponent⟩ := by
  rw [parts_eq_unpacked]
  exact congrArg unpackedParts (h.unpack_pack hlarge s hm)

theorem parts_pack_zero (s : Sign) :
    parts (Float.ofModel (Float.Model.pack (.zero s))) = .finite ⟨isMinus s, 0, -1074⟩ := by
  rw [parts_eq_unpacked]
  exact congrArg unpackedParts unpack_packedZero

/-- A double has the parts of the bits that it is made of. -/
theorem parts_ofBits {b : UInt64} {d : Dyadic} (h : partsOfBits b.toNat = .finite d) :
    parts (Float.ofBits b) = .finite d := by
  obtain ⟨hcanonical, hlarge⟩ := canonical_of_bits h
  have hmodel : Float.ofBits b
      = Float.ofModel (Float.Model.pack (UnpackedFloat.unpack Format.binary64 b.toBitVec)) := rfl
  have hunpacked : unpackedParts (UnpackedFloat.unpack Format.binary64 b.toBitVec) = .finite d :=
    (partsOfBits_eq_unpacked b.toBitVec).symm.trans h
  rw [hmodel]
  cases hb : UnpackedFloat.unpack Format.binary64 b.toBitVec with
  | infinity s => rw [hb] at hunpacked; cases hunpacked
  | notANumber => rw [hb] at hunpacked; cases hunpacked
  | zero s =>
    rw [hb] at hunpacked
    exact (parts_pack_zero s).trans hunpacked
  | finite s m e hm =>
    rw [hb] at hunpacked
    cases hunpacked
    exact hcanonical.parts_pack hlarge s hm

theorem toNat_ofNat_bits {bits : ℕ} (h : bits < 2 ^ 64) : (UInt64.ofNat bits).toNat = bits :=
  Nat.mod_eq_of_lt h

/-- Bits below those of infinity make a finite double. -/
theorem finite_ofBits (negative : Bool) {bits : ℕ} (h : bits < infinityBits) :
    ∃ d, parts (ofBits negative bits) = .finite d := by
  have hinf : infinityBits = 2047 * 2 ^ 52 := rfl
  obtain ⟨w, hw, hlt, hbiased⟩ : ∃ w, bits + (if negative then twoTo 63 else 0) = w ∧ w < 2 ^ 64
      ∧ w / 2 ^ 52 % 2048 ≠ 2047 := by
    refine ⟨_, rfl, ?_⟩
    rw [show twoTo 63 = 2 ^ 63 from rfl]
    split <;> omega
  obtain ⟨d, hd⟩ : ∃ d, partsOfBits w = .finite d := by
    rw [partsOfBits, show twoTo 52 = 2 ^ 52 from rfl, if_neg hbiased]
    by_cases hzero : w / 2 ^ 52 % 2048 = 0
    · exact ⟨_, if_pos hzero⟩
    · exact ⟨_, if_neg hzero⟩
  refine ⟨d, parts_ofBits ?_⟩
  rw [hw, toNat_ofNat_bits hlt, hd]

theorem finite_of_ofRatio? {negative : Bool} {num den : ℕ} {x : Float}
    (h : ofRatio? negative num den = some x) : ∃ d, parts x = .finite d := by
  unfold ofRatio? at h
  dsimp only at h
  split at h
  next hlt =>
    cases h
    exact finite_ofBits negative hlt
  next => cases h

/-! ## §5. Products. -/

theorem mantissa_shiftRight (k : ℕ) (em : ExtendedMantissa) :
    (Nat.repeat ExtendedMantissa.shiftRightOne k em).mantissa = em.mantissa / 2 ^ k := by
  induction k with
  | zero => rw [Nat.repeat, Nat.pow_zero, Nat.div_one]
  | succ k ih =>
    rw [Nat.repeat, Nat.pow_succ, ← Nat.div_div_eq_div_mul, ← ih]
    rfl

theorem roundToNearestEven_le (m : ℕ) (a : Accuracy) : a.roundToNearestEven m ≤ m + 1 := by
  unfold Accuracy.roundToNearestEven
  split <;> omega

theorem le_roundToNearestEven (m : ℕ) (a : Accuracy) : m ≤ a.roundToNearestEven m := by
  unfold Accuracy.roundToNearestEven
  split <;> omega

/-- The bits of a number that are shifted out, rounded up or down. -/
def shiftedOut (m k : ℕ) : ℕ :=
  (Nat.repeat ExtendedMantissa.shiftRightOne k ⟨m, false, false⟩).roundedMantissa

theorem shiftedOut_le {m k n : ℕ} (h : m ≤ n * 2 ^ k) : shiftedOut m k ≤ n := by
  have hpos : 0 < 2 ^ k := Nat.two_pow_pos k
  rcases Nat.lt_or_ge (m / 2 ^ k) n with hless | hmore
  · refine (roundToNearestEven_le _ _).trans ?_
    rw [mantissa_shiftRight]
    exact hless
  · -- nothing is lost where the bound is met
    have hexact : m = n * 2 ^ k := le_antisymm h ((Nat.le_div_iff_mul_le hpos).mp hmore)
    rw [hexact, shiftedOut, repeat_shiftRightOne]
    exact le_refl n

theorem le_shiftedOut {m k n : ℕ} (h : n * 2 ^ k ≤ m) : n ≤ shiftedOut m k := by
  refine ((Nat.le_div_iff_mul_le (Nat.two_pow_pos k)).mpr h).trans ?_
  refine le_trans ?_ (le_roundToNearestEven _ _)
  rw [mantissa_shiftRight]

section Rounding

variable {m k : ℕ} {e t : ℤ}

/-- The bits beyond the 53 that are kept are shifted out. -/
theorem shiftToTarget_eq (ht : Format.binary64.targetExponent (totalExponent m e) = t)
    (hk : t = e + k) : shiftToTargetExponent Format.binary64 m e .exact
      = (Nat.repeat ExtendedMantissa.shiftRightOne k ⟨m, false, false⟩, t) := by
  have hamount : (t - e).toNat = k := by omega
  rw [shiftToTargetExponent, ht, shiftToExponent, hamount]
  exact Prod.ext rfl hk.symm

/-- A number is rounded to what is left of its bits, if that is written with its own bits. -/
theorem Dyadic.Canonical.round_shifted {d : Dyadic} (h : d.Canonical) (hm : 0 < d.mantissa)
    (ht : Format.binary64.targetExponent (totalExponent m e) = t) (hk : t = e + k) {j : ℕ}
    (hmantissa : shiftedOut m k = d.mantissa * 2 ^ j) (hexponent : t = d.exponent - j) (s : Sign) :
    roundWithAccuracy Format.binary64 s m e .exact = .finite s d.mantissa d.exponent hm := by
  have hsecond := h.shift_eq hm j
  rw [← hmantissa, ← hexponent] at hsecond
  have hrounded : (Nat.repeat ExtendedMantissa.shiftRightOne k ⟨m, false, false⟩).roundedMantissa
      = shiftedOut m k := rfl
  simp only [roundWithAccuracy, shiftToTarget_eq ht hk, hrounded, hsecond, hm.ne', dite_false]

theorem round_zero (ht : Format.binary64.targetExponent (totalExponent m e) = t) (hk : t = e + k)
    (hzero : shiftedOut m k = 0) (s : Sign) :
    roundWithAccuracy Format.binary64 s m e .exact = .zero s := by
  have hrounded : (Nat.repeat ExtendedMantissa.shiftRightOne k ⟨m, false, false⟩).roundedMantissa
      = 0 := hzero
  have hsecond : (shiftToTargetExponent Format.binary64 0 t .exact).1.mantissa = 0 :=
    (mantissa_shiftRight _ _).trans (Nat.zero_div _)
  simp only [roundWithAccuracy, shiftToTarget_eq ht hk, hrounded, hsecond, dite_true]

/-- The leading bit of a number stands no higher than that of a number above it. -/
theorem Dyadic.log2_le {b : Dyadic} (hm : 0 < m) (hle : (m : ℚ) * 2 ^ e ≤ b.magnitude) :
    m.log2 + e ≤ b.mantissa.log2 + b.exponent := by
  have htwo : (0 : ℚ) < 2 := by norm_num
  have hlow : ((2 ^ m.log2 : ℕ) : ℚ) ≤ m := by exact_mod_cast Nat.log2_self_le hm.ne'
  have hhigh : (b.mantissa : ℚ) < ((2 ^ (b.mantissa.log2 + 1) : ℕ) : ℚ) := by
    exact_mod_cast Nat.lt_log2_self
  have hlt : (2 : ℚ) ^ ((m.log2 : ℤ) + e) < 2 ^ ((b.mantissa.log2 : ℤ) + 1 + b.exponent) := by
    calc (2 : ℚ) ^ ((m.log2 : ℤ) + e) = ((2 ^ m.log2 : ℕ) : ℚ) * 2 ^ e := by
          rw [zpow_add₀ htwo.ne', zpow_natCast, Nat.cast_pow, Nat.cast_ofNat]
      _ ≤ m * 2 ^ e := mul_le_mul_of_nonneg_right hlow (zpow_nonneg htwo.le _)
      _ ≤ b.mantissa * 2 ^ b.exponent := hle
      _ < ((2 ^ (b.mantissa.log2 + 1) : ℕ) : ℚ) * 2 ^ b.exponent :=
          mul_lt_mul_of_pos_right hhigh (zpow_pos htwo _)
      _ = 2 ^ ((b.mantissa.log2 : ℤ) + 1 + b.exponent) := by
          rw [zpow_add₀ htwo.ne', ← Nat.cast_succ, zpow_natCast, Nat.cast_pow, Nat.cast_ofNat]
  have hexponents := (zpow_lt_zpow_iff_right₀ (by norm_num : (1 : ℚ) < 2)).mp hlt
  omega

theorem Dyadic.Canonical.log2_le {d : Dyadic} (h : d.Canonical) : d.mantissa.log2 ≤ 52 := by
  rcases Nat.eq_zero_or_pos d.mantissa with hzero | hpos
  · rw [hzero]
    decide
  · exact Nat.le_of_lt_succ ((Nat.log2_lt hpos.ne').mpr h.mantissa_lt)

/-- The exponent that a number is rounded to is no larger than that of a double above it. -/
theorem Dyadic.Canonical.target_le {b : Dyadic} (hb : b.Canonical) (hm : 0 < m)
    (hle : (m : ℚ) * 2 ^ e ≤ b.magnitude) :
    max ((m.log2 : ℤ) + 1 + e - 53) (-1074) ≤ b.exponent := by
  have hleading := Dyadic.log2_le hm hle
  have hbits := hb.log2_le
  have hge := hb.exponent_ge
  exact max_le (by omega) hge

/-- A double in units of a smaller exponent. -/
theorem Dyadic.magnitude_eq (d : Dyadic) {t : ℤ} {g : ℕ} (hg : d.exponent = t + g) :
    d.magnitude = ((d.mantissa * 2 ^ g : ℕ) : ℚ) * 2 ^ t := by
  rw [magnitude, hg, zpow_add₀ two_ne_zero, zpow_natCast]
  push_cast
  ring

/-- The bits that are kept of a number, rounded, are no more than those of a double above it, and
they are 53 or the exponent is the least one. -/
theorem shiftedOut_bounds {b : Dyadic} (hm : 0 < m)
    (hle : (m : ℚ) * 2 ^ e ≤ b.magnitude)
    (ht : max ((m.log2 : ℤ) + 1 + e - 53) (-1074) = t) (hk : t = e + k) {g : ℕ}
    (hg : b.exponent = t + g) :
    shiftedOut m k ≤ b.mantissa * 2 ^ g ∧ shiftedOut m k ≤ 2 ^ 53
      ∧ (shiftedOut m k < 2 ^ 52 → t = -1074) := by
  refine ⟨shiftedOut_le ?_, shiftedOut_le ?_, fun hsmall => ?_⟩
  · have hcast : (m : ℚ) * 2 ^ e ≤ ((b.mantissa * 2 ^ g * 2 ^ k : ℕ) : ℚ) * 2 ^ e := by
      refine (hle.trans (b.magnitude_eq hg).le).trans (le_of_eq ?_)
      rw [hk, zpow_add₀ two_ne_zero, zpow_natCast]
      push_cast
      ring
    exact_mod_cast le_of_mul_le_mul_right hcast (zpow_pos two_pos e)
  · rw [← Nat.pow_add]
    exact (Nat.lt_log2_self.le).trans (Nat.pow_le_pow_right two_pos (by omega))
  · by_contra hne
    refine absurd (le_shiftedOut (n := 2 ^ 52) ?_) (Nat.not_le.mpr hsmall)
    rw [← Nat.pow_add]
    exact (Nat.pow_le_pow_right two_pos (by omega)).trans (Nat.log2_self_le hm.ne')

/-- **What a number is rounded to is no larger than a double above the number.** -/
theorem Dyadic.Canonical.exists_rounded {b : Dyadic} (hb : b.Canonical) (hm : 0 < m)
    (he : e ≤ max ((m.log2 : ℤ) + 1 + e - 53) (-1074)) (hle : (m : ℚ) * 2 ^ e ≤ b.magnitude)
    (s : Sign) : roundWithAccuracy Format.binary64 s m e .exact = .zero s
      ∨ ∃ (d : Dyadic) (hd : 0 < d.mantissa),
        roundWithAccuracy Format.binary64 s m e .exact = .finite s d.mantissa d.exponent hd
          ∧ d.Canonical ∧ d.exponent ≤ b.exponent ∧ d.magnitude ≤ b.magnitude := by
  obtain ⟨t, htarget⟩ : ∃ t, max ((m.log2 : ℤ) + 1 + e - 53) (-1074) = t := ⟨_, rfl⟩
  have ht : Format.binary64.targetExponent (totalExponent m e) = t := htarget
  have hleast : -1074 ≤ t := htarget ▸ le_max_right _ _
  have htb : t ≤ b.exponent := htarget ▸ hb.target_le hm hle
  obtain ⟨k, hk⟩ : ∃ k : ℕ, t = e + k := ⟨(t - e).toNat, by omega⟩
  obtain ⟨g, hg⟩ : ∃ g : ℕ, b.exponent = t + g := ⟨(b.exponent - t).toNat, by omega⟩
  obtain ⟨hkept, hwidth, hnormal⟩ := shiftedOut_bounds hm hle htarget hk hg
  have hmagnitude : ((shiftedOut m k : ℕ) : ℚ) * 2 ^ t ≤ b.magnitude := by
    rw [b.magnitude_eq hg]
    exact mul_le_mul_of_nonneg_right (by exact_mod_cast hkept) (zpow_nonneg two_pos.le _)
  rcases Nat.eq_zero_or_pos (shiftedOut m k) with hzero | hpos
  · exact .inl (round_zero ht hk hzero s)
  right
  rcases hwidth.lt_or_eq with hlt | hfull
  · have hcanonical : (⟨false, shiftedOut m k, t⟩ : Dyadic).Canonical := ⟨hlt, hleast, hnormal⟩
    have hround := hcanonical.round_shifted hpos ht hk (j := 0) (Nat.mul_one _).symm
      (Int.sub_zero t).symm s
    exact ⟨_, hpos, hround, hcanonical, htb, hmagnitude⟩
  · -- rounding up gave one bit too many, which the exponent takes
    have hnext : -1074 ≤ t + 1 := by omega
    have hcanonical : (⟨false, 2 ^ 52, t + 1⟩ : Dyadic).Canonical :=
      ⟨Nat.pow_lt_pow_right one_lt_two (Nat.lt_succ_self 52), hnext,
        fun h => absurd h (Nat.lt_irrefl _)⟩
    have hround := hcanonical.round_shifted (Nat.two_pow_pos 52) ht hk (j := 1) hfull
      (Int.add_sub_cancel t 1).symm s
    have hexponent : t + 1 ≤ b.exponent := by
      by_contra hmore
      have hsame : g = 0 := by omega
      rw [hfull, hsame, Nat.pow_zero, Nat.mul_one] at hkept
      exact absurd hb.mantissa_lt (Nat.not_lt.mpr hkept)
    refine ⟨_, Nat.two_pow_pos 52, hround, hcanonical, hexponent, ?_⟩
    rw [hfull] at hmagnitude
    rw [Dyadic.magnitude_eq _ (t := t) (g := 1) rfl]
    exact hmagnitude

end Rounding

/-- The exponent of an exact product is no larger than the one that it is rounded to. -/
theorem exponent_add_le {n n' : Bool} {m m' : ℕ} {e e' : ℤ} (hm : 0 < m) (hm' : 0 < m')
    (hc : (⟨n, m, e⟩ : Dyadic).Canonical) (hd : (⟨n', m', e'⟩ : Dyadic).Canonical) :
    e + e' ≤ max (((m * m').log2 : ℤ) + 1 + (e + e') - 53) (-1074) := by
  rcases Nat.lt_or_ge (m * m') (2 ^ 52) with hsmall | hbig
  · have he : e = -1074 := hc.normal ((Nat.le_mul_of_pos_right _ hm').trans_lt hsmall)
    have he' : e' = -1074 := hd.normal ((Nat.le_mul_of_pos_left _ hm).trans_lt hsmall)
    exact le_max_of_le_right (by omega)
  · have hlog := (Nat.le_log2 (Nat.mul_pos hm hm').ne').mpr hbig
    exact le_max_of_le_left (by omega)

theorem isMinus_mul (s s' : Sign) : isMinus (s * s') = true → isMinus s = true ∨ isMinus s' = true := by
  cases s with
  | negative => exact fun _ => .inl rfl
  | positive =>
    cases s' with
    | negative => exact fun _ => .inr rfl
    | positive => exact fun h => nomatch h

/-- A product of zero or of what is rounded to zero. -/
theorem exists_parts_zero {x : Float} {s s' : Sign}
    (h : x = Float.ofModel (Float.Model.pack (.zero (s * s')))) {b : Dyadic} :
    ∃ p, parts x = .finite p ∧ p.magnitude ≤ b.magnitude
      ∧ (p.negative = true → isMinus s = true ∨ isMinus s' = true) := by
  refine ⟨_, (congrArg parts h).trans (parts_pack_zero _), ?_, ?_⟩
  · rw [Dyadic.magnitude, Nat.cast_zero, zero_mul]
    exact b.magnitude_nonneg
  · exact isMinus_mul s s'

/-- **A product is no larger than a double above the exact product.** -/
theorem exists_parts_mul {x y : Float} {c d b : Dyadic} (hx : parts x = .finite c)
    (hy : parts y = .finite d) (hb : b.Canonical) (hlarge : b.exponent ≤ 971)
    (hle : c.magnitude * d.magnitude ≤ b.magnitude) :
    ∃ p, parts (x * y) = .finite p ∧ p.magnitude ≤ b.magnitude
      ∧ (p.negative = true → c.negative = true ∨ d.negative = true) := by
  have hproduct : x * y = Float.ofModel (Float.Model.pack (UnpackedFloat.mul Format.binary64
    x.toModel.unpack y.toModel.unpack)) := rfl
  rcases unpacked_of_finite hx with ⟨s, hxu, rfl⟩ | ⟨s, m, e, hm, hxu, rfl⟩ <;>
    rcases unpacked_of_finite hy with ⟨s', hyu, rfl⟩ | ⟨s', m', e', hm', hyu, rfl⟩ <;>
    rw [hxu, hyu] at hproduct
  · exact exists_parts_zero hproduct
  · exact exists_parts_zero hproduct
  · exact exists_parts_zero hproduct
  · have hexact : ((m * m' : ℕ) : ℚ) * 2 ^ (e + e') ≤ b.magnitude := by
      refine (le_of_eq ?_).trans hle
      rw [Dyadic.magnitude, Dyadic.magnitude, zpow_add₀ two_ne_zero]
      push_cast
      ring
    have hmul : UnpackedFloat.mul Format.binary64 (.finite s m e hm) (.finite s' m' e' hm')
        = roundWithAccuracy Format.binary64 (s * s') (m * m') (e + e') .exact := rfl
    rw [hmul] at hproduct
    have hadd := exponent_add_le hm hm' (canonical_of_parts hx) (canonical_of_parts hy)
    rcases hb.exists_rounded (Nat.mul_pos hm hm') hadd hexact (s * s') with hround | ⟨p, hp, hround, hcanonical, hexponent, hmagnitude⟩
    · rw [hround] at hproduct
      exact exists_parts_zero hproduct
    · rw [hround] at hproduct
      refine ⟨_, (congrArg parts hproduct).trans
        (hcanonical.parts_pack (hexponent.trans hlarge) (s * s') hp), hmagnitude, ?_⟩
      exact isMinus_mul s s'

/-! ## §6. Quotients. -/

/-- A quotient is rounded up by one at most. -/
theorem roundQuotient_le_succ (n den : ℕ) : roundQuotient n den ≤ n / den + 1 := by
  unfold roundQuotient
  dsimp only
  split_ifs <;> omega

/-- A mantissa has no more than 54 bits. -/
theorem mantissa_le {num den : ℕ} {e : ℤ} (hden : 0 < den)
    (he : (num.log2 : ℤ) - den.log2 - 53 ≤ e) :
    (if e < 0 then roundQuotient (num * twoTo e.natAbs) den
      else roundQuotient num (den * twoTo e.natAbs)) ≤ 2 ^ 54 := by
  have hnum : num < 2 ^ (num.log2 + 1) := Nat.lt_log2_self
  have hlow : 2 ^ den.log2 ≤ den := Nat.log2_self_le hden.ne'
  have htwo : twoTo e.natAbs = 2 ^ e.natAbs := rfl
  rw [htwo]
  split
  next hneg =>
    refine (roundQuotient_le_succ _ _).trans ((Nat.div_lt_iff_lt_mul hden).mpr ?_)
    calc num * 2 ^ e.natAbs < 2 ^ (num.log2 + 1) * 2 ^ e.natAbs :=
          Nat.mul_lt_mul_of_pos_right hnum (Nat.two_pow_pos _)
      _ ≤ 2 ^ 54 * 2 ^ den.log2 := by
          rw [← Nat.pow_add, ← Nat.pow_add]
          exact Nat.pow_le_pow_right two_pos (by omega)
      _ ≤ 2 ^ 54 * den := Nat.mul_le_mul_left _ hlow
  next hnonneg =>
    refine (roundQuotient_le_succ _ _).trans
      ((Nat.div_lt_iff_lt_mul (Nat.mul_pos hden (Nat.two_pow_pos _))).mpr ?_)
    calc num < 2 ^ (num.log2 + 1) := hnum
      _ ≤ 2 ^ 54 * (2 ^ den.log2 * 2 ^ e.natAbs) := by
          rw [← Nat.pow_add, ← Nat.pow_add]
          exact Nat.pow_le_pow_right two_pos (by omega)
      _ ≤ 2 ^ 54 * (den * 2 ^ e.natAbs) :=
          Nat.mul_le_mul_left _ (Nat.mul_le_mul_right _ hlow)

/-- A quotient of a number of no more than 1000 bits is not too large for a double. -/
theorem bitsOfRatio_lt {num den : ℕ} (hnum : num.log2 < 1000) (hden : 0 < den) :
    bitsOfRatio num den < infinityBits := by
  have hinf : infinityBits = 2047 * 2 ^ 52 := rfl
  have htwo : twoTo 52 = 2 ^ 52 := rfl
  unfold bitsOfRatio
  split
  next => exact Nat.mul_pos (by decide) (twoTo_pos 52)
  next =>
    obtain ⟨e, he, hlow, hhigh⟩ : ∃ e : ℤ, max (-1074) (if (if (num.log2 : ℤ) - den.log2 < 0 then
          decide (den ≤ num * twoTo ((num.log2 : ℤ) - den.log2).natAbs)
        else decide (den * twoTo ((num.log2 : ℤ) - den.log2).natAbs ≤ num)) then
          (num.log2 : ℤ) - den.log2 - 52 else (num.log2 : ℤ) - den.log2 - 53) = e
        ∧ (num.log2 : ℤ) - den.log2 - 53 ≤ e ∧ e ≤ 947 := by
      refine ⟨_, rfl, le_max_of_le_right ?_, max_le (by norm_num) ?_⟩
      · split_ifs <;> omega
      · split_ifs <;> omega
    have hmantissa := mantissa_le hden hlow
    dsimp only
    rw [he, htwo, hinf]
    generalize (if e < 0 then roundQuotient (num * twoTo e.natAbs) den
      else roundQuotient num (den * twoTo e.natAbs)) = m at hmantissa ⊢
    omega

/-- The bits of a number of 53 bits and what is put in front of them. -/
theorem parts_ofBits_normal {m k : ℕ} (hlow : 2 ^ 52 ≤ m) (hhigh : m < 2 ^ 53) (hk : k < 2046) :
    parts (ofBits false (k * 2 ^ 52 + m)) = .finite ⟨false, m, k - 1074⟩ := by
  have hbiased : (k * 2 ^ 52 + m) / 2 ^ 52 % 2048 = k + 1 := by omega
  have hfraction : (k * 2 ^ 52 + m) % 2 ^ 52 + 2 ^ 52 = m := by omega
  have hsign : ¬ (k * 2 ^ 52 + m) / 2 ^ 63 % 2 = 1 := by omega
  refine parts_ofBits ?_
  rw [if_neg Bool.false_ne_true, Nat.add_zero, toNat_ofNat_bits (by omega), partsOfBits,
    show twoTo 52 = 2 ^ 52 from rfl, show twoTo 63 = 2 ^ 63 from rfl, hbiased, hfraction,
    decide_eq_false hsign, if_neg (by omega), if_neg (by omega)]
  congr 2
  omega

/-- The bits of the double that a natural number is: its own bits, the first of them at its place. -/
theorem bitsOfRatio_one {n : ℕ} (hpos : 0 < n) (h : n < 2 ^ 53) :
    bitsOfRatio n 1 = (n.log2 + 1022) * 2 ^ 52 + n * 2 ^ (52 - n.log2) := by
  have hlog : n.log2 ≤ 52 := Nat.le_of_lt_succ ((Nat.log2_lt hpos.ne').mpr h)
  have hone : Nat.log2 1 = 0 := by decide
  have habove : 1 * twoTo n.log2 ≤ n := (Nat.one_mul _).le.trans (Nat.log2_self_le hpos.ne')
  have hexponent : max (-1074) ((n.log2 : ℤ) - 52) = (n.log2 : ℤ) - 52 := by omega
  have hmantissa : (if (n.log2 : ℤ) - 52 < 0 then
        roundQuotient (n * twoTo ((n.log2 : ℤ) - 52).natAbs) 1
      else roundQuotient n (1 * twoTo ((n.log2 : ℤ) - 52).natAbs)) = n * 2 ^ (52 - n.log2) := by
    have hamount : ((n.log2 : ℤ) - 52).natAbs = 52 - n.log2 := by omega
    have hround : ∀ k, roundQuotient k 1 = k := fun k =>
      (congrArg (roundQuotient · 1) (Nat.one_mul k).symm).trans (roundQuotient_mul k one_pos)
    rw [hamount]
    split
    next => exact hround _
    next hwhole =>
      have hnone : 52 - n.log2 = 0 := by omega
      rw [hnone, Nat.pow_zero, Nat.mul_one]
      exact hround n
  unfold bitsOfRatio
  dsimp only
  rw [if_neg hpos.ne', hone, Nat.cast_zero, Int.sub_zero, if_neg (Int.not_lt.mpr (Nat.cast_nonneg _)),
    Int.natAbs_natCast, decide_eq_true habove, if_pos rfl, hexponent, hmantissa]
  congr 2
  omega

/-- **A natural number of at most 53 bits is a double.** -/
theorem exists_ofInt? {n : ℕ} (h : n < 2 ^ 53) :
    ∃ x d, ofInt? n = some x ∧ parts x = .finite d ∧ d.negative = false ∧ d.magnitude = n := by
  rcases Nat.eq_zero_or_pos n with rfl | hpos
  · have hparts : parts (ofBits false 0) = .finite ⟨false, 0, -1074⟩ := by decide
    exact ⟨_, _, by decide, hparts, rfl, by simp [Dyadic.magnitude]⟩
  have hlog : n.log2 ≤ 52 := Nat.le_of_lt_succ ((Nat.log2_lt hpos.ne').mpr h)
  have hlow : 2 ^ 52 ≤ n * 2 ^ (52 - n.log2) := by
    calc 2 ^ 52 = 2 ^ n.log2 * 2 ^ (52 - n.log2) := by rw [← Nat.pow_add, Nat.add_sub_cancel' hlog]
      _ ≤ _ := Nat.mul_le_mul_right _ (Nat.log2_self_le hpos.ne')
  have hhigh : n * 2 ^ (52 - n.log2) < 2 ^ 53 := by
    calc n * 2 ^ (52 - n.log2) < 2 ^ (n.log2 + 1) * 2 ^ (52 - n.log2) :=
          Nat.mul_lt_mul_of_pos_right Nat.lt_log2_self (Nat.two_pow_pos _)
      _ = 2 ^ 53 := by rw [← Nat.pow_add]; congr 1; omega
  have hbits := bitsOfRatio_one hpos h
  have hfinite : bitsOfRatio n 1 < infinityBits := by
    have hinf : infinityBits = 2047 * 2 ^ 52 := rfl
    omega
  refine ⟨ofBits false (bitsOfRatio n 1), _, ?_, hbits ▸ parts_ofBits_normal hlow hhigh (by omega),
    rfl, ?_⟩
  · have hsign : decide ((n : ℤ) < 0) = false := decide_eq_false (Int.not_lt.mpr (Nat.cast_nonneg n))
    rw [ofInt?, hsign, Int.natAbs_natCast, ofRatio?]
    exact if_pos hfinite
  · have hexponent : ((n.log2 + 1022 : ℕ) : ℤ) - 1074 = -((52 - n.log2 : ℕ) : ℤ) := by omega
    rw [Dyadic.magnitude, hexponent, zpow_neg, zpow_natCast]
    push_cast
    exact mul_inv_cancel_right₀ (by positivity) _

end ControlSurface.Number
