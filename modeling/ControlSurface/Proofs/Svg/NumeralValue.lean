/-
  ControlSurface.Proofs.Svg.NumeralValue
  ──────────────────────────────────────
  Numerals are numbers.  What a drawing may write as a numeral, reading a number accepts to its last
  character: nothing is trimmed from it, it is no word for infinity, and digits, point and exponent
  are read one after the other.

  Main result:
    * `IsNumeral.exists_float` — every numeral has a value.
-/
import ControlSurface.Proofs.Svg.Numeral

namespace ControlSurface.Svg

open ControlSurface.Text
open ControlSurface.Number (Digits isDecimalDigit_of_ascii)

/-! ## §1. Digits and exponents. -/

/-- A run of digits is read to its end. -/
theorem digitRun_append {ds : List Char} (hds : ∀ c ∈ ds, isDecimalDigit c = true)
    {rest : List Char} (hrest : digitsOf rest = []) (value count : Nat) :
    ∃ v, Number.digitRun (ds ++ rest) value count = (v, count + ds.length, rest) := by
  induction ds generalizing value count with
  | nil =>
    cases rest with
    | nil => exact ⟨value, rfl⟩
    | cons c rest =>
      have hc : digitValue? c = none := by
        cases hvalue : digitValue? c with
        | none => rfl
        | some d =>
          have hdigit : isDecimalDigit c = true := by rw [isDecimalDigit, hvalue]; rfl
          rw [digitsOf, List.takeWhile_cons_of_pos hdigit] at hrest
          cases hrest
      refine ⟨value, ?_⟩
      rw [List.nil_append, Number.digitRun, hc]
      rfl
  | cons c ds ih =>
    have hc : (digitValue? c).isSome = true := hds c (List.mem_cons_self ..)
    obtain ⟨d, hd⟩ := Option.isSome_iff_exists.mp hc
    obtain ⟨v, hv⟩ := ih (fun x hx => hds x (List.mem_cons_of_mem _ hx)) (value * 10 + d) (count + 1)
    refine ⟨v, ?_⟩
    rw [List.cons_append, Number.digitRun, hd]
    show Number.digitRun (ds ++ rest) (value * 10 + d) (count + 1) = _
    rw [hv, List.length_cons]
    congr 2
    omega

theorem Exponent.digitsOf_eq {e : List Char} (h : Exponent e) : digitsOf e = [] := by
  cases h with
  | none => rfl
  | plain he _ => exact he.digitsOf_eq _
  | signed he _ _ => exact he.digitsOf_eq _

/-- A text of digits has no sign. -/
theorem sign_digits {ds : List Char} (hds : Digits ds) : Number.sign ds = (false, ds) := by
  unfold Number.sign
  split
  next => exact absurd (hds.ascii '-' (List.mem_cons_self ..)) (by decide)
  next => exact absurd (hds.ascii '+' (List.mem_cons_self ..)) (by decide)
  next => rfl

/-- An exponent is read to its end. -/
theorem exponentPart_eq {e : List Char} (h : Exponent e) :
    ∃ n, Number.exponentPart e = (n, []) := by
  have hrun : ∀ {ds : List Char}, Digits ds →
      ∃ v, Number.digitRun ds 0 0 = (v, ds.length, []) ∧ ds.length ≠ 0 := by
    intro ds hds
    obtain ⟨v, hv⟩ := @digitRun_append ds hds.decimal [] rfl 0 0
    rw [List.append_nil, Nat.zero_add] at hv
    exact ⟨v, hv, fun hzero => hds.nonempty (List.length_eq_zero_iff.mp hzero)⟩
  cases h with
  | none => exact ⟨0, rfl⟩
  | plain he hds =>
    obtain ⟨v, hv, hne⟩ := hrun hds
    refine ⟨v, ?_⟩
    unfold Number.exponentPart
    simp only [show _ ∨ _ from he, if_true, sign_digits hds, hv, hne, if_false]
    rfl
  | @signed e s ds he hs hds =>
    obtain ⟨v, hv, hne⟩ := hrun hds
    have hsign : ∃ negative, Number.sign (s :: ds) = (negative, ds) := by
      rcases hs with rfl | rfl
      · exact ⟨true, rfl⟩
      · exact ⟨false, rfl⟩
    obtain ⟨negative, hsign⟩ := hsign
    refine ⟨if negative then -(v : Int) else v, ?_⟩
    unfold Number.exponentPart
    simp only [show _ ∨ _ from he, if_true, hsign, hv, hne, if_false]

theorem Exponent.not_point {e : List Char} (h : Exponent e) (rest : List Char) :
    e ≠ '.' :: rest := by
  cases h with
  | none => simp
  | plain he _ => rcases he with rfl | rfl <;> simp
  | signed he _ _ => rcases he with rfl | rfl <;> simp

/-- An unsigned numeral is read to its end. -/
theorem unsignedDecimal?_eq {m e : List Char} (hm : Mantissa m) (he : Exponent e) :
    ∃ n exponent, Number.unsignedDecimal? (m ++ e) = some (n, exponent, []) := by
  obtain ⟨power, hpower⟩ := exponentPart_eq he
  have hlength : ∀ {ds : List Char}, Digits ds → ds.length ≠ 0 :=
    fun hds hzero => hds.nonempty (List.length_eq_zero_iff.mp hzero)
  unfold Number.unsignedDecimal?
  cases hm with
  | whole hds =>
    obtain ⟨v, hv⟩ := digitRun_append hds.decimal he.digitsOf_eq 0 0
    refine ⟨v, power, ?_⟩
    simp only [hv]
    split
    next more => exact absurd rfl (he.not_point more)
    next =>
      rw [if_neg (by have := hlength hds; omega), hpower]
      simp
  | @pointed ds fs hds hfs =>
    obtain ⟨v, hv⟩ := digitRun_append hds.decimal (digitsOf_point (fs ++ e)) 0 0
    obtain ⟨w, hw⟩ := digitRun_append (fun c hc => isDecimalDigit_of_ascii (hfs c hc))
      he.digitsOf_eq v 0
    refine ⟨w, power - fs.length, ?_⟩
    rw [List.append_assoc, List.cons_append]
    simp only [hv, hw]
    rw [if_neg (by have := hlength hds; omega), hpower]
    simp
  | @fraction fs hfs =>
    obtain ⟨v, hv⟩ := @digitRun_append [] (by simp) _ (digitsOf_point (fs ++ e)) 0 0
    obtain ⟨w, hw⟩ := digitRun_append hfs.decimal he.digitsOf_eq v 0
    refine ⟨w, power - fs.length, ?_⟩
    rw [List.nil_append] at hv
    rw [List.cons_append]
    simp only [hv, hw]
    rw [if_neg (fun hzero => hlength hfs (by simpa using hzero)), hpower]
    simp

/-! ## §2. Characters. -/

/-- The characters of numerals. -/
def InNumeral (c : Char) : Prop :=
  isAsciiDigit c = true ∨ c = '.' ∨ IsExponentMark c ∨ IsSignMark c

theorem IsNumeral.inNumeral {t : List Char} (h : IsNumeral t) : ∀ c ∈ t, InNumeral c := by
  cases h with
  | intro hs hm he =>
    intro c hc
    rcases List.mem_append.mp hc with hc | hc
    · cases hs with
      | none => exact absurd hc List.not_mem_nil
      | some hs =>
        rw [List.mem_singleton.mp hc]
        exact Or.inr (Or.inr (Or.inr hs))
    rcases List.mem_append.mp hc with hc | hc
    · cases hm with
      | whole hds => exact Or.inl (hds.ascii c hc)
      | pointed hds hfs =>
        rcases List.mem_append.mp hc with hc | hc
        · exact Or.inl (hds.ascii c hc)
        · rcases List.mem_cons.mp hc with hc | hc
          · exact Or.inr (Or.inl hc)
          · exact Or.inl (hfs c hc)
      | fraction hfs =>
        rcases List.mem_cons.mp hc with hc | hc
        · exact Or.inr (Or.inl hc)
        · exact Or.inl (hfs.ascii c hc)
    · cases he with
      | none => exact absurd hc List.not_mem_nil
      | plain he hds =>
        rcases List.mem_cons.mp hc with rfl | hc
        · exact Or.inr (Or.inr (Or.inl he))
        · exact Or.inl (hds.ascii c hc)
      | signed he hs hds =>
        rcases List.mem_cons.mp hc with rfl | hc
        · exact Or.inr (Or.inr (Or.inl he))
        rcases List.mem_cons.mp hc with rfl | hc
        · exact Or.inr (Or.inr (Or.inr hs))
        · exact Or.inl (hds.ascii c hc)

theorem InNumeral.ne_underscore {c : Char} (h : InNumeral c) : c ≠ '_' := by
  rintro rfl
  rcases h with h | h | (h | h) | h | h <;> exact absurd h (by decide)

theorem InNumeral.not_margin {c : Char} (h : InNumeral c) : Number.isMargin c = false := by
  rcases h with h | rfl | (rfl | rfl) | rfl | rfl
  · have hrange : '0' ≤ c ∧ c ≤ '9' := of_decide_eq_true h
    have hlow : 48 ≤ c.toNat := hrange.1
    have hhigh : c.toNat ≤ 57 := hrange.2
    have hblank : isBlank c = false := by
      unfold isBlank
      simp
      omega
    unfold Number.isMargin
    rw [hblank, Bool.false_and]
  all_goals decide

/-- The text of a numeral is read as a whole. -/
theorem trimBy_margin_eq {cs : List Char} (h : ∀ c ∈ cs, Number.isMargin c = false) :
    trimBy Number.isMargin cs = cs := by
  have hstart : trimStartBy Number.isMargin cs = cs := by
    cases cs with
    | nil => rfl
    | cons c cs =>
      exact List.dropWhile_cons_of_neg (by rw [h c (List.mem_cons_self ..)]; decide)
  rw [trimBy, hstart]
  exact Number.trimEndBy_of_none h

/-! ## §3. The whole text. -/

theorem sign_eq {s body : List Char} (hs : Sign s)
    (hbody : ∀ c rest, body = c :: rest → ¬ (c = '-' ∨ c = '+')) :
    ∃ negative, Number.sign (s ++ body) = (negative, body) := by
  cases hs with
  | none =>
    refine ⟨false, ?_⟩
    rw [List.nil_append]
    unfold Number.sign
    split
    next => exact absurd (Or.inl rfl) (hbody _ _ rfl)
    next => exact absurd (Or.inr rfl) (hbody _ _ rfl)
    next => rfl
  | some hs =>
    rcases hs with rfl | rfl
    · exact ⟨true, rfl⟩
    · exact ⟨false, rfl⟩

/-- A text that begins with a digit or a point is no word. -/
theorem StartsMantissa.not_word {c : Char} (h : StartsMantissa c) (rest : List Char) {w : Char}
    (hw : ¬ StartsMantissa w) (word : List Char) :
    String.ofList ((c :: rest).map asciiLower) ≠ String.ofList (w :: word) := by
  have hlower : asciiLower c = c := by
    unfold asciiLower
    refine if_neg fun hcapital => ?_
    rcases h with h | rfl
    · have hrange : '0' ≤ c ∧ c ≤ '9' := of_decide_eq_true h
      have hlow : 65 ≤ c.toNat := hcapital.1
      have hhigh : c.toNat ≤ 57 := hrange.2
      omega
    · exact absurd hcapital (by decide)
  intro heq
  have hlist := String.ofList_injective heq
  rw [List.map_cons, hlower] at hlist
  cases hlist
  exact hw h

/-- **Every numeral is a number.** -/
theorem IsNumeral.exists_float {t : List Char} (h : IsNumeral t) :
    ∃ x, Number.readFloat? t = some x := by
  have hjoin : Number.joinDigits false (trimBy Number.isMargin t) = some t := by
    rw [trimBy_margin_eq fun c hc => (h.inNumeral c hc).not_margin]
    exact Number.joinDigits_eq (fun hmem => (h.inNumeral _ hmem).ne_underscore rfl) _
  unfold Number.readFloat?
  rw [hjoin]
  cases h with
  | @intro s m e hs hm he =>
    obtain ⟨c, rest, hcons, hc⟩ := hm.exists_cons
    have hbody : m ++ e = c :: (rest ++ e) := by rw [hcons, List.cons_append]
    have hfirst : ∀ d tail, m ++ e = d :: tail → ¬ (d = '-' ∨ d = '+') := by
      intro d tail heq
      rw [hbody] at heq
      cases heq
      exact hc.not_sign
    obtain ⟨negative, hsign⟩ := sign_eq hs hfirst
    obtain ⟨n, exponent, hdecimal⟩ := unsignedDecimal?_eq hm he
    refine ⟨Number.ofDecimal negative n exponent, ?_⟩
    have hi : ¬ StartsMantissa 'i' := by rintro (h | h) <;> exact absurd h (by decide)
    have hn : ¬ StartsMantissa 'n' := by rintro (h | h) <;> exact absurd h (by decide)
    have hinf : String.ofList ((m ++ e).map asciiLower) ≠ "inf" :=
      hbody ▸ hc.not_word (rest ++ e) hi ['n', 'f']
    have hinfinity : String.ofList ((m ++ e).map asciiLower) ≠ "infinity" :=
      hbody ▸ hc.not_word (rest ++ e) hi ['n', 'f', 'i', 'n', 'i', 't', 'y']
    have hnan : String.ofList ((m ++ e).map asciiLower) ≠ "nan" :=
      hbody ▸ hc.not_word (rest ++ e) hn ['a', 'n']
    simp only [Option.bind_eq_bind, Option.bind_some, hsign, hdecimal, hinf, hinfinity, hnan,
      or_self, if_false]
    rfl

end ControlSurface.Svg
