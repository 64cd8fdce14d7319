/-
  ControlSurface.Proofs.Number.Plain
  ──────────────────────────────────
  The shape of plain numbers: an optional minus, digits, and maybe a point with digits after it; no
  exponent and nothing else.  The digits before the point always stand, so zeros at the end are
  stripped from behind the point only (`bared_pointed`), and a bare sign or nothing at all is
  never left.

  Main results:
    * `plainFloat_isPlain` — a finite double with at least one decimal has a plain text.
    * `plainFloat_whole` — a double that is a small whole number has its digit alone as text.
    * `plain_chars` — the text of any number holds nothing but a few harmless characters.
-/
import ControlSurface.Number.Plain
import Mathlib.Data.List.TakeWhile

namespace ControlSurface.Number

open ControlSurface.Text

/-! ## §1. Digits. -/

/-- A run of ASCII digits, at least one. -/
structure Digits (ds : List Char) : Prop where
  nonempty : ds ≠ []
  ascii : ∀ c ∈ ds, isAsciiDigit c = true

theorem isDecimalDigit_of_ascii {c : Char} (h : isAsciiDigit c = true) :
    isDecimalDigit c = true := by
  have hrange : '0' ≤ c ∧ c ≤ '9' := of_decide_eq_true h
  have hsmall : c.toNat < 128 := by
    have hle : c.toNat ≤ '9'.toNat := hrange.2
    have hnine : '9'.toNat = 57 := rfl
    omega
  unfold isDecimalDigit digitValue?
  rw [if_pos hsmall, if_pos hrange]
  rfl

theorem digits_of_all {ds : List Char} (hne : ds ≠ []) (h : ds.all isAsciiDigit = true) :
    Digits ds := ⟨hne, List.all_eq_true.mp h⟩

theorem Digits.decimal {ds : List Char} (h : Digits ds) : ∀ c ∈ ds, isDecimalDigit c = true :=
  fun c hc => isDecimalDigit_of_ascii (h.ascii c hc)

theorem Digits.point_not_mem {ds : List Char} (h : Digits ds) : '.' ∉ ds :=
  fun hmem => absurd (h.ascii '.' hmem) (by decide)

theorem digits_digits (n : Nat) : Digits (digits n) := by
  refine ⟨Nat.toDigits_ne_nil, fun c hc => ?_⟩
  have hdigit : c.isDigit = true := Nat.isDigit_of_mem_toDigits (by decide) (by decide) hc
  unfold Char.isDigit at hdigit
  rw [Bool.and_eq_true, decide_eq_true_eq, decide_eq_true_eq] at hdigit
  exact decide_eq_true hdigit

theorem digits_paddedDigits (width n : Nat) : Digits (paddedDigits width n) := by
  unfold paddedDigits
  constructor
  · intro hnil
    exact (digits_digits n).nonempty (List.append_eq_nil_iff.mp hnil).2
  · intro c hc
    rcases List.mem_append.mp hc with hc | hc
    · rw [(List.mem_replicate.mp hc).2]
      decide
    · exact (digits_digits n).ascii c hc

/-! ## §2. Trimming. -/

/-- Trimming stops at the first character from the end that is not of the class. -/
theorem trimEndBy_append_cons {p : Char → Bool} {c : Char} (hc : p c = false)
    (before after : List Char) :
    trimEndBy p (before ++ c :: after) = before ++ c :: trimEndBy p after := by
  unfold trimEndBy
  rw [List.reverse_append, List.reverse_cons, List.append_assoc, List.dropWhile_append]
  split
  next hnil =>
    rw [List.isEmpty_iff.mp hnil, List.singleton_append, List.dropWhile_cons_of_neg (by simp [hc]),
      List.reverse_cons, List.reverse_reverse, List.reverse_nil]
  next =>
    rw [List.reverse_append, List.reverse_append, List.reverse_reverse, List.append_assoc]
    rfl

theorem trimEndBy_begins (p : Char → Bool) (cs : List Char) : trimEndBy p cs <+: cs := by
  have hsuffix : cs.reverse.dropWhile p <:+ cs.reverse := List.dropWhile_suffix p
  have hbegins := List.reverse_prefix.mpr hsuffix
  rwa [List.reverse_reverse] at hbegins

/-- Where no character is of the class, nothing is trimmed. -/
theorem trimEndBy_of_none {p : Char → Bool} {cs : List Char} (h : ∀ c ∈ cs, p c = false) :
    trimEndBy p cs = cs := by
  rcases List.eq_nil_or_concat cs with rfl | ⟨before, c, rfl⟩
  · rfl
  · rw [List.concat_eq_append] at h ⊢
    exact trimEndBy_append_cons (h c (by simp)) before []

theorem trimEndBy_append_singleton {p : Char → Bool} {c : Char} (hc : p c = true)
    (cs : List Char) : trimEndBy p (cs ++ [c]) = trimEndBy p cs := by
  unfold trimEndBy
  rw [List.reverse_append, List.reverse_singleton, List.singleton_append,
    List.dropWhile_cons_of_pos hc]

theorem trimEndBy_all {p : Char → Bool} {cs : List Char} (h : ∀ c ∈ cs, p c = true) :
    trimEndBy p cs = [] := by
  unfold trimEndBy
  rw [List.reverse_eq_nil_iff, List.dropWhile_eq_nil_iff]
  intro c hc
  exact h c (List.mem_reverse.mp hc)

/-! ## §3. Stripped text. -/

/-- Text without zeros, and then without a point, at its end. -/
def bared (cs : List Char) : List Char := trimEndBy (· = '.') (trimEndBy (· = '0') cs)

theorem stripped_eq (cs : List Char) :
    stripped cs = if bared cs = [] ∨ bared cs = ['-', '0'] then ['0'] else bared cs := rfl

/-- **Zeros are stripped behind the point**, and the point with them if nothing else stands there. -/
theorem bared_pointed {whole fraction : List Char} (hwhole : '.' ∉ whole)
    (hfraction : '.' ∉ fraction) :
    bared (whole ++ '.' :: fraction)
      = if trimEndBy (· = '0') fraction = [] then whole
        else whole ++ '.' :: trimEndBy (· = '0') fraction := by
  have hzeros : trimEndBy (· = '0') (whole ++ '.' :: fraction)
      = whole ++ '.' :: trimEndBy (· = '0') fraction := trimEndBy_append_cons (by decide) _ _
  have hno : ∀ {cs : List Char}, '.' ∉ cs → ∀ c ∈ cs, decide (c = '.') = false := by
    intro cs hcs c hc
    exact decide_eq_false fun heq => hcs (heq ▸ hc)
  unfold bared
  rw [hzeros]
  rcases List.eq_nil_or_concat (trimEndBy (· = '0') fraction) with hnil | ⟨before, c, hkept⟩
  · rw [if_pos hnil, hnil, trimEndBy_append_singleton (by decide)]
    exact trimEndBy_of_none (hno hwhole)
  · rw [hkept, if_neg (by simp), List.concat_eq_append]
    -- what is kept ends in a digit, at which trimming stops
    have hmem : c ∈ trimEndBy (· = '0') fraction := by
      rw [hkept]
      simp
    have hc : decide (c = '.') = false :=
      hno hfraction c ((trimEndBy_begins (· = '0') fraction).subset hmem)
    have hstop : trimEndBy (· = '.') ((whole ++ '.' :: before) ++ [c])
        = (whole ++ '.' :: before) ++ [c] := trimEndBy_append_cons hc (whole ++ '.' :: before) []
    rwa [List.append_assoc, List.cons_append] at hstop

/-! ## §4. Plain numbers. -/

/-- An unsigned plain number: digits, and maybe a point with digits after it. -/
inductive UnsignedPlain : List Char → Prop where
  | whole {ds : List Char} (hds : Digits ds) : UnsignedPlain ds
  | pointed {ds fs : List Char} (hds : Digits ds) (hfs : Digits fs) :
      UnsignedPlain (ds ++ '.' :: fs)

/-- A plain number. -/
inductive IsPlain : List Char → Prop where
  | positive {cs : List Char} (h : UnsignedPlain cs) : IsPlain cs
  | negative {cs : List Char} (h : UnsignedPlain cs) : IsPlain ('-' :: cs)

/-- A fixed-point text without the zeros behind its point is plain. -/
theorem isPlain_stripped {sign ds fs : List Char} (hsign : sign = [] ∨ sign = ['-'])
    (hds : Digits ds) (hfs : Digits fs) : IsPlain (stripped (sign ++ (ds ++ '.' :: fs))) := by
  have hunsigned : ∀ {cs : List Char}, UnsignedPlain cs → IsPlain (sign ++ cs) := by
    intro cs hcs
    rcases hsign with rfl | rfl
    · exact .positive hcs
    · exact .negative hcs
  have hwhole : '.' ∉ sign ++ ds := by
    intro hmem
    rcases List.mem_append.mp hmem with hmem | hmem
    · rcases hsign with rfl | rfl <;> simp at hmem
    · exact hds.point_not_mem hmem
  have hbared := bared_pointed hwhole hfs.point_not_mem
  rw [List.append_assoc] at hbared
  rw [stripped_eq]
  split
  next => exact .positive (.whole (digits_of_all (by simp) rfl))
  next =>
    rw [hbared]
    split
    next => exact hunsigned (.whole hds)
    next hne =>
      have hkept : Digits (trimEndBy (· = '0') fs) :=
        ⟨hne, fun c hc => hfs.ascii c ((trimEndBy_begins _ _).subset hc)⟩
      rw [List.append_assoc]
      exact hunsigned (.pointed hds hkept)

/-- **The text of a finite double is plain.** -/
theorem plainFloat_isPlain {places : Nat} (hplaces : 0 < places) {x : Float} {d : Dyadic}
    (hx : parts x = .finite d) : IsPlain (plainFloat places x).toList := by
  unfold plainFloat
  rw [String.toList_ofList]
  unfold fixed
  rw [hx]
  show IsPlain (stripped (if d.negative then '-' :: pointed places (d.scaled places)
    else pointed places (d.scaled places)))
  unfold pointed
  rw [if_neg (by omega : ¬ places = 0)]
  split
  · exact isPlain_stripped (Or.inr rfl) (digits_digits _) (digits_paddedDigits _ _)
  · exact isPlain_stripped (Or.inl rfl) (digits_digits _) (digits_paddedDigits _ _)

/-! ## §5. Whole numbers. -/

theorem twoTo_pos (n : Nat) : 0 < twoTo n := Nat.pow_pos (by decide)

theorem tenTo_pos (n : Nat) : 0 < tenTo n := Nat.pow_pos (by decide)

/-- A quotient without remainder is not rounded. -/
theorem roundQuotient_mul (n : Nat) {den : Nat} (hden : 0 < den) :
    roundQuotient (den * n) den = n := by
  unfold roundQuotient
  rw [Nat.mul_mod_right, Nat.mul_div_cancel_left n hden]
  exact if_pos (by omega)

/-- **A whole number keeps its digits.** -/
theorem plainFloat_whole {places n : Nat} (hplaces : 0 < places) {x : Float} {d : Dyadic}
    (hx : parts x = .finite d) (hsign : d.negative = false)
    (hscaled : d.scaled places = n * tenTo places) : (plainFloat places x).toList = digits n := by
  have hzeros : trimEndBy (· = '0') (paddedDigits places 0) = [] := by
    refine trimEndBy_all fun c hc => ?_
    rcases List.mem_append.mp hc with hc | hc
    · exact decide_eq_true (List.mem_replicate.mp hc).2
    · have hzero : digits 0 = ['0'] := by decide
      rw [hzero] at hc
      exact decide_eq_true (List.mem_singleton.mp hc)
  have hbared : bared (pointed places (n * tenTo places)) = digits n := by
    unfold pointed
    rw [if_neg (by omega : ¬ places = 0), Nat.mul_div_cancel n (tenTo_pos places), Nat.mul_mod_left,
      bared_pointed (digits_digits n).point_not_mem (digits_paddedDigits _ _).point_not_mem,
      if_pos hzeros]
  have hsignless : ¬ (digits n = [] ∨ digits n = ['-', '0']) := by
    rintro (hnil | hminus)
    · exact (digits_digits n).nonempty hnil
    · have hdigit := (digits_digits n).ascii '-' (by rw [hminus]; simp)
      exact absurd hdigit (by decide)
  unfold plainFloat
  rw [String.toList_ofList]
  unfold fixed
  rw [hx]
  show stripped (if d.negative then '-' :: pointed places (d.scaled places)
    else pointed places (d.scaled places)) = _
  rw [hsign, hscaled, if_neg (by decide), stripped_eq, hbared, if_neg hsignless]

/-! ## §6. The characters of a plain number. -/

/-- Whether a character may stand in the text of a number, which may also be `inf` or `nan`. -/
def isNumberChar (c : Char) : Bool := isAsciiDigit c || ['-', '.', 'i', 'n', 'f', 'a'].contains c

theorem Digits.numberChars {ds : List Char} (h : Digits ds) : ∀ c ∈ ds, isNumberChar c = true :=
  fun c hc => by rw [isNumberChar, h.ascii c hc]; rfl

theorem pointed_chars (places n : Nat) : ∀ c ∈ pointed places n, isNumberChar c = true := by
  unfold pointed
  split
  next => exact (digits_digits n).numberChars
  next =>
    intro c hc
    rcases List.mem_append.mp hc with hc | hc
    · exact (digits_digits _).numberChars c hc
    · rcases List.mem_cons.mp hc with rfl | hc
      · rfl
      · exact (digits_paddedDigits _ _).numberChars c hc

theorem fixed_chars (places : Nat) (x : Float) : ∀ c ∈ fixed places x, isNumberChar c = true := by
  unfold fixed
  split
  next d _ =>
    dsimp only
    split
    next =>
      intro c hc
      rcases List.mem_cons.mp hc with rfl | hc
      · rfl
      · exact pointed_chars _ _ c hc
    next => exact pointed_chars _ _
  all_goals exact List.all_eq_true.mp (by decide)

theorem stripped_chars {cs : List Char} (h : ∀ c ∈ cs, isNumberChar c = true) :
    ∀ c ∈ stripped cs, isNumberChar c = true := by
  rw [stripped_eq]
  split
  next => exact List.all_eq_true.mp (by decide)
  next =>
    intro c hc
    exact h c ((trimEndBy_begins _ _).subset ((trimEndBy_begins _ _).subset hc))

/-- **The text of a number holds nothing but the characters of numbers.** -/
theorem plain_chars (places : Nat) (n : Num) :
    ∀ c ∈ (n.plain places).toList, isNumberChar c = true := by
  cases n with
  | int i =>
    cases i with
    | ofNat m =>
      have htext : (Num.plain places (.int (.ofNat m))).toList = digits m := String.toList_ofList
      rw [htext]
      exact (digits_digits m).numberChars
    | negSucc m =>
      have htext : (Num.plain places (.int (.negSucc m))).toList = '-' :: digits (m + 1) := by
        show ("-" ++ Nat.repr (m + 1)).toList = _
        rw [String.toList_append]
        exact congrArg ('-' :: ·) String.toList_ofList
      rw [htext]
      intro c hc
      rcases List.mem_cons.mp hc with rfl | hc
      · rfl
      · exact (digits_digits (m + 1)).numberChars c hc
  | float x =>
    intro c hc
    rw [Num.plain, plainFloat, String.toList_ofList] at hc
    exact stripped_chars (fixed_chars places x) c hc

/-! ## §7. Underscores. -/

theorem joinDigits_eq {cs : List Char} (h : '_' ∉ cs) (afterDigit : Bool) :
    joinDigits afterDigit cs = some cs := by
  induction cs generalizing afterDigit with
  | nil => rfl
  | cons c cs ih =>
    have hc : c ≠ '_' := fun heq => h (heq ▸ List.mem_cons_self ..)
    unfold joinDigits
    split
    next => contradiction
    next heq =>
      cases heq
      exact absurd rfl hc
    next heq =>
      cases heq
      rw [ih fun hmem => h (List.mem_cons_of_mem _ hmem)]
      rfl

end ControlSurface.Number
