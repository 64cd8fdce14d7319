/-
  ControlSurface.Proofs.Json.Strings
  ──────────────────────────────────
  The strings of JSON text.  A string is read as the characters that were spelled
  (`stringBody_chars`).  Half of a surrogate pair spells none, and the reader puts the replacement
  character in its place; a text escapes no half exactly when its strings are read as they were
  spelled (`escapesHalf_iff`).
-/
import ControlSurface.Proofs.Json.Grammar

namespace ControlSurface.Json

open ControlSurface.Text

/-! ## §1. Spelled characters. -/

theorem stringBody_quote (passed cs : List Char) :
    stringBody none passed ('"' :: cs) = some (String.ofList passed.reverse, cs) := rfl

theorem stringBody_plain {c : Char} (hprinted : 32 ≤ c.toNat) (hquote : c ≠ '"')
    (hbackslash : c ≠ '\\') (passed cs : List Char) :
    stringBody none passed (c :: cs) = stringBody none (c :: passed) cs := by
  rw [stringBody]
  · rw [if_neg (by omega)]
    rfl
  all_goals simp_all

theorem stringBody_short {c e : Char} (hescape : shortEscape? e = some c) (passed cs : List Char) :
    stringBody none passed ('\\' :: e :: cs) = stringBody none (c :: passed) cs := by
  rw [stringBody]
  · rw [hescape]
    rfl
  · -- the letter of a unit is none of the short ones
    intro x₁ x₂ x₃ x₄ rest heq
    cases heq
    cases hescape

theorem stringBody_unit {x₁ x₂ x₃ x₄ : Char} {n : Nat} (hunit : unit? x₁ x₂ x₃ x₄ = some n)
    (high : Option Nat) (passed cs : List Char) :
    stringBody high passed ('\\' :: 'u' :: x₁ :: x₂ :: x₃ :: x₄ :: cs)
      = stringBody (addUnit high n passed).1 (addUnit high n passed).2 cs := by
  -- the escape is read; what becomes of it waits for the value of its unit
  conv => lhs; whnf
  rw [hunit]

/-- No character is half of a pair. -/
theorem not_half (c : Char) : isHighUnit c.toNat = false ∧ isLowUnit c.toNat = false := by
  have hvalid : c.toNat < 0xD800 ∨ (0xDFFF < c.toNat ∧ c.toNat < 0x110000) := c.valid
  constructor
  · apply decide_eq_false
    omega
  · apply decide_eq_false
    omega

theorem addUnit_char (c : Char) (passed : List Char) :
    addUnit none c.toNat passed = (none, c :: passed) := by
  unfold addUnit
  dsimp only
  rw [(not_half c).1, (not_half c).2, Char.ofNat_toNat]
  rfl

theorem addUnit_high {n : Nat} (h : isHighUnit n = true) (passed : List Char) :
    addUnit none n passed = (some n, passed) := by
  unfold addUnit
  dsimp only
  rw [if_pos h]

theorem addUnit_low {c : Char} {high low : Nat} (hlow : isLowUnit low = true)
    (hpair : c.toNat = 0x10000 + (high - 0xD800) * 0x400 + (low - 0xDC00)) (passed : List Char) :
    addUnit (some high) low passed = (none, c :: passed) := by
  unfold addUnit
  dsimp only
  rw [if_pos hlow, ← hpair, Char.ofNat_toNat]

/-- A spelled character is read as it. -/
theorem stringBody_char {c : Char} {spelling : List Char} (h : SpellsChar c spelling)
    (passed cs : List Char) :
    stringBody none passed (spelling ++ cs) = stringBody none (c :: passed) cs := by
  cases h with
  | plain hprinted hquote hbackslash => exact stringBody_plain hprinted hquote hbackslash passed cs
  | short hescape => exact stringBody_short hescape passed cs
  | unit hunit =>
    have hread := stringBody_unit hunit none passed cs
    rw [addUnit_char] at hread
    exact hread
  | @pair _ _ _ _ _ _ _ _ high low hhigh hlow hisHigh hisLow hpair =>
    have hfirst := stringBody_unit hhigh none passed
    have hsecond := stringBody_unit hlow (some high) passed cs
    rw [addUnit_high hisHigh] at hfirst
    rw [addUnit_low hisLow hpair] at hsecond
    exact (hfirst _).trans hsecond

/-- **A string is read as the characters that were spelled.** -/
theorem stringBody_chars {chars body : List Char} (h : SpellsChars chars body)
    (passed rest : List Char) :
    stringBody none passed (body ++ '"' :: rest)
      = some (String.ofList (passed.reverse ++ chars), rest) := by
  induction h generalizing passed with
  | nil =>
    rw [List.nil_append, List.append_nil]
    exact stringBody_quote passed rest
  | @cons c cs spelling body hchar _ ih =>
    rw [List.append_assoc, stringBody_char hchar, ih, List.reverse_cons, List.append_assoc]
    rfl

/-! ## §2. Halves of pairs. -/

theorem escapesHalf_plain {c : Char} (h : c ≠ '\\') (waits : Bool) (cs : List Char) :
    escapesHalf waits (c :: cs) = (waits || escapesHalf false cs) := by
  rw [escapesHalf]
  all_goals simp_all

theorem escapesHalf_short {e : Char} (h : e ≠ 'u') (waits : Bool) (cs : List Char) :
    escapesHalf waits ('\\' :: e :: cs) = (waits || escapesHalf false cs) := by
  rw [escapesHalf]
  simp_all

theorem escapesHalf_unit {x₁ x₂ x₃ x₄ : Char} {n : Nat} (hunit : unit? x₁ x₂ x₃ x₄ = some n)
    (waits : Bool) (cs : List Char) :
    escapesHalf waits ('\\' :: 'u' :: x₁ :: x₂ :: x₃ :: x₄ :: cs)
      = if isLowUnit n then !waits || escapesHalf false cs
        else waits || escapesHalf (isHighUnit n) cs := by
  conv => lhs; whnf
  rw [hunit]

theorem isLowUnit_of_high {n : Nat} (h : isHighUnit n = true) : isLowUnit n = false := by
  have hbounds := of_decide_eq_true h
  exact decide_eq_false (by omega)

/-- A spelled character escapes no half, and nothing waits behind it. -/
theorem escapesHalf_char {c : Char} {spelling : List Char} (h : SpellsChar c spelling)
    (cs : List Char) : escapesHalf false (spelling ++ cs) = escapesHalf false cs := by
  cases h with
  | plain _ _ hbackslash => exact escapesHalf_plain hbackslash false cs
  | @short e hescape =>
    have hletter : e ≠ 'u' := by
      rintro rfl
      cases hescape
    exact escapesHalf_short hletter false cs
  | unit hunit =>
    refine (escapesHalf_unit hunit false cs).trans ?_
    rw [(not_half c).1, (not_half c).2, Bool.false_or]
    rfl
  | @pair _ _ _ _ _ _ _ _ high low hhigh hlow hisHigh hisLow hpair =>
    refine (escapesHalf_unit hhigh false _).trans ?_
    rw [isLowUnit_of_high hisHigh, if_neg Bool.false_ne_true, Bool.false_or, hisHigh]
    refine (escapesHalf_unit hlow true cs).trans ?_
    rw [if_pos hisLow]
    rfl

theorem escapesHalf_chars {chars body : List Char} (h : SpellsChars chars body) (cs : List Char) :
    escapesHalf false (body ++ cs) = escapesHalf false cs := by
  induction h with
  | nil => rfl
  | cons hchar _ ih => rw [List.append_assoc, escapesHalf_char hchar, ih]

/-- Where the first half of a pair waits and no half is escaped, the second one follows. -/
theorem exists_low_of_waits {cs : List Char} (h : escapesHalf true cs = false) :
    ∃ y₁ y₂ y₃ y₄ low rest, cs = '\\' :: 'u' :: y₁ :: y₂ :: y₃ :: y₄ :: rest
      ∧ unit? y₁ y₂ y₃ y₄ = some low ∧ isLowUnit low = true ∧ escapesHalf false rest = false := by
  unfold escapesHalf at h
  split at h
  next y₁ y₂ y₃ y₄ rest =>
    split at h
    next low hunit =>
      split at h
      next hlow => exact ⟨y₁, y₂, y₃, y₄, low, rest, rfl, hunit, hlow, h⟩
      next => cases h
    next => cases h
  next => cases h
  next => cases h
  next => cases h

theorem hexValue?_lt {c : Char} {n : Nat} (h : hexValue? c = some n) : n < 16 := by
  have hle : ∀ {a b : Char}, a ≤ b → a.toNat ≤ b.toNat := fun h => h
  unfold hexValue? at h
  split at h
  next hc =>
    cases h
    have := hle hc.2
    have : '9'.toNat = 57 := rfl
    omega
  next =>
    split at h
    next hc =>
      cases h
      have := hle hc.2
      have : 'f'.toNat = 102 := rfl
      omega
    next =>
      split at h
      next hc =>
        cases h
        have := hle hc.2
        have : 'F'.toNat = 70 := rfl
        omega
      next => cases h

theorem unit?_lt {x₁ x₂ x₃ x₄ : Char} {n : Nat} (h : unit? x₁ x₂ x₃ x₄ = some n) :
    n < 0x10000 := by
  obtain ⟨a, ha, h⟩ := Option.bind_eq_some_iff.mp h
  obtain ⟨b, hb, h⟩ := Option.bind_eq_some_iff.mp h
  obtain ⟨c, hc, h⟩ := Option.bind_eq_some_iff.mp h
  obtain ⟨d, hd, h⟩ := Option.bind_eq_some_iff.mp h
  cases h
  have := hexValue?_lt ha
  have := hexValue?_lt hb
  have := hexValue?_lt hc
  have := hexValue?_lt hd
  omega

/-- A code point that is no half of a pair is that of a character. -/
theorem toNat_char {n : Nat} (h : n.isValidChar) : (Char.ofNat n).toNat = n := by
  rw [Char.ofNat, dif_pos h]
  rfl

/-! ## §3. What a string was spelled with. -/

/-- The rest of a string: it ends, or a spelled character is read and passed. -/
inductive BodyStep (passed : List Char) (s : String) (rest : List Char) : List Char → Prop
  | quote (hs : s = String.ofList passed.reverse) : BodyStep passed s rest ('"' :: rest)
  | char {c : Char} {spelling cs : List Char} (hspells : SpellsChar c spelling)
      (hread : stringBody none (c :: passed) cs = some (s, rest))
      (hwhole : escapesHalf false cs = false) : BodyStep passed s rest (spelling ++ cs)

section BodyStep

variable {passed rest : List Char} {s : String}

/-- An escaped unit is a character, or it begins a pair. -/
theorem bodyStep_unit {x₁ x₂ x₃ x₄ : Char} {n : Nat} {cs : List Char}
    (hunit : unit? x₁ x₂ x₃ x₄ = some n)
    (hread : stringBody (addUnit none n passed).1 (addUnit none n passed).2 cs = some (s, rest))
    (hwhole : escapesHalf false ('\\' :: 'u' :: x₁ :: x₂ :: x₃ :: x₄ :: cs) = false) :
    BodyStep passed s rest ('\\' :: 'u' :: x₁ :: x₂ :: x₃ :: x₄ :: cs) := by
  rw [escapesHalf_unit hunit] at hwhole
  have hlt := unit?_lt hunit
  cases hhigh : isHighUnit n with
  | true =>
    have hbounds := of_decide_eq_true hhigh
    rw [isLowUnit_of_high hhigh, if_neg Bool.false_ne_true, Bool.false_or, hhigh] at hwhole
    obtain ⟨y₁, y₂, y₃, y₄, low, more, rfl, hlow, hisLow, hmore⟩ := exists_low_of_waits hwhole
    have hlowBounds := of_decide_eq_true hisLow
    have hpair : (Char.ofNat (0x10000 + (n - 0xD800) * 0x400 + (low - 0xDC00))).toNat
        = 0x10000 + (n - 0xD800) * 0x400 + (low - 0xDC00) :=
      toNat_char (Or.inr ⟨by omega, by omega⟩)
    rw [addUnit_high hhigh, stringBody_unit hlow, addUnit_low hisLow hpair] at hread
    exact .char (.pair hunit hlow hhigh hisLow hpair) hread hmore
  | false =>
    cases hisLow : isLowUnit n with
    | true =>
      rw [hisLow] at hwhole
      cases hwhole
    | false =>
      have hnotHigh := of_decide_eq_false hhigh
      have hnotLow := of_decide_eq_false hisLow
      have hchar : (Char.ofNat n).toNat = n := by
        refine toNat_char ?_
        unfold Nat.isValidChar
        omega
      rw [hisLow, if_neg Bool.false_ne_true, Bool.false_or, hhigh] at hwhole
      rw [← hchar, addUnit_char] at hread
      exact .char (.unit (hunit.trans (congrArg some hchar.symm))) hread hwhole

/-- Where no half is escaped, a string is read one spelled character after the other. -/
theorem bodyStep {cs : List Char} (hread : stringBody none passed cs = some (s, rest))
    (hwhole : escapesHalf false cs = false) : BodyStep passed s rest cs := by
  unfold stringBody at hread
  split at hread
  next => cases hread
  next cs =>
    cases hread
    exact .quote rfl
  next x₁ x₂ x₃ x₄ cs =>
    split at hread
    next n hunit => exact bodyStep_unit hunit hread hwhole
    next => cases hread
  next e cs _ =>
    split at hread
    next c hescape =>
      have hletter : e ≠ 'u' := by
        rintro rfl
        cases hescape
      rw [escapesHalf_short hletter, Bool.false_or] at hwhole
      exact .char (.short hescape) hread hwhole
    next => cases hread
  next c cs hquote _ hshort =>
    split at hread
    next => cases hread
    next hprinted =>
      have hbackslash : c ≠ '\\' := by
        -- a backslash at the very end has no quote after it
        rintro rfl
        cases cs with
        | nil => cases hread
        | cons e cs => exact hshort e cs rfl rfl
      rw [escapesHalf_plain hbackslash, Bool.false_or] at hwhole
      exact .char (.plain (Nat.not_lt.mp hprinted) hquote hbackslash) hread hwhole

end BodyStep

theorem SpellsChar.length_pos {c : Char} {spelling : List Char} (h : SpellsChar c spelling) :
    0 < spelling.length := by
  cases h <;> exact Nat.succ_pos _

/-- Where no half is escaped, a string is read as characters that it spells. -/
theorem exists_spelled {cs passed rest : List Char} {s : String}
    (hread : stringBody none passed cs = some (s, rest)) (hwhole : escapesHalf false cs = false) :
    ∃ chars body, cs = body ++ '"' :: rest ∧ SpellsChars chars body
      ∧ s = String.ofList (passed.reverse ++ chars) := by
  -- over the length of the text, since a character may be spelled with several others
  induction hn : cs.length using Nat.strong_induction_on generalizing cs passed with
  | _ n ih =>
    subst hn
    cases bodyStep hread hwhole with
    | quote hs => exact ⟨[], [], rfl, .nil, by rw [hs, List.append_nil]⟩
    | @char c spelling cs' hspells hread' hwhole' =>
      have hshorter : cs'.length < (spelling ++ cs').length := by
        have := hspells.length_pos
        rw [List.length_append]
        omega
      obtain ⟨chars, body, rfl, hchars, rfl⟩ := ih _ hshorter hread' hwhole' rfl
      refine ⟨c :: chars, spelling ++ body, by rw [List.append_assoc], .cons hspells hchars, ?_⟩
      rw [List.reverse_cons, List.append_assoc]
      rfl

/-- **A text escapes no half iff the string at its beginning is read as the characters that were
spelled, and the text behind the string escapes none.** -/
theorem escapesHalf_iff {cs rest : List Char} {s : String}
    (hread : stringBody none [] cs = some (s, rest)) :
    escapesHalf false cs = false ↔ escapesHalf false rest = false
      ∧ ∃ body, cs = body ++ '"' :: rest ∧ SpellsChars s.toList body := by
  have hpassed : ∀ {chars body : List Char}, SpellsChars chars body →
      escapesHalf false (body ++ '"' :: rest) = escapesHalf false rest := fun h => by
    rw [escapesHalf_chars h, escapesHalf_plain (by decide), Bool.false_or]
  constructor
  · intro hwhole
    obtain ⟨chars, body, rfl, hchars, rfl⟩ := exists_spelled hread hwhole
    exact ⟨(hpassed hchars).symm.trans hwhole, body, rfl, String.toList_ofList.symm ▸ hchars⟩
  · rintro ⟨hrest, body, rfl, hchars⟩
    exact (hpassed hchars).trans hrest

end ControlSurface.Json
