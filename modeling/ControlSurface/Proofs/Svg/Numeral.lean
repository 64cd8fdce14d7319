/-
  ControlSurface.Proofs.Svg.Numeral
  ─────────────────────────────────
  Numerals as drawings write them, and the search for them.  A numeral has an optional sign, digits
  with an optional point before, after or among them, and an optional exponent; in a text it is read
  as far as it goes.

  Main results:
    * `prefix_numberOf` — the search never stops before the end of a numeral, whatever follows.
    * `LongestNumeral.numberOf_eq` — in a text without the digits of other scripts it finds the
      longest numeral.
-/
import ControlSurface.Svg.Optimize
import ControlSurface.Proofs.Number.Plain
import ControlSurface.Proofs.Text.Search
import Mathlib.Data.List.TakeWhile

namespace ControlSurface.Svg

open ControlSurface.Text
open ControlSurface.Number (Digits isDecimalDigit_of_ascii)

/-! ## §1. Numerals. -/

/-- An unsigned numeral without exponent. -/
inductive Mantissa : List Char → Prop where
  | whole {ds : List Char} (hds : Digits ds) : Mantissa ds
  | pointed {ds fs : List Char} (hds : Digits ds) (hfs : ∀ c ∈ fs, isAsciiDigit c = true) :
      Mantissa (ds ++ '.' :: fs)
  | fraction {fs : List Char} (hfs : Digits fs) : Mantissa ('.' :: fs)

/-- Whether a character begins an exponent. -/
def IsExponentMark (c : Char) : Prop := c = 'e' ∨ c = 'E'

/-- Whether a character is a sign. -/
def IsSignMark (c : Char) : Prop := c = '-' ∨ c = '+'

/-- An exponent, or nothing. -/
inductive Exponent : List Char → Prop where
  | none : Exponent []
  | plain {e : Char} {ds : List Char} (he : IsExponentMark e) (hds : Digits ds) :
      Exponent (e :: ds)
  | signed {e s : Char} {ds : List Char} (he : IsExponentMark e) (hs : IsSignMark s)
      (hds : Digits ds) : Exponent (e :: s :: ds)

/-- A sign, or nothing. -/
inductive Sign : List Char → Prop where
  | none : Sign []
  | some {s : Char} (hs : IsSignMark s) : Sign [s]

/-- A numeral. -/
inductive IsNumeral : List Char → Prop where
  | intro {s m e : List Char} (hs : Sign s) (hm : Mantissa m) (he : Exponent e) :
      IsNumeral (s ++ (m ++ e))

/-- The longest numeral at the start of a text, and what follows it. -/
structure LongestNumeral (cs t rest : List Char) : Prop where
  split : cs = t ++ rest
  numeral : IsNumeral t
  longest : ∀ u v, cs = u ++ v → IsNumeral u → u.length ≤ t.length

/-- A text begins with one longest numeral. -/
theorem LongestNumeral.unique {cs t t' rest rest' : List Char} (h : LongestNumeral cs t rest)
    (h' : LongestNumeral cs t' rest') : t = t' ∧ rest = rest' := by
  have hlength : t.length = t'.length :=
    Nat.le_antisymm (h'.longest t rest h.split h.numeral) (h.longest t' rest' h'.split h'.numeral)
  exact List.append_inj (h.split.symm.trans h'.split) hlength

/-! ## §2. Characters. -/

/-- Whether a character may stand in a number. -/
def isNumberMark (c : Char) : Bool :=
  isDecimalDigit c || c == '.' || c == '-' || c == '+' || c == 'e' || c == 'E'

theorem numberMark_false {c : Char} (h : isNumberMark c = false) :
    isDecimalDigit c = false ∧ c ≠ '.' ∧ ¬ IsSignMark c ∧ ¬ IsExponentMark c := by
  unfold IsSignMark IsExponentMark
  simpa [isNumberMark, and_assoc] using h

/-- What begins a mantissa: a digit or a point. -/
def StartsMantissa (c : Char) : Prop := isAsciiDigit c = true ∨ c = '.'

theorem Mantissa.exists_cons {m : List Char} (h : Mantissa m) :
    ∃ c rest, m = c :: rest ∧ StartsMantissa c := by
  have hfirst : ∀ {ds : List Char}, Digits ds → ∃ c rest, ds = c :: rest ∧ StartsMantissa c := by
    intro ds hds
    cases ds with
    | nil => exact absurd rfl hds.nonempty
    | cons c ds => exact ⟨c, ds, rfl, Or.inl (hds.ascii c (List.mem_cons_self ..))⟩
  cases h with
  | whole hds => exact hfirst hds
  | pointed hds _ =>
    obtain ⟨c, rest, rfl, hc⟩ := hfirst hds
    exact ⟨c, _, rfl, hc⟩
  | fraction hfs => exact ⟨'.', _, rfl, Or.inr rfl⟩

theorem IsNumeral.ne_nil {t : List Char} (h : IsNumeral t) : t ≠ [] := by
  cases h with
  | intro _ hm _ =>
    obtain ⟨c, rest, rfl, _⟩ := hm.exists_cons
    simp

theorem StartsMantissa.not_sign {c : Char} (h : StartsMantissa c) : ¬ (c = '-' ∨ c = '+') := by
  rintro (rfl | rfl)
  · rcases h with h | h
    · exact absurd h (by decide)
    · exact absurd h (by decide)
  · rcases h with h | h
    · exact absurd h (by decide)
    · exact absurd h (by decide)

/-! ## §3. The search. -/

/-- A run of digits goes on with the digits that follow it. -/
theorem digitsOf_append {ds : List Char} (hds : ∀ c ∈ ds, isDecimalDigit c = true)
    (rest : List Char) : digitsOf (ds ++ rest) = ds ++ digitsOf rest :=
  List.takeWhile_append_of_pos hds

theorem digitsOf_point (rest : List Char) : digitsOf ('.' :: rest) = [] :=
  List.takeWhile_cons_of_neg (by decide)

theorem IsExponentMark.digitsOf_eq {e : Char} (he : IsExponentMark e) (rest : List Char) :
    digitsOf (e :: rest) = [] := by
  rcases he with rfl | rfl
  · exact List.takeWhile_cons_of_neg (by decide)
  · exact List.takeWhile_cons_of_neg (by decide)

theorem mantissaOf_digits {cs : List Char} (h : digitsOf cs ≠ []) :
    mantissaOf cs = match cs.drop (digitsOf cs).length with
      | '.' :: rest => digitsOf cs ++ '.' :: digitsOf rest
      | _ => digitsOf cs := by
  unfold mantissaOf
  split
  next hnil => exact absurd hnil h
  next => rfl

theorem mantissaOf_point {rest : List Char} (h : digitsOf rest ≠ []) :
    mantissaOf ('.' :: rest) = '.' :: digitsOf rest := by
  unfold mantissaOf
  rw [digitsOf_point]
  dsimp only
  split
  next more heq =>
    cases heq
    split
    next hnil => exact absurd hnil h
    next => rfl
  next hno => exact (hno rest rfl).elim

theorem mantissaOf_whole {ds rest : List Char} (hds : ∀ c ∈ ds, isDecimalDigit c = true)
    (hne : ds ≠ []) (hrest : digitsOf rest = []) (hpoint : ∀ more, rest ≠ '.' :: more) :
    mantissaOf (ds ++ rest) = ds := by
  have hall : digitsOf (ds ++ rest) = ds := by
    rw [digitsOf_append hds, hrest, List.append_nil]
  rw [mantissaOf_digits (by rw [hall]; exact hne), hall, List.drop_left]
  split
  next more => exact absurd rfl (hpoint more)
  next => rfl

theorem mantissaOf_pointed {ds rest : List Char} (hds : ∀ c ∈ ds, isDecimalDigit c = true)
    (hne : ds ≠ []) : mantissaOf (ds ++ '.' :: rest) = ds ++ '.' :: digitsOf rest := by
  have hall : digitsOf (ds ++ '.' :: rest) = ds := by
    rw [digitsOf_append hds, digitsOf_point, List.append_nil]
  rw [mantissaOf_digits (by rw [hall]; exact hne), hall, List.drop_left]
  rfl

/-- A text is its run of digits and a text that begins with no digit. -/
theorem digitsOf_split (cs : List Char) : ∃ tail, cs = digitsOf cs ++ tail ∧ digitsOf tail = [] := by
  refine ⟨cs.dropWhile isDecimalDigit, List.takeWhile_append_dropWhile.symm, ?_⟩
  unfold digitsOf
  rw [List.takeWhile_eq_nil_iff]
  intro hlt
  exact List.dropWhile_get_zero_not isDecimalDigit cs hlt

theorem decimal_of_mem_digitsOf {cs : List Char} : ∀ c ∈ digitsOf cs, isDecimalDigit c = true :=
  fun _ hc => List.mem_takeWhile_imp hc

/-- **A mantissa is found at least to its end**, and where an exponent follows no further. -/
theorem mantissaOf_append {m : List Char} (h : Mantissa m) (rest : List Char) :
    ∃ more, mantissaOf (m ++ rest) = m ++ more
      ∧ ((∃ c tail, rest = c :: tail ∧ IsExponentMark c) → more = []) := by
  have hmark : (∃ c tail, rest = c :: tail ∧ IsExponentMark c) → digitsOf rest = [] := by
    rintro ⟨c, tail, rfl, hc⟩
    exact hc.digitsOf_eq tail
  cases h with
  | whole hds =>
    obtain ⟨tail, hrest, htail⟩ := digitsOf_split rest
    have hall : ∀ c ∈ m ++ digitsOf rest, isDecimalDigit c = true := by
      intro c hc
      rcases List.mem_append.mp hc with hc | hc
      · exact hds.decimal c hc
      · exact decimal_of_mem_digitsOf c hc
    have hne : m ++ digitsOf rest ≠ [] := fun hnil =>
      hds.nonempty (List.append_eq_nil_iff.mp hnil).1
    have hsplit : m ++ rest = (m ++ digitsOf rest) ++ tail := by
      rw [List.append_assoc, ← hrest]
    by_cases hpoint : ∃ after, tail = '.' :: after
    · obtain ⟨after, rfl⟩ := hpoint
      refine ⟨digitsOf rest ++ '.' :: digitsOf after, ?_, ?_⟩
      · rw [hsplit, mantissaOf_pointed hall hne, List.append_assoc]
      · -- an exponent does not begin with a point
        rintro hstart
        have hnone := hmark hstart
        obtain ⟨c, more, heq, hc⟩ := hstart
        rw [hnone, List.nil_append, heq] at hrest
        cases hrest
        rcases hc with h | h <;> exact absurd h (by decide)
    · rw [not_exists] at hpoint
      exact ⟨digitsOf rest, by rw [hsplit, mantissaOf_whole hall hne htail hpoint], hmark⟩
  | @pointed ds fs hds hfs =>
    refine ⟨digitsOf rest, ?_, hmark⟩
    rw [List.append_assoc, List.cons_append, mantissaOf_pointed hds.decimal hds.nonempty,
      digitsOf_append (fun c hc => isDecimalDigit_of_ascii (hfs c hc)), List.append_assoc,
      List.cons_append]
  | @fraction fs hfs =>
    refine ⟨digitsOf rest, ?_, hmark⟩
    have hall : digitsOf (fs ++ rest) = fs ++ digitsOf rest := digitsOf_append hfs.decimal rest
    rw [List.cons_append, mantissaOf_point, hall, List.cons_append]
    rw [hall]
    exact fun hnil => hfs.nonempty (List.append_eq_nil_iff.mp hnil).1

theorem exponentOf_plain {e : Char} {rest : List Char} (he : IsExponentMark e)
    (h : digitsOf rest ≠ []) : exponentOf (e :: rest) = e :: digitsOf rest := by
  unfold exponentOf
  cases rest with
  | nil => exact absurd rfl h
  | cons s more =>
    have hsign : ¬ (s = '-' ∨ s = '+') := by
      rintro (rfl | rfl)
      · exact h (List.takeWhile_cons_of_neg (by decide))
      · exact h (List.takeWhile_cons_of_neg (by decide))
    simp only [show e = 'e' ∨ e = 'E' from he, if_true, hsign, if_false]

theorem exponentOf_signed {e s : Char} {rest : List Char} (he : IsExponentMark e)
    (hs : IsSignMark s) (h : digitsOf rest ≠ []) :
    exponentOf (e :: s :: rest) = e :: s :: digitsOf rest := by
  unfold exponentOf
  simp only [show e = 'e' ∨ e = 'E' from he, show s = '-' ∨ s = '+' from hs, if_true]

/-- An exponent is found at least to its end. -/
theorem prefix_exponentOf {e : List Char} (h : Exponent e) (rest : List Char) :
    e <+: exponentOf (e ++ rest) := by
  have hdigits : ∀ {ds : List Char}, Digits ds →
      digitsOf (ds ++ rest) = ds ++ digitsOf rest ∧ digitsOf (ds ++ rest) ≠ [] := by
    intro ds hds
    have hall : digitsOf (ds ++ rest) = ds ++ digitsOf rest := digitsOf_append hds.decimal rest
    refine ⟨hall, ?_⟩
    rw [hall]
    exact fun hnil => hds.nonempty (List.append_eq_nil_iff.mp hnil).1
  cases h with
  | none => exact List.nil_prefix
  | plain he hds =>
    obtain ⟨hall, hne⟩ := hdigits hds
    rw [List.cons_append, exponentOf_plain he hne, hall]
    exact ⟨digitsOf rest, rfl⟩
  | signed he hs hds =>
    obtain ⟨hall, hne⟩ := hdigits hds
    rw [List.cons_append, List.cons_append, exponentOf_signed he hs hne, hall]
    exact ⟨digitsOf rest, rfl⟩

/-- A number is its sign, if it has one, and what is found after it. -/
theorem numberOf_sign {s body : List Char} (hs : Sign s)
    (hbody : s = [] → ∀ c rest, body = c :: rest → ¬ (c = '-' ∨ c = '+')) :
    numberOf (s ++ body)
      = if mantissaOf body = [] then []
        else s ++ (mantissaOf body ++ exponentOf (body.drop (mantissaOf body).length)) := by
  unfold numberOf
  cases hs with
  | none =>
    cases body with
    | nil => rfl
    | cons c rest =>
      simp only [List.nil_append, hbody rfl c rest rfl, if_false, List.length_nil, List.drop_zero]
      split
      next hnil => rw [if_pos hnil]
      next hne => rw [if_neg hne]
  | some hs =>
    simp only [List.cons_append, List.nil_append, show _ ∨ _ from hs, if_true,
      List.length_singleton, List.drop_succ_cons, List.drop_zero]
    split
    next hnil => rw [if_pos hnil]
    next hne => rw [if_neg hne]

/-- **The search does not stop within a numeral.** -/
theorem prefix_numberOf {t : List Char} (h : IsNumeral t) (rest : List Char) :
    t <+: numberOf (t ++ rest) := by
  cases h with
  | @intro s m e hs hm he =>
    obtain ⟨c, tail, hcons, hc⟩ := hm.exists_cons
    obtain ⟨more, hmore, hmark⟩ := mantissaOf_append hm (e ++ rest)
    have hne : mantissaOf (m ++ (e ++ rest)) ≠ [] := by
      rw [hmore, hcons]
      exact List.cons_ne_nil _ _
    have hfirst : s = [] → ∀ d rest', m ++ (e ++ rest) = d :: rest' →
        ¬ (d = '-' ∨ d = '+') := by
      intro _ d rest' heq
      rw [hcons, List.cons_append] at heq
      cases heq
      exact hc.not_sign
    have hsplit : s ++ (m ++ e) ++ rest = s ++ (m ++ (e ++ rest)) := by
      simp only [List.append_assoc]
    rw [hsplit, numberOf_sign hs hfirst, if_neg hne, hmore]
    refine (List.prefix_append_right_inj s).mpr ?_
    -- without an exponent the mantissa may go on; before one it ends
    cases he with
    | none =>
      rw [List.append_nil, List.append_assoc]
      exact List.prefix_append m _
    | plain he hds =>
      rw [hmark ⟨_, _, rfl, he⟩, List.append_nil, List.drop_left]
      exact (List.prefix_append_right_inj m).mpr (prefix_exponentOf (.plain he hds) rest)
    | signed he hs hds =>
      rw [hmark ⟨_, _, rfl, he⟩, List.append_nil, List.drop_left]
      exact (List.prefix_append_right_inj m).mpr (prefix_exponentOf (.signed he hs hds) rest)

/-! ## §4. What is found. -/

/-- A text in which every digit is an ASCII digit. -/
def OnlyAsciiDigits (cs : List Char) : Prop :=
  ∀ c ∈ cs, isDecimalDigit c = true → isAsciiDigit c = true

theorem OnlyAsciiDigits.sublist {cs ds : List Char} (h : OnlyAsciiDigits cs)
    (hsub : List.Sublist ds cs) : OnlyAsciiDigits ds := fun c hc => h c (hsub.subset hc)

theorem digitsOf_begins (cs : List Char) : digitsOf cs <+: cs := List.takeWhile_prefix _

theorem OnlyAsciiDigits.digits {cs : List Char} (h : OnlyAsciiDigits cs) :
    ∀ c ∈ digitsOf cs, isAsciiDigit c = true :=
  fun c hc => h c ((digitsOf_begins cs).subset hc) (decimal_of_mem_digitsOf c hc)

/-- What is found as a mantissa begins the text and is one. -/
theorem mantissaOf_spec {cs : List Char} (h : OnlyAsciiDigits cs) (hne : mantissaOf cs ≠ []) :
    mantissaOf cs <+: cs ∧ Mantissa (mantissaOf cs) := by
  obtain ⟨tail, hcs, htail⟩ := digitsOf_split cs
  by_cases hdigits : digitsOf cs = []
  · -- without digits a point must come first
    rw [hdigits, List.nil_append] at hcs
    subst hcs
    unfold mantissaOf at hne
    rw [hdigits] at hne
    cases cs with
    | nil => exact absurd rfl hne
    | cons c rest =>
      by_cases hpoint : c = '.'
      · subst hpoint
        by_cases hfs : digitsOf rest = []
        · simp only [hfs] at hne
          exact absurd rfl hne
        · rw [mantissaOf_point hfs]
          refine ⟨(List.prefix_cons_inj _).mpr (digitsOf_begins rest), .fraction ⟨hfs, ?_⟩⟩
          exact (h.sublist (List.sublist_cons_self _ _)).digits
      · exfalso
        simp only at hne
        split at hne
        next heq =>
          cases heq
          exact hpoint rfl
        next => exact hne rfl
  · have hds : Digits (digitsOf cs) := ⟨hdigits, h.digits⟩
    by_cases hpoint : ∃ after, tail = '.' :: after
    · obtain ⟨after, rfl⟩ := hpoint
      have hfound : mantissaOf (digitsOf cs ++ '.' :: after) = digitsOf cs ++ '.' :: digitsOf after :=
        mantissaOf_pointed hds.decimal hds.nonempty
      have hbegins : digitsOf cs ++ '.' :: digitsOf after <+: digitsOf cs ++ '.' :: after :=
        (List.prefix_append_right_inj _).mpr
          ((List.prefix_cons_inj _).mpr (digitsOf_begins after))
      rw [← hcs] at hfound hbegins
      have hafter : OnlyAsciiDigits after := by
        refine h.sublist ?_
        rw [hcs]
        exact (List.sublist_cons_self _ _).trans (List.sublist_append_right _ _)
      rw [hfound]
      exact ⟨hbegins, .pointed hds hafter.digits⟩
    · rw [not_exists] at hpoint
      have hfound := mantissaOf_whole hds.decimal hds.nonempty htail hpoint
      rw [← hcs] at hfound
      rw [hfound]
      exact ⟨digitsOf_begins cs, .whole hds⟩

/-- What is found as an exponent begins the text and is one, or nothing. -/
theorem exponentOf_spec {cs : List Char} (h : OnlyAsciiDigits cs) :
    exponentOf cs <+: cs ∧ Exponent (exponentOf cs) := by
  have hnothing : ([] : List Char) <+: cs ∧ Exponent [] := ⟨List.nil_prefix, .none⟩
  cases cs with
  | nil => exact hnothing
  | cons e rest =>
    by_cases he : e = 'e' ∨ e = 'E'
    · by_cases hrest : digitsOf rest = []
      · cases rest with
        | nil => 
          unfold exponentOf
          simp only [he, if_true]
          exact hnothing
        | cons s more =>
          by_cases hs : s = '-' ∨ s = '+'
          · by_cases hmore : digitsOf more = []
            · unfold exponentOf
              simp only [he, hs, if_true, hmore]
              exact hnothing
            · rw [exponentOf_signed he hs hmore]
              have hascii : OnlyAsciiDigits more := h.sublist
                ((List.sublist_cons_self _ _).trans (List.sublist_cons_self _ _))
              refine ⟨(List.prefix_cons_inj _).mpr ((List.prefix_cons_inj _).mpr
                (digitsOf_begins more)), .signed he hs ⟨hmore, hascii.digits⟩⟩
          · unfold exponentOf
            simp only [he, hs, if_true, if_false, hrest]
            exact hnothing
      · rw [exponentOf_plain he hrest]
        have hascii : OnlyAsciiDigits rest := h.sublist (List.sublist_cons_self _ _)
        exact ⟨(List.prefix_cons_inj _).mpr (digitsOf_begins rest),
          .plain he ⟨hrest, hascii.digits⟩⟩
    · unfold exponentOf
      simp only [he, if_false]
      exact hnothing

/-- A text begins with a sign or with nothing that counts as one. -/
theorem exists_sign (cs : List Char) :
    ∃ s body, cs = s ++ body ∧ Sign s
      ∧ (s = [] → ∀ c rest, body = c :: rest → ¬ (c = '-' ∨ c = '+')) := by
  cases cs with
  | nil => exact ⟨[], [], rfl, .none, fun _ c rest h => by cases h⟩
  | cons c rest =>
    by_cases hc : c = '-' ∨ c = '+'
    · exact ⟨[c], rest, rfl, .some hc, fun h => by cases h⟩
    · refine ⟨[], c :: rest, rfl, .none, fun _ d tail heq => ?_⟩
      cases heq
      exact hc

/-- **What is found begins the text and is a numeral.** -/
theorem numberOf_spec {cs : List Char} (h : OnlyAsciiDigits cs) (hne : numberOf cs ≠ []) :
    numberOf cs <+: cs ∧ IsNumeral (numberOf cs) := by
  obtain ⟨s, body, rfl, hs, hbody⟩ := exists_sign cs
  have hascii : OnlyAsciiDigits body := h.sublist (List.sublist_append_right s body)
  rw [numberOf_sign hs hbody] at hne ⊢
  by_cases hnil : mantissaOf body = []
  · rw [if_pos hnil] at hne
    exact absurd rfl hne
  · rw [if_neg hnil]
    obtain ⟨⟨tail, htail⟩, hm⟩ := mantissaOf_spec hascii hnil
    -- the exponent is found in what follows the mantissa
    have hdrop : body.drop (mantissaOf body).length = tail := by
      have hleft : (mantissaOf body ++ tail).drop (mantissaOf body).length = tail := List.drop_left
      rwa [htail] at hleft
    have htailAscii : OnlyAsciiDigits tail := by
      refine hascii.sublist ?_
      rw [← htail]
      exact List.sublist_append_right _ _
    obtain ⟨hexponent, he⟩ := exponentOf_spec htailAscii
    rw [hdrop]
    refine ⟨(List.prefix_append_right_inj s).mpr ?_, .intro hs hm he⟩
    have hall : mantissaOf body ++ exponentOf tail <+: mantissaOf body ++ tail :=
      (List.prefix_append_right_inj _).mpr hexponent
    rwa [htail] at hall

/-! ## §5. Longest numerals. -/

/-- A text that does not begin like the rest of a number. -/
def SetApart (rest : List Char) : Prop :=
  ∀ c ∈ rest.head?, isDecimalDigit c = false ∧ c ≠ '.' ∧ ¬ IsExponentMark c

/-- A numeral with nothing after it is the longest one. -/
theorem IsNumeral.longest {t : List Char} (h : IsNumeral t) : LongestNumeral t t [] := by
  refine ⟨(List.append_nil t).symm, h, fun u v hsplit _ => ?_⟩
  rw [hsplit, List.length_append]
  exact Nat.le_add_right _ _

/-- A numeral that the search stops after is the longest one. -/
theorem longestNumeral_of_numberOf {t rest : List Char} (ht : IsNumeral t)
    (h : numberOf (t ++ rest) = t) : LongestNumeral (t ++ rest) t rest := by
  refine ⟨rfl, ht, fun u v hsplit hu => ?_⟩
  have hbegins : u <+: numberOf (u ++ v) := prefix_numberOf hu v
  rw [← hsplit, h] at hbegins
  exact hbegins.length_le

/-- **The search finds the longest numeral.** -/
theorem LongestNumeral.numberOf_eq {cs t rest : List Char} (h : LongestNumeral cs t rest)
    (hascii : OnlyAsciiDigits cs) : numberOf cs = t := by
  have hbegins : t <+: numberOf cs := by
    have hfound := prefix_numberOf h.numeral rest
    rwa [← h.split] at hfound
  have hne : numberOf cs ≠ [] := by
    intro hnil
    rw [hnil, List.prefix_nil] at hbegins
    exact h.numeral.ne_nil hbegins
  obtain ⟨⟨v, hv⟩, hnumeral⟩ := numberOf_spec hascii hne
  exact (hbegins.eq_of_length_le (h.longest _ v hv.symm hnumeral)).symm

end ControlSurface.Svg
