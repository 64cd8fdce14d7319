/-
  ControlSurface.Proofs.Svg.Cutting
  ─────────────────────────────────
  The search for numbers in a text.  A text is cut at its numbers, which are searched one after the
  other, each after the end of the one before (`numbersIn`).

  Main results:
    * `numberOf_begins` — what is found at a place begins the text from there on.
    * `Silent.before` — which texts may follow one in which no number begins.
    * `numbersIn_iff` — the search against its specification: no number begins in what it passes,
      and each number is what is found at its place.
-/
import ControlSurface.Proofs.Svg.NumberRounding

namespace ControlSurface.Svg

open ControlSurface.Text

/-! ## §1. The search from a place on. -/

/-- What is found as a mantissa begins the text. -/
theorem mantissaOf_begins (cs : List Char) : mantissaOf cs <+: cs := by
  obtain ⟨tail, hcs, htail⟩ := digitsOf_split cs
  by_cases hdigits : digitsOf cs = []
  · unfold mantissaOf
    rw [hdigits]
    dsimp only
    split
    next rest =>
      split
      next => exact List.nil_prefix
      next => exact (List.prefix_cons_inj _).mpr (digitsOf_begins rest)
    next => exact List.nil_prefix
  · have hdecimal := @decimal_of_mem_digitsOf cs
    by_cases hpoint : ∃ after, tail = '.' :: after
    · obtain ⟨after, rfl⟩ := hpoint
      have hfound := @mantissaOf_pointed _ after hdecimal hdigits
      rw [← hcs] at hfound
      obtain ⟨more, hmore⟩ := digitsOf_begins after
      refine ⟨more, ?_⟩
      rw [hfound, List.append_assoc, List.cons_append, hmore]
      exact hcs.symm
    · rw [not_exists] at hpoint
      have hfound := mantissaOf_whole hdecimal hdigits htail hpoint
      rw [← hcs] at hfound
      rw [hfound]
      exact digitsOf_begins cs

theorem exponentOf_begins (cs : List Char) : exponentOf cs <+: cs := by
  unfold exponentOf
  split
  next e rest =>
    split
    next =>
      split
      next s more =>
        split
        next =>
          split
          next => exact List.nil_prefix
          next =>
            exact (List.prefix_cons_inj _).mpr
              ((List.prefix_cons_inj _).mpr (digitsOf_begins more))
        next =>
          split
          next => exact List.nil_prefix
          next => exact (List.prefix_cons_inj _).mpr (digitsOf_begins (s :: more))
      next => exact List.nil_prefix
    next => exact List.nil_prefix
  next => exact List.nil_prefix

/-- **What is found as a number begins the text.** -/
theorem numberOf_begins (cs : List Char) : numberOf cs <+: cs := by
  obtain ⟨s, body, rfl, hs, hbody⟩ := exists_sign cs
  rw [numberOf_sign hs hbody]
  split
  next => exact List.nil_prefix
  next =>
    refine (List.prefix_append_right_inj s).mpr ?_
    obtain ⟨tail, htail⟩ := mantissaOf_begins body
    have hdrop : body.drop (mantissaOf body).length = tail := by
      have hleft : (mantissaOf body ++ tail).drop (mantissaOf body).length = tail := List.drop_left
      rwa [htail] at hleft
    rw [hdrop]
    have hall : mantissaOf body ++ exponentOf tail <+: mantissaOf body ++ tail :=
      (List.prefix_append_right_inj _).mpr (exponentOf_begins tail)
    rwa [htail] at hall

/-! ## §2. Where a number begins. -/

theorem digitsOf_cons_eq_nil_iff {c : Char} {cs : List Char} :
    digitsOf (c :: cs) = [] ↔ isDecimalDigit c = false := by
  rw [digitsOf, List.takeWhile_cons]
  split
  next h => simp [h]
  next h => simpa using h

/-- A mantissa begins with a digit, or with a point before one. -/
theorem mantissaOf_eq_nil_iff {cs : List Char} :
    mantissaOf cs = [] ↔ digitsOf cs = [] ∧ ∀ rest, cs = '.' :: rest → digitsOf rest = [] := by
  constructor
  · intro hnil
    have hdigits : digitsOf cs = [] := by
      by_contra hsome
      rw [mantissaOf_digits hsome] at hnil
      split at hnil
      next => exact absurd hnil (by simp)
      next => exact hsome hnil
    refine ⟨hdigits, ?_⟩
    rintro rest rfl
    by_contra hsome
    rw [mantissaOf_point hsome] at hnil
    cases hnil
  · rintro ⟨hdigits, hpoint⟩
    unfold mantissaOf
    rw [hdigits]
    dsimp only
    split
    next rest => rw [hpoint rest rfl]
    next => rfl

/-- After a sign a number goes on with a mantissa. -/
theorem numberOf_signed_eq_nil_iff {c : Char} (hc : IsSignMark c) {cs : List Char} :
    numberOf (c :: cs) = [] ↔ mantissaOf cs = [] := by
  have hfound := @numberOf_sign [c] cs (.some hc) fun h => by cases h
  rw [List.singleton_append] at hfound
  rw [hfound]
  split
  next hnil => exact iff_of_true rfl hnil
  next hsome => exact iff_of_false (by simp) hsome

/-- Without a sign it begins with one. -/
theorem numberOf_unsigned_eq_nil_iff {c : Char} (hc : ¬ IsSignMark c) {cs : List Char} :
    numberOf (c :: cs) = [] ↔ mantissaOf (c :: cs) = [] := by
  have hfirst : ([] : List Char) = [] → ∀ d rest, c :: cs = d :: rest → ¬ (d = '-' ∨ d = '+') := by
    intro _ d rest heq
    rw [← (List.cons.inj heq).1]
    exact hc
  have hfound := numberOf_sign Sign.none hfirst
  rw [List.nil_append] at hfound
  rw [hfound]
  split
  next hnil => exact iff_of_true rfl hnil
  next hsome =>
    refine iff_of_false (fun hnil => hsome ?_) hsome
    exact (List.append_eq_nil_iff.mp (List.append_eq_nil_iff.mp hnil).2).1

/-- Whether a character can begin a number. -/
def StartsNumber (c : Char) : Prop := isDecimalDigit c = true ∨ c = '.' ∨ IsSignMark c

/-- No number begins with another character. -/
theorem numberOf_none {c : Char} (h : ¬ StartsNumber c) (cs : List Char) :
    numberOf (c :: cs) = [] := by
  unfold StartsNumber at h
  rw [not_or, not_or, Bool.not_eq_true] at h
  obtain ⟨hdigit, hpoint, hsign⟩ := h
  rw [numberOf_unsigned_eq_nil_iff hsign, mantissaOf_eq_nil_iff, digitsOf_cons_eq_nil_iff]
  exact ⟨hdigit, fun rest heq => absurd (List.cons.inj heq).1 hpoint⟩

theorem not_sign_of_digit {c : Char} (h : isDecimalDigit c = true) : ¬ IsSignMark c := by
  rintro (rfl | rfl)
  · exact absurd h (by decide)
  · exact absurd h (by decide)

/-- Where no number begins, no digit stands. -/
theorem digit_of_numberOf {c : Char} {cs : List Char} (h : numberOf (c :: cs) = []) :
    isDecimalDigit c = false := by
  by_contra hdigit
  rw [Bool.not_eq_false] at hdigit
  rw [numberOf_unsigned_eq_nil_iff (not_sign_of_digit hdigit), mantissaOf_eq_nil_iff,
    digitsOf_cons_eq_nil_iff] at h
  exact absurd h.1 (by rw [hdigit]; decide)

/-- No number begins in a text that goes on with another one. -/
def Silent : List Char → List Char → Prop
  | [], _ => True
  | c :: cs, rest => numberOf (c :: (cs ++ rest)) = [] ∧ Silent cs rest

theorem silent_of_none {cs : List Char} (h : ∀ c ∈ cs, ¬ StartsNumber c) (rest : List Char) :
    Silent cs rest := by
  induction cs with
  | nil => trivial
  | cons c cs ih =>
    obtain ⟨hc, hcs⟩ := List.forall_mem_cons.mp h
    exact ⟨numberOf_none hc _, ih hcs⟩

theorem Silent.digit {cs rest : List Char} (h : Silent cs rest) :
    ∀ c ∈ cs, isDecimalDigit c = false := by
  induction cs with
  | nil => exact fun _ hc => absurd hc List.not_mem_nil
  | cons c cs ih => exact List.forall_mem_cons.mpr ⟨digit_of_numberOf h.1, ih h.2⟩

/-- Whether a text ends in a sign. -/
def EndsInSign (cs : List Char) : Prop := ∃ c, cs.getLast? = some c ∧ IsSignMark c

theorem digitsOf_after {cs rest rest' : List Char} (h : digitsOf (cs ++ rest) = [])
    (hnil : cs = [] → digitsOf rest' = []) : digitsOf (cs ++ rest') = [] := by
  cases cs with
  | nil => exact hnil rfl
  | cons c cs => exact digitsOf_cons_eq_nil_iff.mpr (digitsOf_cons_eq_nil_iff.mp h)

/-- Whether a number begins at a place is told by the three characters from there on. -/
theorem numberOf_before {c : Char} {cs rest rest' : List Char}
    (h : numberOf (c :: (cs ++ rest)) = []) (hsign : EndsInSign (c :: cs) → mantissaOf rest' = [])
    (hpoint : (c :: cs).getLast? = some '.' → digitsOf rest' = []) :
    numberOf (c :: (cs ++ rest')) = [] := by
  have hdigit := digit_of_numberOf h
  by_cases hc : IsSignMark c
  · rw [numberOf_signed_eq_nil_iff hc] at h ⊢
    cases cs with
    | nil => exact hsign ⟨c, rfl, hc⟩
    | cons d more =>
      rw [List.cons_append, mantissaOf_eq_nil_iff, digitsOf_cons_eq_nil_iff] at h ⊢
      refine ⟨h.1, fun tail heq => ?_⟩
      obtain ⟨rfl, rfl⟩ := List.cons.inj heq
      exact digitsOf_after (h.2 _ rfl) fun hnil => hpoint (by rw [hnil]; rfl)
  · by_cases hp : c = '.'
    · subst hp
      rw [numberOf_unsigned_eq_nil_iff hc, mantissaOf_eq_nil_iff] at h ⊢
      refine ⟨digitsOf_point _, fun tail heq => ?_⟩
      obtain rfl := (List.cons.inj heq).2
      exact digitsOf_after (h.2 _ rfl) fun hnil => hpoint (by rw [hnil]; rfl)
    · refine numberOf_none ?_ _
      rintro (hstarts | hstarts | hstarts)
      · exact absurd hstarts (by rw [hdigit]; decide)
      · exact hp hstarts
      · exact hc hstarts

/-- **Which texts may follow one in which no number begins**: after a sign no mantissa, after a
point no digit. -/
theorem Silent.before {cs rest rest' : List Char} (h : Silent cs rest)
    (hsign : EndsInSign cs → mantissaOf rest' = [])
    (hpoint : cs.getLast? = some '.' → digitsOf rest' = []) : Silent cs rest' := by
  induction cs with
  | nil => trivial
  | cons c cs ih =>
    have hlast : ∀ d, cs.getLast? = some d → (c :: cs).getLast? = some d := by
      intro d hd
      rw [List.getLast?_cons, hd]
      rfl
    refine ⟨numberOf_before h.1 hsign hpoint, ih h.2 ?_ fun hd => hpoint (hlast _ hd)⟩
    rintro ⟨d, hd, hsigned⟩
    exact hsign ⟨d, hlast d hd, hsigned⟩

theorem Silent.append {cs ds rest : List Char} (h : Silent cs (ds ++ rest)) (h' : Silent ds rest) :
    Silent (cs ++ ds) rest := by
  induction cs with
  | nil => exact h'
  | cons c cs ih =>
    refine ⟨?_, ih h.2⟩
    show numberOf (c :: ((cs ++ ds) ++ rest)) = []
    rw [List.append_assoc]
    exact h.1

/-! ## §3. Texts cut at their numbers. -/

/-- A text cut at its numbers: each number with the text before it, and the text after the last. -/
structure Cut where
  numbers : List (List Char × List Char)
  rest : List Char
  deriving DecidableEq

/-- A character before everything else. -/
def Cut.push (c : Char) (k : Cut) : Cut :=
  match k.numbers with
  | [] => ⟨[], c :: k.rest⟩
  | (before, t) :: more => ⟨(c :: before, t) :: more, k.rest⟩

/-- A number before everything else. -/
def Cut.prepend (t : List Char) (k : Cut) : Cut := ⟨([], t) :: k.numbers, k.rest⟩

/-- Cuts a text at its numbers.  `skip` characters of a number are still to be passed over. -/
def numbersFrom (skip : Nat) : List Char → Cut
  | [] => ⟨[], []⟩
  | c :: cs =>
    match skip with
    | n + 1 => numbersFrom n cs
    | 0 =>
      match numberOf (c :: cs) with
      | [] => (numbersFrom 0 cs).push c
      | number => (numbersFrom (number.length - 1) cs).prepend number

/-- The numbers of a text, searched from left to right, each after the end of the one before. -/
def numbersIn (value : List Char) : Cut := numbersFrom 0 value

/-- What a text is cut into: no number begins in what stands before a number or after the last
one, and each number is what is found at its place. -/
inductive CutInto : List Char → Cut → Prop
  | rest {cs : List Char} (hrest : Silent cs []) : CutInto cs ⟨[], cs⟩
  | number {before t cs : List Char} {k : Cut} (hbefore : Silent before (t ++ cs)) (hne : t ≠ [])
      (hfound : numberOf (t ++ cs) = t) (hk : CutInto cs k) :
      CutInto (before ++ (t ++ cs)) ⟨(before, t) :: k.numbers, k.rest⟩

theorem numbersFrom_skip (t rest : List Char) :
    numbersFrom t.length (t ++ rest) = numbersFrom 0 rest := by
  induction t with
  | nil => rfl
  | cons c t ih => exact ih

theorem numbersIn_copy {c : Char} {cs : List Char} (h : numberOf (c :: cs) = []) :
    numbersIn (c :: cs) = (numbersIn cs).push c := by
  rw [numbersIn, numbersFrom, h]
  rfl

theorem numbersIn_number {t rest : List Char} (hne : t ≠ []) (h : numberOf (t ++ rest) = t) :
    numbersIn (t ++ rest) = (numbersIn rest).prepend t := by
  cases t with
  | nil => exact absurd rfl hne
  | cons c t =>
    rw [List.cons_append] at h ⊢
    rw [numbersIn, numbersFrom, h]
    show (numbersFrom ((c :: t).length - 1) (t ++ rest)).prepend (c :: t) = _
    rw [List.length_cons, Nat.add_sub_cancel, numbersFrom_skip]
    rfl

/-- What the search passes comes before the first number, or before the end. -/
theorem numbersIn_silent {before rest : List Char} (h : Silent before rest) :
    numbersIn (before ++ rest) = before.foldr Cut.push (numbersIn rest) := by
  induction before with
  | nil => rfl
  | cons c before ih => rw [List.cons_append, numbersIn_copy h.1, ih h.2, List.foldr_cons]

theorem foldr_push_number (before first t : List Char) (more : List (List Char × List Char))
    (rest : List Char) :
    before.foldr Cut.push ⟨(first, t) :: more, rest⟩ = ⟨(before ++ first, t) :: more, rest⟩ := by
  induction before with
  | nil => rfl
  | cons c before ih =>
    rw [List.foldr_cons, ih]
    rfl

theorem foldr_push_rest (before rest : List Char) :
    before.foldr Cut.push ⟨[], rest⟩ = ⟨[], before ++ rest⟩ := by
  induction before with
  | nil => rfl
  | cons c before ih =>
    rw [List.foldr_cons, ih]
    rfl

/-- The search finds what a text is cut into. -/
theorem CutInto.numbersIn_eq {cs : List Char} {k : Cut} (h : CutInto cs k) : numbersIn cs = k := by
  induction h with
  | @rest cs hrest =>
    have hpassed := numbersIn_silent hrest
    rw [List.append_nil] at hpassed
    rw [hpassed]
    have hall := foldr_push_rest cs []
    rwa [List.append_nil] at hall
  | @number before t cs k hbefore hne hfound _ ih =>
    rw [numbersIn_silent hbefore, numbersIn_number hne hfound, ih, Cut.prepend, foldr_push_number,
      List.append_nil]

theorem CutInto.push {c : Char} {cs : List Char} {k : Cut} (h : numberOf (c :: cs) = [])
    (hk : CutInto cs k) : CutInto (c :: cs) (k.push c) := by
  cases hk with
  | rest hrest =>
    refine .rest ⟨?_, hrest⟩
    rwa [List.append_nil]
  | @number before t cs k hbefore hne hfound hk =>
    exact @CutInto.number (c :: before) t cs k ⟨h, hbefore⟩ hne hfound hk

/-- A text is cut into what the search finds. -/
theorem cutInto_numbersIn (cs : List Char) : CutInto cs (numbersIn cs) := by
  induction hlength : cs.length using Nat.strongRecOn generalizing cs with
  | ind n ih =>
    subst hlength
    cases cs with
    | nil => exact .rest trivial
    | cons c cs =>
      by_cases hnone : numberOf (c :: cs) = []
      · rw [numbersIn_copy hnone]
        exact (ih cs.length (by simp) cs rfl).push hnone
      · obtain ⟨rest, hrest⟩ := numberOf_begins (c :: cs)
        have hfound : numberOf (numberOf (c :: cs) ++ rest) = numberOf (c :: cs) := by rw [hrest]
        have hshorter : rest.length < (c :: cs).length := by
          rw [← hrest, List.length_append]
          have hpositive := List.length_pos_iff.mpr hnone
          omega
        rw [← hrest, numbersIn_number hnone hfound]
        exact @CutInto.number [] _ rest _ trivial hnone hfound (ih _ hshorter rest rfl)

/-- **The search for numbers** against what a text is cut into. -/
theorem numbersIn_iff {cs : List Char} {k : Cut} : numbersIn cs = k ↔ CutInto cs k :=
  ⟨fun h => h ▸ cutInto_numbersIn cs, CutInto.numbersIn_eq⟩

end ControlSurface.Svg
