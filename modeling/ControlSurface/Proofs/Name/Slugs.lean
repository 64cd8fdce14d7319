/-
  ControlSurface.Proofs.Name.Slugs
  ────────────────────────────────
  Slugs and identifiers that are made of names.  A slug is a base with a count after it from the
  second time on, so two slugs are equal only if one name spells out the suffix that a repeated name
  gets: `nodup_slugs_iff` says that this is the only way.  An identifier is made of small letters,
  digits and hyphens (`normalize_chars`), so what stands after an underscore is no part of it; the
  identifiers of checked elements are different.
-/
import ControlSurface.Check
import ControlSurface.Name
import ControlSurface.Proofs.Fault.Outcome
import ControlSurface.Proofs.Text.Search
import Mathlib.Data.List.Nodup

namespace ControlSurface.Name

open ControlSurface.Text

/-! ## §1. Suffixes. -/

/-- A base with the count that a repeat of it gets. -/
def suffixed (base : String) (count : Nat) : String := s!"{base}-{count}"

/-- The slug of the name that is the `count`-th of its base. -/
def counted (base : String) (count : Nat) : String :=
  if count = 1 then base else suffixed base count

theorem toList_suffixed (base : String) (count : Nat) :
    (suffixed base count).toList = base.toList ++ '-' :: Nat.toDigits 10 count := by
  have h : suffixed base count = base ++ "-" ++ count.repr := rfl
  rw [h, String.toList_append, String.toList_append, Nat.toList_repr, List.append_assoc]
  rfl

theorem hyphen_not_mem_toDigits (count : Nat) : '-' ∉ Nat.toDigits 10 count := by
  intro h
  have := Nat.isDigit_of_mem_toDigits (by decide) (by decide) h
  exact absurd this (by decide)

theorem toDigits_inj {m n : Nat} (h : Nat.toDigits 10 m = Nat.toDigits 10 n) : m = n := by
  rw [← Nat.ofDigitChars_ten_toDigits (n := m), h, Nat.ofDigitChars_ten_toDigits]

/-- The last hyphen parts the base from the count, so both can be read off. -/
theorem suffixed_inj {b b' : String} {k k' : Nat} (h : suffixed b k = suffixed b' k') :
    b = b' ∧ k = k' := by
  have hl := congrArg String.toList h
  rw [toList_suffixed, toList_suffixed] at hl
  obtain ⟨hb, hk⟩ := append_last_mark_inj (hyphen_not_mem_toDigits k)
    (hyphen_not_mem_toDigits k') hl
  exact ⟨String.toList_inj.mp hb, toDigits_inj hk⟩

/-! ## §2. Bases with their counts. -/

/-- The bases of names, each with the number of times it has come, itself included; `seen` holds
the bases that came before. -/
def ranked (fallback : String) (seen : List String) : List String → List (String × Nat)
  | [] => []
  | name :: names =>
    let base := slugOr fallback name
    (base, seen.count base + 1) :: ranked fallback (base :: seen) names

/-- The bases of names: what their slugs are before repeats are counted. -/
def bases (fallback : String) (names : List String) : List String := names.map (slugOr fallback)

theorem bases_cons (fallback name : String) (names : List String) :
    bases fallback (name :: names) = slugOr fallback name :: bases fallback names := rfl

theorem slugsAfter_eq (fallback : String) (seen names : List String) :
    slugsAfter fallback seen names
      = (ranked fallback seen names).map fun r => counted r.1 r.2 := by
  induction names generalizing seen with
  | nil => rfl
  | cons name names ih =>
    rw [slugsAfter, ranked, List.map_cons, ih]
    rfl

/-- A base comes with every count above the ones it had before, up to its number. -/
theorem mem_ranked_iff (fallback : String) (seen names : List String) (b : String) (k : Nat) :
    (b, k) ∈ ranked fallback seen names
      ↔ seen.count b < k ∧ k ≤ seen.count b + (bases fallback names).count b := by
  -- the first name has the next count of its base, and later ones begin after it
  induction names generalizing seen with
  | nil =>
    simp only [ranked, bases, List.map_nil, List.count_nil, List.not_mem_nil, false_iff]
    omega
  | cons name names ih =>
    rw [ranked, List.mem_cons, ih, bases_cons]
    by_cases hb : b = slugOr fallback name
    · subst hb
      rw [List.count_cons_self, List.count_cons_self, Prod.mk.injEq]
      constructor
      · rintro (⟨-, hk⟩ | hk) <;> omega
      · intro hk
        by_cases h1 : k = seen.count (slugOr fallback name) + 1
        · exact Or.inl ⟨rfl, h1⟩
        · exact Or.inr (by omega)
    · rw [List.count_cons_of_ne (Ne.symm hb), List.count_cons_of_ne (Ne.symm hb)]
      simp [hb]

theorem nodup_ranked (fallback : String) (seen names : List String) :
    (ranked fallback seen names).Nodup := by
  induction names generalizing seen with
  | nil => exact List.nodup_nil
  | cons name names ih =>
    rw [ranked, List.nodup_cons]
    refine ⟨?_, ih _⟩
    rw [mem_ranked_iff, List.count_cons_self]
    omega

/-! ## §3. When slugs are kept apart. -/

/-- A slug is a base with one of the counts up to its number. -/
theorem mem_slugs_iff (fallback : String) (names : List String) (s : String) :
    s ∈ slugs names fallback
      ↔ ∃ b k, 0 < k ∧ k ≤ (bases fallback names).count b ∧ counted b k = s := by
  rw [slugs, slugsAfter_eq, List.mem_map]
  constructor
  · rintro ⟨⟨b, k⟩, hr, hs⟩
    have hk := (mem_ranked_iff fallback [] names b k).mp hr
    simp only [List.count_nil, Nat.zero_add] at hk
    exact ⟨b, k, hk.1, hk.2, hs⟩
  · rintro ⟨b, k, hk, hcount, hs⟩
    exact ⟨(b, k), (mem_ranked_iff fallback [] names b k).mpr (by simpa using ⟨hk, hcount⟩), hs⟩

/-- A text without a hyphen is a slug iff it is the base of a name. -/
theorem mem_slugs_of_no_hyphen {fallback s : String} {names : List String}
    (hs : '-' ∉ s.toList) : s ∈ slugs names fallback ↔ s ∈ bases fallback names := by
  rw [mem_slugs_iff]
  constructor
  · -- from the second time on a slug has a hyphen
    rintro ⟨b, k, hk, hcount, hb⟩
    by_cases h1 : k = 1
    · rw [counted, if_pos h1] at hb
      rw [← hb]
      exact List.count_pos_iff.mp (by omega)
    · rw [counted, if_neg h1] at hb
      refine absurd ?_ hs
      rw [← hb, toList_suffixed]
      simp
  · intro h
    exact ⟨s, 1, by omega, List.count_pos_iff.mpr h, rfl⟩

/-- A name spells out the suffix that a repeat of another base gets. -/
def SpellsSuffix (fallback : String) (names : List String) : Prop :=
  ∃ base count, 2 ≤ count ∧ count ≤ (bases fallback names).count base
    ∧ suffixed base count ∈ bases fallback names

/-- **Slugs are kept apart unless a name spells out the suffix of a repeat.** -/
theorem nodup_slugs_iff (fallback : String) (names : List String) :
    (slugs names fallback).Nodup ↔ ¬ SpellsSuffix fallback names := by
  have hmem : ∀ b k, (b, k) ∈ ranked fallback [] names
      ↔ 0 < k ∧ k ≤ (bases fallback names).count b := by
    intro b k
    simpa using mem_ranked_iff fallback [] names b k
  rw [slugs, slugsAfter_eq, List.nodup_map_iff_inj_on (nodup_ranked _ _ _)]
  constructor
  · rintro hinj ⟨b, k, hk, hcount, hspelled⟩
    -- the first name with the spelled-out base gets the slug of the `k`-th repeat
    have h1 : (suffixed b k, 1) ∈ ranked fallback [] names :=
      (hmem _ _).mpr ⟨by omega, List.count_pos_iff.mpr hspelled⟩
    have h2 : (b, k) ∈ ranked fallback [] names := (hmem _ _).mpr ⟨by omega, hcount⟩
    have heq := hinj _ h1 _ h2 (by simp [counted, show k ≠ 1 by omega])
    have : (1 : Nat) = k := congrArg Prod.snd heq
    omega
  · rintro hspells ⟨b, k⟩ hb ⟨b', k'⟩ hb' heq
    obtain ⟨hk, hkc⟩ := (hmem _ _).mp hb
    obtain ⟨hk', hkc'⟩ := (hmem _ _).mp hb'
    simp only [counted] at heq
    -- a base equals a suffixed one only if some name spells it out
    by_cases h1 : k = 1 <;> by_cases h1' : k' = 1
    · rw [if_pos h1, if_pos h1'] at heq
      rw [heq, h1, h1']
    · rw [if_pos h1, if_neg h1'] at heq
      refine absurd ⟨b', k', by omega, hkc', ?_⟩ hspells
      rw [← heq]
      exact List.count_pos_iff.mp (by omega)
    · rw [if_neg h1, if_pos h1'] at heq
      refine absurd ⟨b, k, by omega, hkc, ?_⟩ hspells
      rw [heq]
      exact List.count_pos_iff.mp (by omega)
    · rw [if_neg h1, if_neg h1'] at heq
      obtain ⟨hbb, hkk⟩ := suffixed_inj heq
      rw [hbb, hkk]

theorem length_slugs (fallback : String) (names : List String) :
    (slugs names fallback).length = names.length := by
  have h : ∀ seen, (slugsAfter fallback seen names).length = names.length := by
    induction names with
    | nil => intro seen; rfl
    | cons name names ih => intro seen; rw [slugsAfter, List.length_cons, ih, List.length_cons]
  exact h []

/-! ## §4. The characters of slugs. -/

/-- A small letter, a digit or a hyphen. -/
def isSlugChar (c : Char) : Bool := isSmall c || c = '-'

theorem solid_of_slugChar {c : Char} (h : isSlugChar c = true) : isBlank c = false := by
  -- no white space lies in the range of digits or of small letters
  rw [Bool.eq_false_iff]
  intro hblank
  simp only [isBlank, Bool.or_eq_true, Bool.and_eq_true, decide_eq_true_eq, beq_iff_eq] at hblank
  simp only [isSlugChar, isSmall, Bool.or_eq_true, decide_eq_true_eq, Char.le_def,
    UInt32.le_iff_toNat_le] at h
  have hcode : c.val.toNat = c.toNat := rfl
  rw [hcode] at h
  rcases h with h | rfl
  · simp at h
    omega
  · exact absurd hblank (by decide)

theorem mem_hyphenate {keep : Char → Bool} {gap : Bool} {cs : List Char} {c : Char}
    (h : c ∈ hyphenate keep gap cs) : keep c = true ∨ c = '-' := by
  induction cs generalizing gap with
  | nil => simp [hyphenate] at h
  | cons d cs ih =>
    rw [hyphenate] at h
    split at h
    next hd =>
      rcases List.mem_cons.mp h with rfl | h
      · exact Or.inl hd
      · exact ih h
    next hd =>
      split at h
      · exact ih h
      · rcases List.mem_cons.mp h with rfl | h
        · exact Or.inr rfl
        · exact ih h

theorem mem_trimBy {p : Char → Bool} {cs : List Char} {c : Char} (h : c ∈ trimBy p cs) :
    c ∈ cs := by
  rw [trimBy, trimEndBy, List.mem_reverse] at h
  have h := (List.dropWhile_sublist _).mem h
  rw [List.mem_reverse, trimStartBy] at h
  exact (List.dropWhile_sublist _).mem h

/-- The base of a name is the fallback or made of small letters, digits and hyphens. -/
theorem slugOr_chars (fallback name : String) (hf : fallback.toList.all isSlugChar = true) :
    (slugOr fallback name).toList.all isSlugChar = true := by
  rw [slugOr]
  split
  next => exact hf
  next =>
    rw [String.toList_ofList, List.all_eq_true]
    intro c hc
    rcases mem_hyphenate (mem_trimBy hc) with h | h
    · simp [isSlugChar, h]
    · simp [isSlugChar, h]

/-- Slugs are made of small letters, digits and hyphens. -/
theorem slugs_chars {fallback slug : String} {names : List String}
    (hf : fallback.toList.all isSlugChar = true) (h : slug ∈ slugs names fallback) :
    slug.toList.all isSlugChar = true := by
  obtain ⟨b, k, hk, hcount, rfl⟩ := (mem_slugs_iff fallback names slug).mp h
  have hb : b ∈ bases fallback names := List.count_pos_iff.mp (by omega)
  obtain ⟨name, _, rfl⟩ := List.mem_map.mp hb
  have hbase := slugOr_chars fallback name hf
  by_cases h1 : k = 1
  · rwa [counted, if_pos h1]
  · rw [counted, if_neg h1, toList_suffixed, List.all_append, List.all_cons, hbase]
    have hdigits : (Nat.toDigits 10 k).all isSlugChar = true := by
      rw [List.all_eq_true]
      intro c hc
      have hd := Nat.isDigit_of_mem_toDigits (by decide) (by decide) hc
      simp only [Char.isDigit, Bool.and_eq_true, decide_eq_true_eq] at hd
      simp only [isSlugChar, isSmall, Bool.or_eq_true, decide_eq_true_eq]
      exact Or.inl (Or.inr hd)
    rw [hdigits]
    rfl

/-- No slug is empty, unless the fallback is. -/
theorem ne_empty_of_mem_slugs {fallback slug : String} {names : List String} (hf : fallback ≠ "")
    (h : slug ∈ slugs names fallback) : slug ≠ "" := by
  obtain ⟨b, k, hk, hcount, rfl⟩ := (mem_slugs_iff fallback names slug).mp h
  have hb : b ∈ bases fallback names := List.count_pos_iff.mp (by omega)
  obtain ⟨name, _, rfl⟩ := List.mem_map.mp hb
  by_cases h1 : k = 1
  · rw [counted, if_pos h1, slugOr]
    split
    next => exact hf
    next hne => exact fun hempty => hne (by simpa using congrArg String.toList hempty)
  · intro hempty
    rw [counted, if_neg h1] at hempty
    have hl := congrArg String.toList hempty
    rw [toList_suffixed] at hl
    simp at hl

/-- No slug holds a slash. -/
theorem slash_not_mem_slugs {fallback slug : String} {names : List String}
    (hf : fallback.toList.all isSlugChar = true) (h : slug ∈ slugs names fallback) :
    '/' ∉ slug.toList := by
  intro hslash
  have := List.all_eq_true.mp (slugs_chars hf h) '/' hslash
  exact absurd this (by decide)

end ControlSurface.Name

namespace ControlSurface

open ControlSurface.Outcome ControlSurface.Text

/-! ## §5. Normalized names. -/

namespace Name

/-- The small letter of a capital is a small letter. -/
theorem isSmall_asciiLower {c : Char} (h : isSmall c = true ∨ isCapital c = true) :
    isSmall (asciiLower c) = true := by
  unfold asciiLower
  split
  next hcapital =>
    have hsmall : ∀ n, n < 91 → 65 ≤ n → isSmall (Char.ofNat (n + 32)) = true := by decide
    have hlo : 'A'.toNat ≤ c.toNat := hcapital.1
    have hhi : c.toNat ≤ 'Z'.toNat := hcapital.2
    exact hsmall c.toNat (by simpa using Nat.lt_succ_of_le hhi) hlo
  next hnot =>
    rcases h with h | h
    · exact h
    · exact absurd (of_decide_eq_true h) hnot

/-- **An identifier is made of small letters, digits and hyphens.** -/
theorem normalize_chars (name : String) : ∀ c ∈ (normalize name).toList, isSlugChar c = true := by
  have hfixed : ∀ c ∈ "element".toList ++ "el-".toList, isSlugChar c = true :=
    List.all_eq_true.mp (by decide)
  unfold normalize
  extract_lets words body
  have hbody : ∀ c ∈ body, isSlugChar c = true := by
    intro c hc
    obtain ⟨d, hd, rfl⟩ := List.mem_map.mp hc
    rcases mem_hyphenate (mem_trimBy hd) with hkept | rfl
    · simp [isSlugChar, isSmall_asciiLower (Bool.or_eq_true_iff.mp hkept)]
    · decide
  clear_value body
  cases body with
  | nil => exact fun c hc => hfixed c (List.mem_append_left _ hc)
  | cons first more =>
    dsimp only
    rw [String.toList_ofList]
    split
    next =>
      intro c hc
      rcases List.mem_append.mp (show c ∈ "el-".toList ++ first :: more from hc) with hc | hc
      · exact hfixed c (List.mem_append_right _ hc)
      · exact hbody c hc
    next => exact hbody

theorem underscore_not_mem_normalize (name : String) : '_' ∉ (normalize name).toList :=
  fun h => absurd (normalize_chars name '_' h) (by decide)

end Name

/-! ## §6. Identifiers of elements. -/

namespace Element

/-- The identifier of an element in the document; empty if its name is no text. -/
def identifier (e : Element) : String := e.domId.toOption.getD ""

theorem identifier_eq {e : Element} {domId : String} (h : e.domId = .ok domId) :
    e.identifier = domId := by
  rw [identifier, h]
  rfl

theorem underscore_not_mem_identifier (e : Element) : '_' ∉ e.identifier.toList := by
  rw [identifier]
  cases hdom : e.domId with
  | error => exact List.not_mem_nil
  | ok domId =>
    obtain ⟨name, _, hok⟩ := (bind_eq_ok_iff _ _ _).mp hdom
    have hname : Name.normalize name = domId := Except.ok.inj hok
    show '_' ∉ domId.toList
    rw [← hname]
    exact Name.underscore_not_mem_normalize name

end Element

/-! ## §7. Checked names. -/

namespace Check

/-- What the check of names leaves: the element has a name, and no named element before it has its
identifier. -/
theorem of_nameErrors {earlier : List Element} {e : Element} (h : nameErrors earlier e = .ok []) :
    isNamed e = .ok true ∧ e.domId = .ok e.identifier ∧ holder? earlier e.identifier = none := by
  obtain ⟨named, hnamed, h⟩ := (bind_eq_ok_iff _ _ _).mp h
  cases named with
  | false => cases h
  | true =>
    obtain ⟨domId, hdomId, h⟩ := (bind_eq_ok_iff _ _ _).mp h
    rw [Element.identifier_eq hdomId]
    refine ⟨hnamed, hdomId, ?_⟩
    split at h
    next hnone => exact hnone
    next => cases h

/-- An element that passed the check of its name. -/
structure Passed (e : Element) : Prop where
  named : isNamed e = .ok true
  domId : e.domId = .ok e.identifier

theorem Passed.ne_of_holder? {earlier : List Element} {e f : Element} (hf : Passed f)
    (hmem : f ∈ earlier) (h : holder? earlier e.identifier = none) :
    f.identifier ≠ e.identifier := by
  intro heq
  have hnot := List.find?_eq_none.mp h f hmem
  rw [hf.named, hf.domId] at hnot
  simp [heq] at hnot

/-- The check goes through the elements one by one: each has passed, and has another identifier
than those before it. -/
theorem of_checkFrom {windows : Option (List String)} {all earlier elements : List Element}
    {r : Report} (h : checkFrom windows all earlier elements = .ok r) (hvalid : r.errors = [])
    (hearlier : ∀ f ∈ earlier, Passed f) :
    (∀ e ∈ elements, Passed e ∧ ∀ f ∈ earlier, f.identifier ≠ e.identifier)
      ∧ (elements.map Element.identifier).Nodup := by
  induction elements generalizing earlier r with
  | nil => exact ⟨by simp, List.nodup_nil⟩
  | cons e elements ih =>
    obtain ⟨first, hfirst, h⟩ := (bind_eq_ok_iff _ _ _).mp h
    obtain ⟨others, hothers, h⟩ := (bind_eq_ok_iff _ _ _).mp h
    cases h
    obtain ⟨hnone, hrest⟩ := List.append_eq_nil_iff.mp hvalid
    obtain ⟨names, hnames, hfirst⟩ := (bind_eq_ok_iff _ _ _).mp hfirst
    have hempty : names = [] := by
      obtain ⟨parents, _, hfirst⟩ := (bind_eq_ok_iff _ _ _).mp hfirst
      obtain ⟨_, _, hfirst⟩ := (bind_eq_ok_iff _ _ _).mp hfirst
      obtain ⟨_, _, hfirst⟩ := (bind_eq_ok_iff _ _ _).mp hfirst
      obtain ⟨_, _, hfirst⟩ := (bind_eq_ok_iff _ _ _).mp hfirst
      cases hfirst
      exact (List.append_eq_nil_iff.mp hnone).1
    rw [hempty] at hnames
    obtain ⟨hnamed, hdomId, hholder⟩ := of_nameErrors hnames
    have he : Passed e := ⟨hnamed, hdomId⟩
    have hapart : ∀ f ∈ earlier, f.identifier ≠ e.identifier := fun f hf =>
      (hearlier f hf).ne_of_holder? hf hholder
    obtain ⟨hall, hnodup⟩ := ih hothers hrest fun f hf => by
      rcases List.mem_append.mp hf with hf | hf
      · exact hearlier f hf
      · exact List.mem_singleton.mp hf ▸ he
    refine ⟨?_, List.nodup_cons.mpr ⟨?_, hnodup⟩⟩
    · intro k hk
      rcases List.mem_cons.mp hk with rfl | hk
      · exact ⟨he, hapart⟩
      · exact ⟨(hall k hk).1, fun f hf => (hall k hk).2 f (List.mem_append_left _ hf)⟩
    · intro hmem
      obtain ⟨k, hk, heq⟩ := List.mem_map.mp hmem
      exact (hall k hk).2 e (by simp) heq.symm

/-- **The identifiers of checked elements are different**, and every element has one. -/
theorem identifiers_of_check {windows : Option (List String)} {elements : List Element} {r : Report}
    (h : check windows elements = .ok r) (hvalid : r.valid = true) :
    (∀ e ∈ elements, e.domId = .ok e.identifier)
      ∧ (elements.map Element.identifier).Nodup := by
  unfold check at h
  split at h
  next =>
    obtain ⟨hall, hnodup⟩ := of_checkFrom h (List.isEmpty_iff.mp hvalid) (by simp)
    exact ⟨fun e he => (hall e he).1.domId, hnodup⟩
  next => cases h

end Check

end ControlSurface
