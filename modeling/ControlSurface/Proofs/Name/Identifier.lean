/-
  ControlSurface.Proofs.Name.Identifier
  ─────────────────────────────────────
  The form of identifiers, and what keeps them apart.  A normalized name is made of words of small
  letters and digits that are joined by single hyphens, the first of which begins with a letter
  (`IsIdentifier`); normalizing changes no text of this form.  Neither such a name nor a slug has an
  underscore, so the two underscores behind the slug and the two before the part tell where the
  parts of an inner identifier end: `identifiers_safe` says that it fixes all three of them and is
  the identifier of no element.
-/
import ControlSurface.Preview.Document
import ControlSurface.Proofs.Name.Slugs
import ControlSurface.Proofs.Number.Plain
import ControlSurface.Proofs.Page.Identifiers

namespace ControlSurface.Name

open ControlSurface.Text

/-! ## §1. Words joined by hyphens. -/

/-- Words of a class, joined by single hyphens: such a text is not empty, begins and ends with a
character of the class, and has no two hyphens in a row. -/
inductive Hyphenated (keep : Char → Bool) : List Char → Prop
  | last {c : Char} (hc : keep c = true) : Hyphenated keep [c]
  | kept {c : Char} {cs : List Char} (hc : keep c = true) (hcs : Hyphenated keep cs) :
      Hyphenated keep (c :: cs)
  | joined {c : Char} {cs : List Char} (hc : keep c = true) (hcs : Hyphenated keep cs) :
      Hyphenated keep (c :: '-' :: cs)

/-- A word of a class of characters. -/
def IsWord (keep : Char → Bool) (word : List Char) : Prop :=
  word ≠ [] ∧ ∀ c ∈ word, keep c = true

/-- A small letter. -/
def isLetter (c : Char) : Bool := decide ('a' ≤ c ∧ c ≤ 'z')

/-- The form of an identifier: `[a-z][a-z0-9]*(-[a-z0-9]+)*`. -/
def IsIdentifier (text : String) : Prop :=
  ∃ (first : Char) (more : List Char) (words : List (List Char)),
    isLetter first = true ∧ (∀ c ∈ more, isSmall c = true)
    ∧ (∀ word ∈ words, IsWord isSmall word)
    ∧ text.toList = first :: more ++ words.flatMap ('-' :: ·)

section Hyphenated

variable {keep : Char → Bool} {cs : List Char}

theorem Hyphenated.head {c : Char} (h : Hyphenated keep (c :: cs)) : keep c = true := by
  cases h <;> assumption

theorem Hyphenated.mem (h : Hyphenated keep cs) : ∀ c ∈ cs, keep c = true ∨ c = '-' := by
  induction h with
  | last hc => simp [hc]
  | kept hc _ ih => simpa [hc] using ih
  | joined hc _ ih => simpa [hc] using ih

theorem Hyphenated.map {keep' : Char → Bool} {f : Char → Char} (hf : f '-' = '-')
    (hkeep : ∀ c, keep c = true → keep' (f c) = true) (h : Hyphenated keep cs) :
    Hyphenated keep' (cs.map f) := by
  induction h with
  | last hc => exact .last (hkeep _ hc)
  | kept hc _ ih => exact .kept (hkeep _ hc) ih
  | joined hc _ ih => rw [List.map_cons, List.map_cons, hf]; exact .joined (hkeep _ hc) ih

/-- The words of a text, read off from the left. -/
theorem Hyphenated.words (h : Hyphenated keep cs) :
    ∃ (word : List Char) (words : List (List Char)), IsWord keep word ∧ (∀ w ∈ words, IsWord keep w)
      ∧ cs = word ++ words.flatMap ('-' :: ·) := by
  induction h with
  | @last c hc => exact ⟨[c], [], ⟨by simp, by simpa using hc⟩, by simp, by simp⟩
  | @kept c cs hc _ ih =>
    obtain ⟨word, words, hword, hwords, rfl⟩ := ih
    exact ⟨c :: word, words, ⟨by simp, by simpa [hc] using hword.2⟩, hwords, rfl⟩
  | @joined c cs hc _ ih =>
    obtain ⟨word, words, hword, hwords, rfl⟩ := ih
    refine ⟨[c], word :: words, ⟨by simp, by simpa using hc⟩, ?_, by simp⟩
    exact List.forall_mem_cons.mpr ⟨hword, hwords⟩

theorem hyphenated_of_words {word : List Char} {words : List (List Char)}
    (hword : IsWord keep word) (hwords : ∀ w ∈ words, IsWord keep w) :
    Hyphenated keep (word ++ words.flatMap ('-' :: ·)) := by
  -- over the list of words; in each, over the characters of the first one
  induction words generalizing word with
  | nil =>
    obtain ⟨hne, hall⟩ := hword
    simp only [List.flatMap_nil, List.append_nil]
    induction word with
    | nil => exact absurd rfl hne
    | cons c more ih =>
      obtain ⟨hc, hmore⟩ := List.forall_mem_cons.mp hall
      cases more with
      | nil => exact .last hc
      | cons d more => exact .kept hc (ih (by simp) hmore)
  | cons next words ih =>
    obtain ⟨hnext, hwords⟩ := List.forall_mem_cons.mp hwords
    have hrest := ih hnext hwords
    obtain ⟨hne, hall⟩ := hword
    rw [List.flatMap_cons, List.cons_append]
    induction word with
    | nil => exact absurd rfl hne
    | cons c more ihc =>
      obtain ⟨hc, hmore⟩ := List.forall_mem_cons.mp hall
      cases more with
      | nil => exact .joined hc hrest
      | cons d more => exact .kept hc (ihc (by simp) hmore)

end Hyphenated

/-! ## §2. Hyphens for runs of other characters. -/

/-- A hyphen at the end is trimmed, one before a character of a word is not. -/
theorem trimEnd_hyphen (cs : List Char) :
    trimEndBy (· = '-') ('-' :: cs)
      = if trimEndBy (· = '-') cs = [] then [] else '-' :: trimEndBy (· = '-') cs := by
  simp only [trimEndBy, List.reverse_cons, List.dropWhile_append, List.isEmpty_iff,
    List.reverse_eq_nil_iff]
  split
  next => simp
  next => simp

section Hyphens

variable {keep : Char → Bool} (hhyphen : keep '-' = false)

include hhyphen

theorem ne_hyphen {c : Char} (hc : keep c = true) : decide (c = '-') = false :=
  decide_eq_false fun heq => by rw [heq, hhyphen] at hc; cases hc

theorem trimEnd_kept {c : Char} (hc : keep c = true) (cs : List Char) :
    trimEndBy (· = '-') (c :: cs) = c :: trimEndBy (· = '-') cs :=
  Number.trimEndBy_append_cons (ne_hyphen hhyphen hc) [] cs

/-- After a gap the text begins with a character of a word, if there is any. -/
theorem dropWhile_hyphenate_gap (cs : List Char) :
    (hyphenate keep true cs).dropWhile (· = '-') = hyphenate keep true cs := by
  induction cs with
  | nil => rfl
  | cons c cs ih =>
    rw [hyphenate]
    split
    next hc => exact List.dropWhile_cons_of_neg (by simp [ne_hyphen hhyphen hc])
    next => exact ih

/-- Trimming from the left leaves what a gap before the text would leave. -/
theorem dropWhile_hyphenate (cs : List Char) :
    (hyphenate keep false cs).dropWhile (· = '-') = hyphenate keep true cs := by
  cases cs with
  | nil => rfl
  | cons c cs =>
    rw [hyphenate, hyphenate]
    split
    next hc => exact List.dropWhile_cons_of_neg (by simp [ne_hyphen hhyphen hc])
    next => exact dropWhile_hyphenate_gap hhyphen cs

theorem trimHyphens_hyphenate (cs : List Char) :
    trimHyphens (hyphenate keep false cs) = trimEndBy (· = '-') (hyphenate keep true cs) := by
  rw [trimHyphens, trimBy, trimStartBy, dropWhile_hyphenate hhyphen]

/-- What is left of a text: nothing, or words; where no gap came before, a hyphen may stand before
the words. -/
theorem trimEnd_hyphenate (gap : Bool) (cs : List Char) :
    trimEndBy (· = '-') (hyphenate keep gap cs) = []
      ∨ Hyphenated keep (trimEndBy (· = '-') (hyphenate keep gap cs))
      ∨ gap = false ∧ ∃ rest, Hyphenated keep rest
          ∧ trimEndBy (· = '-') (hyphenate keep gap cs) = '-' :: rest := by
  induction cs generalizing gap with
  | nil => exact Or.inl rfl
  | cons c cs ih =>
    by_cases hc : keep c = true
    · have hstep : hyphenate keep gap (c :: cs) = c :: hyphenate keep false cs := by
        rw [hyphenate, if_pos hc]
      rw [hstep, trimEnd_kept hhyphen hc]
      refine Or.inr (Or.inl ?_)
      rcases ih false with hnil | hrest | ⟨-, rest, hrest, heq⟩
      · rw [hnil]; exact .last hc
      · exact .kept hc hrest
      · rw [heq]; exact .joined hc hrest
    · cases gap with
      | true =>
        have hstep : hyphenate keep true (c :: cs) = hyphenate keep true cs := by
          rw [hyphenate, if_neg hc, if_pos rfl]
        rw [hstep]
        exact ih true
      | false =>
        have hstep : hyphenate keep false (c :: cs) = '-' :: hyphenate keep true cs := by
          rw [hyphenate, if_neg hc, if_neg Bool.false_ne_true]
        rw [hstep, trimEnd_hyphen]
        rcases ih true with hnil | hrest | ⟨hfalse, -⟩
        · exact Or.inl (if_pos hnil)
        · by_cases hnil : trimEndBy (· = '-') (hyphenate keep true cs) = []
          · exact Or.inl (if_pos hnil)
          · exact Or.inr (Or.inr ⟨rfl, _, hrest, if_neg hnil⟩)
        · cases hfalse

/-- **What is left between the hyphens is nothing, or words joined by single hyphens.** -/
theorem hyphenated_trimHyphens (cs : List Char) :
    trimHyphens (hyphenate keep false cs) = []
      ∨ Hyphenated keep (trimHyphens (hyphenate keep false cs)) := by
  rw [trimHyphens_hyphenate hhyphen]
  rcases trimEnd_hyphenate hhyphen true cs with hnil | hwords | ⟨hfalse, -⟩
  · exact Or.inl hnil
  · exact Or.inr hwords
  · cases hfalse

/-- Words joined by single hyphens stay as they are, whether a gap came before them or not. -/
theorem hyphenate_of_hyphenated {cs : List Char} (h : Hyphenated keep cs) (gap : Bool) :
    hyphenate keep gap cs = cs := by
  induction h generalizing gap with
  | last hc => simp [hyphenate, hc]
  | kept hc _ ih => rw [hyphenate, if_pos hc, ih]
  | joined hc _ ih =>
    rw [hyphenate, if_pos hc, hyphenate, if_neg (by simp [hhyphen]), if_neg Bool.false_ne_true, ih]

theorem trimEnd_of_hyphenated {cs : List Char} (h : Hyphenated keep cs) :
    trimEndBy (· = '-') cs = cs := by
  induction h with
  | last hc => exact trimEnd_kept hhyphen hc []
  | kept hc _ ih => rw [trimEnd_kept hhyphen hc, ih]
  | joined hc hcs ih =>
    rw [trimEnd_kept hhyphen hc, trimEnd_hyphen, ih, if_neg (by rintro rfl; cases hcs)]

theorem trimHyphens_of_hyphenated {cs : List Char} (h : Hyphenated keep cs) :
    trimHyphens (hyphenate keep false cs) = cs := by
  rw [trimHyphens_hyphenate hhyphen, hyphenate_of_hyphenated hhyphen h,
    trimEnd_of_hyphenated hhyphen h]

end Hyphens

/-! ## §3. Normalized names. -/

/-- A text of words that begin with a letter has the form of an identifier. -/
theorem isIdentifier_of_hyphenated {c : Char} {cs : List Char} (hc : isLetter c = true)
    (h : Hyphenated isSmall (c :: cs)) : IsIdentifier (String.ofList (c :: cs)) := by
  obtain ⟨word, words, ⟨hne, hword⟩, hwords, heq⟩ := h.words
  cases word with
  | nil => exact absurd rfl hne
  | cons first more =>
    obtain ⟨rfl, -⟩ := List.cons.inj heq
    exact ⟨c, more, words, hc, fun d hd => hword d (List.mem_cons_of_mem _ hd), hwords,
      by rw [String.toList_ofList, heq]⟩

theorem isSmall_of_isLetter {c : Char} (h : isLetter c = true) : isSmall c = true := by
  simp only [isLetter, isSmall, decide_eq_true_eq] at h ⊢
  exact Or.inl h

theorem IsIdentifier.hyphenated {text : String} (h : IsIdentifier text) :
    ∃ first rest, text.toList = first :: rest ∧ isLetter first = true
      ∧ Hyphenated isSmall (first :: rest) := by
  obtain ⟨first, more, words, hfirst, hmore, hwords, htext⟩ := h
  refine ⟨first, _, htext, hfirst, hyphenated_of_words ⟨List.cons_ne_nil _ _, ?_⟩ hwords⟩
  exact List.forall_mem_cons.mpr ⟨isSmall_of_isLetter hfirst, hmore⟩

/-- The letters and digits of which words are made before they are lowered. -/
def isKept (c : Char) : Bool := isSmall c || isCapital c

/-- **A normalized name has the form of an identifier.** -/
theorem isIdentifier_normalize (name : String) : IsIdentifier (normalize name) := by
  unfold normalize
  extract_lets words body
  have hbody : body = [] ∨ Hyphenated isSmall body := by
    have hhyphen : isKept '-' = false := by decide
    rcases hyphenated_trimHyphens hhyphen (parted (trim name.toList)) with hnil | hwords
    · exact Or.inl (congrArg (List.map asciiLower) hnil)
    · exact Or.inr (hwords.map (by decide) fun c hc =>
        isSmall_asciiLower (Bool.or_eq_true_iff.mp hc))
  clear_value body
  cases body with
  | nil => exact ⟨'e', "lement".toList, [], by decide, List.all_eq_true.mp (by decide), by simp,
      by decide⟩
  | cons c cs =>
    have hcs : Hyphenated isSmall (c :: cs) := hbody.resolve_left (by simp)
    dsimp only
    split
    next =>
      exact isIdentifier_of_hyphenated (by decide) (.kept (by decide) (.joined (by decide) hcs))
    next hdigit =>
      refine isIdentifier_of_hyphenated ?_ hcs
      have hsmall := hcs.head
      simp only [isSmall, decide_eq_true_eq] at hsmall hdigit
      exact decide_eq_true (hsmall.resolve_right hdigit)

theorem not_capital_of_slugChar {c : Char} (h : isSlugChar c = true) : isCapital c = false := by
  rw [Bool.eq_false_iff]
  intro hcapital
  simp only [isSlugChar, isSmall, isCapital, Bool.or_eq_true, decide_eq_true_eq, Char.le_def,
    UInt32.le_iff_toNat_le] at h hcapital
  rcases h with h | rfl
  · simp at h hcapital
    omega
  · exact absurd hcapital (by decide)

theorem parted_of_no_capital {cs : List Char} (h : ∀ c ∈ cs, isCapital c = false) :
    parted cs = cs := by
  fun_induction parted cs with
  | case1 a b cs hboth => simp [h b (by simp)] at hboth
  | case2 a b cs _ ih => rw [ih fun c hc => h c (List.mem_cons_of_mem _ hc)]
  | case3 cs => rfl

theorem trim_of_no_blank {cs : List Char} (h : ∀ c ∈ cs, isBlank c = false) : trim cs = cs := by
  have hstart : trimStartBy isBlank cs = cs := by
    cases cs with
    | nil => rfl
    | cons c cs => exact List.dropWhile_cons_of_neg (by simp [h c (by simp)])
  rw [trim, trimBy, hstart, Number.trimEndBy_of_none h]

theorem asciiLower_of_slugChar {c : Char} (h : isSlugChar c = true) : asciiLower c = c :=
  if_neg (of_decide_eq_false (not_capital_of_slugChar h))

/-- **What has the form of an identifier is its own normalized name.** -/
theorem normalize_of_isIdentifier {text : String} (h : IsIdentifier text) :
    normalize text = text := by
  obtain ⟨first, rest, htext, hfirst, hwords⟩ := h.hyphenated
  have hchars : ∀ c ∈ first :: rest, isSlugChar c = true := fun c hc => by
    rcases hwords.mem c hc with hc | rfl
    · simp [isSlugChar, hc]
    · decide
  have hkept : Hyphenated isKept (first :: rest) := by
    have hmap : Hyphenated isKept ((first :: rest).map id) :=
      hwords.map rfl fun c hc => by simp [isKept, hc]
    rwa [List.map_id] at hmap
  have hbody : (trimHyphens (hyphenate isKept false (parted (trim text.toList)))).map asciiLower
      = first :: rest := by
    rw [htext, trim_of_no_blank fun c hc => solid_of_slugChar (hchars c hc),
      parted_of_no_capital fun c hc => not_capital_of_slugChar (hchars c hc),
      trimHyphens_of_hyphenated (by decide) hkept]
    exact (List.map_congr_left fun c hc => asciiLower_of_slugChar (hchars c hc)).trans
      (List.map_id _)
  have hdigit : ¬ ('0' ≤ first ∧ first ≤ '9') := by
    simp only [isLetter, decide_eq_true_eq, Char.le_def, UInt32.le_iff_toNat_le] at hfirst ⊢
    simp at hfirst ⊢
    omega
  have hstep : normalize text = String.ofList (first :: rest) := by
    unfold normalize
    extract_lets words body
    rw [show body = first :: rest from hbody]
    exact congrArg String.ofList (if_neg (by simpa using hdigit))
  rw [hstep, ← htext, String.ofList_toList]

theorem normalize_normalize (name : String) : normalize (normalize name) = normalize name :=
  normalize_of_isIdentifier (isIdentifier_normalize name)

/-! ## §4. Inner identifiers. -/

theorem underscore_not_mem_of_slugChars {slug : String} (h : slug.toList.all isSlugChar = true) :
    '_' ∉ slug.toList :=
  fun hmem => absurd (List.all_eq_true.mp h '_' hmem) (by decide)

section Inner

variable (p : Project) (o : ExportOptions) (linked : List (String × WindowLink))

theorem toList_subId_shared (w : ExportWindow) (domId part : String) :
    ((Preview.sharedSetting p o linked w).subId domId part).toList
      = w.slug.toList ++ '_' :: '_' :: (domId.toList ++ '_' :: '_' :: part.toList) := by
  have hscope : (Preview.sharedSetting p o linked w).domScope = w.slug ++ "__" := rfl
  rw [Page.toList_subId, hscope, String.toList_append, List.append_assoc]
  rfl

/-- An inner identifier falls apart at its first underscores: what stands before the first two is
the slug, what stands before the next two is the element. -/
theorem subId_shared_inj {w w' : ExportWindow} {domId domId' part part' : String}
    (hw : '_' ∉ w.slug.toList) (hw' : '_' ∉ w'.slug.toList) (hd : '_' ∉ domId.toList)
    (hd' : '_' ∉ domId'.toList)
    (h : (Preview.sharedSetting p o linked w).subId domId part
      = (Preview.sharedSetting p o linked w').subId domId' part') :
    w.slug = w'.slug ∧ domId = domId' ∧ part = part' := by
  have hchars := congrArg String.toList h
  rw [toList_subId_shared, toList_subId_shared] at hchars
  obtain ⟨hslug, hrest⟩ := append_mark_inj hw hw' hchars
  obtain ⟨hdom, hpart⟩ := append_mark_inj hd hd' (List.cons.inj hrest).2
  exact ⟨String.toList_inj.mp hslug, String.toList_inj.mp hdom,
    String.toList_inj.mp (List.cons.inj hpart).2⟩

end Inner

/-- **Names encode safely.**  Normalized names have the form of identifiers and stay as they are
when they are normalized again.  Slugs are not empty and are made of small letters, digits and
hyphens.  So an inner identifier in a page of several windows fixes the slug of its window, its
element and its part, and is the identifier of no element. -/
theorem identifiers_safe :
    (∀ name, IsIdentifier (normalize name) ∧ normalize (normalize name) = normalize name)
      ∧ (∀ names, ∀ slug ∈ slugs names defaultSlug,
          slug ≠ "" ∧ ∀ c ∈ slug.toList, isSlugChar c = true)
      ∧ ∀ (p : Project) (o : ExportOptions) (linked : List (String × WindowLink))
          (names : List String) (w w' : ExportWindow),
          w.slug ∈ slugs names defaultSlug → w'.slug ∈ slugs names defaultSlug →
          ∀ (e e' : Element) (part part' : String),
            ((Preview.sharedSetting p o linked w).subId e.identifier part
                = (Preview.sharedSetting p o linked w').subId e'.identifier part'
              ↔ w.slug = w'.slug ∧ e.identifier = e'.identifier ∧ part = part')
            ∧ (Preview.sharedSetting p o linked w).subId e.identifier part ≠ e'.identifier := by
  have hslugs : ∀ names, ∀ slug ∈ slugs names defaultSlug, slug.toList.all isSlugChar = true :=
    fun names slug hslug => slugs_chars (by decide) hslug
  refine ⟨fun name => ⟨isIdentifier_normalize name, normalize_normalize name⟩, ?_, ?_⟩
  · exact fun names slug hslug =>
      ⟨ne_empty_of_mem_slugs (by decide) hslug, List.all_eq_true.mp (hslugs names slug hslug)⟩
  · intro p o linked names w w' hw hw' e e' part part'
    have hplain := underscore_not_mem_of_slugChars (hslugs names _ hw)
    have hplain' := underscore_not_mem_of_slugChars (hslugs names _ hw')
    constructor
    · constructor
      · exact subId_shared_inj p o linked hplain hplain' e.underscore_not_mem_identifier
          e'.underscore_not_mem_identifier
      · rintro ⟨hslug, hdom, rfl⟩
        rw [← String.toList_inj, toList_subId_shared, toList_subId_shared, hslug, hdom]
    · intro heq
      refine e'.underscore_not_mem_identifier ?_
      rw [← heq, toList_subId_shared]
      simp

/-- A choice between rates. -/
def rateChoice : Element := ⟨.comboBox, [("name", .text "Rate Mode")]⟩

/-- A window without elements that has a slug. -/
def slugged (slug : String) : ExportWindow := ⟨default, slug, [], [], []⟩

/-- The lists of options of one choice, in two windows of one name. -/
theorem sameName_identifiers_safe :
    slugs ["Main", "Main"] defaultSlug = ["main", "main-2"]
      ∧ rateChoice.identifier = "rate-mode"
      ∧ (Preview.sharedSetting default default [] (slugged "main")).subId
          rateChoice.identifier "options"
        ≠ (Preview.sharedSetting default default [] (slugged "main-2")).subId
          rateChoice.identifier "options" := by
  have hslugs : slugs ["Main", "Main"] defaultSlug = ["main", "main-2"] := by decide +kernel
  refine ⟨hslugs, by decide +kernel, fun heq => ?_⟩
  have hinner := (identifiers_safe.2.2 default default [] ["Main", "Main"] (slugged "main")
    (slugged "main-2") (by rw [hslugs]; simp [slugged]) (by rw [hslugs]; simp [slugged])
    rateChoice rateChoice "options" "options").1
  exact absurd (hinner.mp heq).1 (by decide)

end ControlSurface.Name
