/-
  ControlSurface.Proofs.Text.EndTag
  ─────────────────────────────────
  End tags in text.  A page ends an element at the first end tag of its name, whatever the case of
  the letters (`HoldsEndTag`).  Escaping the end tags that are written in lower case takes these
  away and brings no others, so what is left are those in another case
  (`holdsEndTag_escaped_iff`).  A character that stands in no end tag parts a text into two that
  are searched one by one (`holdsTag_apart`).
-/
import ControlSurface.Proofs.Text.Replacing
import ControlSurface.Text.LowerCase

namespace ControlSurface.Text

/-! ## §1. End tags. -/

/-- Text holds an end tag of a name, in any case, that satisfies `P`. -/
def HoldsTag (P : List Char → Prop) (name text : List Char) : Prop :=
  ∃ before tag after, text = before ++ '<' :: '/' :: (tag ++ after)
    ∧ tag.map asciiLower = name ∧ P tag

/-- Text holds the start of an end tag of a name, which ends an element of this name. -/
def HoldsEndTag (name text : List Char) : Prop := HoldsTag (fun _ => True) name text

/-- Text holds one that is not written in lower case. -/
def HoldsOtherCase (name text : List Char) : Prop := HoldsTag (· ≠ name) name text

/-- A name of an element: small letters. -/
def IsTagName (name : List Char) : Prop := name ≠ [] ∧ ∀ c ∈ name, 'a' ≤ c ∧ c ≤ 'z'

section Searching

variable {P : List Char → Prop} {name : List Char}

theorem holdsTag_append_right {text : List Char} (h : HoldsTag P name text) (front : List Char) :
    HoldsTag P name (front ++ text) := by
  obtain ⟨before, tag, after, rfl, htag, hP⟩ := h
  exact ⟨front ++ before, tag, after, by simp, htag, hP⟩

theorem holdsTag_append_left {text : List Char} (h : HoldsTag P name text) (rest : List Char) :
    HoldsTag P name (text ++ rest) := by
  obtain ⟨before, tag, after, rfl, htag, hP⟩ := h
  exact ⟨before, tag, after ++ rest, by simp, htag, hP⟩

/-- An end tag in a text stands at its beginning or in what follows its first character. -/
theorem holdsTag_cons_iff {c : Char} {cs : List Char} :
    HoldsTag P name (c :: cs)
      ↔ (c = '<' ∧ ∃ tag after, cs = '/' :: (tag ++ after) ∧ tag.map asciiLower = name ∧ P tag)
        ∨ HoldsTag P name cs := by
  constructor
  · rintro ⟨before, tag, after, heq, htag, hP⟩
    cases before with
    | nil =>
      obtain ⟨rfl, rfl⟩ := List.cons.inj heq
      exact Or.inl ⟨rfl, tag, after, rfl, htag, hP⟩
    | cons b before =>
      obtain ⟨rfl, rfl⟩ := List.cons.inj heq
      exact Or.inr ⟨before, tag, after, rfl, htag, hP⟩
  · rintro (⟨rfl, tag, after, rfl, htag, hP⟩ | h)
    · exact ⟨[], tag, after, rfl, htag, hP⟩
    · exact holdsTag_append_right h [c]

theorem not_holdsTag_nil : ¬ HoldsTag P name [] := by
  rintro ⟨before, tag, after, heq, _, _⟩
  exact absurd (congrArg List.length heq) (by simp)

/-- Where no end tag starts there is none. -/
theorem not_holdsTag_of_no_start {text : List Char} (h : ¬ ['<', '/'] <:+: text) :
    ¬ HoldsTag P name text := by
  rintro ⟨before, tag, after, rfl, _, _⟩
  exact h ⟨before, tag ++ after, by simp⟩

/-- An end tag does not start where no bracket stands. -/
theorem holdsTag_skip {front rest : List Char} (hfront : '<' ∉ front)
    (h : HoldsTag P name (front ++ rest)) : HoldsTag P name rest := by
  induction front with
  | nil => exact h
  | cons c front ih =>
    obtain ⟨hc, hmore⟩ := List.ne_and_not_mem_of_not_mem_cons hfront
    rcases holdsTag_cons_iff.mp h with ⟨heq, _⟩ | h
    · exact absurd heq.symm hc
    · exact ih hmore h

/-- A character that stands in no end tag of the name. -/
def Parts (name : List Char) (c : Char) : Prop := c ≠ '<' ∧ c ≠ '/' ∧ asciiLower c ∉ name

/-- **A character that stands in no end tag parts a text.** -/
theorem holdsTag_apart {c : Char} (hc : Parts name c) (front rest : List Char) :
    HoldsTag P name (front ++ c :: rest) ↔ HoldsTag P name front ∨ HoldsTag P name rest := by
  constructor
  · intro h
    induction front with
    | nil =>
      rcases holdsTag_cons_iff.mp h with ⟨heq, _⟩ | h
      · exact absurd heq hc.1
      · exact Or.inr h
    | cons d front ih =>
      rcases holdsTag_cons_iff.mp h with ⟨rfl, tag, after, heq, htag, hP⟩ | h
      · -- the end tag is over before the character comes
        left
        obtain ⟨e, front, rfl⟩ : ∃ e front', front = e :: front' := by
          cases front with
          | nil => exact absurd (List.cons.inj heq).1 hc.2.1
          | cons e front => exact ⟨e, front, rfl⟩
        obtain ⟨rfl, hsplit⟩ := List.cons.inj heq
        obtain ⟨more, rfl, _⟩ | ⟨more, rfl, hmore⟩ := List.append_eq_append_iff.mp hsplit
        · cases more with
          | nil => exact ⟨[], front ++ [], [], by simp, htag, hP⟩
          | cons x more =>
            obtain rfl : c = x := (List.cons.inj ‹_›).1
            refine absurd ?_ hc.2.2
            rw [← htag]
            exact List.mem_map_of_mem (by simp)
        · exact ⟨[], tag, more, rfl, htag, hP⟩
      · rcases ih h with h | h
        · exact Or.inl (holdsTag_append_right h [d])
        · exact Or.inr h
  · rintro (h | h)
    · exact holdsTag_append_left h (c :: rest)
    · exact holdsTag_append_right h (front ++ [c]) |> fun h => by simpa using h

end Searching

/-! ## §2. Escaped end tags. -/

section Escaping

variable {name : List Char}

/-- A letter of a name, in either case, is no bracket. -/
theorem ne_opening_of_tag (hname : IsTagName name) {tag : List Char}
    (htag : tag.map asciiLower = name) : '<' ∉ tag := by
  intro hmem
  have hlower : asciiLower '<' ∈ name := htag ▸ List.mem_map_of_mem hmem
  exact absurd (hname.2 _ hlower) (by decide)

/-- What is kept up to the next bracket is kept on both sides. -/
theorem exists_of_replaces {p r cs ds us vs : List Char}
    (h : Replaces ('<' :: p) ('<' :: r) cs ds) (hds : ds = us ++ vs) (hus : '<' ∉ us) :
    ∃ vs', cs = us ++ vs' := by
  induction us generalizing cs ds with
  | nil => exact ⟨cs, rfl⟩
  | cons u us ih =>
    obtain ⟨hu, htailus⟩ := List.ne_and_not_mem_of_not_mem_cons hus
    cases h with
    | nil => cases hds
    | keep _ hrest =>
      obtain ⟨rfl, htail⟩ := List.cons.inj hds
      obtain ⟨vs', rfl⟩ := ih hrest htail htailus
      exact ⟨vs', rfl⟩
    | swap => exact absurd (List.cons.inj hds).1 hu

theorem exists_of_replaces_right {p r cs ds us vs : List Char}
    (h : Replaces ('<' :: p) ('<' :: r) cs ds) (hcs : cs = us ++ vs) (hus : '<' ∉ us) :
    ∃ vs', ds = us ++ vs' := by
  induction us generalizing cs ds with
  | nil => exact ⟨ds, rfl⟩
  | cons u us ih =>
    obtain ⟨hu, htailus⟩ := List.ne_and_not_mem_of_not_mem_cons hus
    cases h with
    | nil => cases hcs
    | keep _ hrest =>
      obtain ⟨rfl, htail⟩ := List.cons.inj hcs
      obtain ⟨vs', rfl⟩ := ih hrest htail htailus
      exact ⟨vs', rfl⟩
    | swap => exact absurd (List.cons.inj hcs).1 hu

/-- The start of an end tag, as it is searched for and as it is put in its place. -/
def endTagText (name : List Char) : List Char := '<' :: '/' :: name

/-- An end tag that no page sees as one. -/
def escapedEndTag (name : List Char) : List Char := '<' :: '\\' :: '/' :: name

/-- **Escaping leaves the end tags that are written in another case, and brings no others.** -/
theorem holdsEndTag_escaped_iff (hname : IsTagName name) (text : List Char) :
    HoldsEndTag name (replaceAll (endTagText name) (escapedEndTag name) text)
      ↔ HoldsOtherCase name text := by
  have h := @replaces_replaceAll (endTagText name) (escapedEndTag name) (List.cons_ne_nil _ _) text
  generalize replaceAll (endTagText name) (escapedEndTag name) text = out at h ⊢
  have hplain : ∀ tag : List Char, tag.map asciiLower = name → '<' ∉ '/' :: tag := fun tag htag =>
    List.not_mem_cons_of_ne_of_not_mem (by decide) (ne_opening_of_tag hname htag)
  have hself : '<' ∉ '/' :: name := by
    refine List.not_mem_cons_of_ne_of_not_mem (by decide) fun hmem => ?_
    exact absurd (hname.2 _ hmem) (by decide)
  constructor
  · intro hout
    induction h with
    | nil => exact absurd hout not_holdsTag_nil
    | @keep c cs ds hstarts hrest ih =>
      rcases holdsTag_cons_iff.mp hout with ⟨rfl, tag, after, heq, htag, _⟩ | hout
      · obtain ⟨more, rfl⟩ := exists_of_replaces hrest (List.cons_append ▸ heq) (hplain tag htag)
        refine ⟨[], tag, more, rfl, htag, ?_⟩
        -- one in lower case would have been escaped
        rintro rfl
        rw [Bool.eq_false_iff] at hstarts
        exact hstarts (startsWith_eq_true_iff.mpr ⟨more, rfl⟩)
      · exact holdsTag_append_right (ih hout) [c]
    | @swap cs ds _ ih =>
      refine holdsTag_append_right (ih ?_) _
      rcases holdsTag_cons_iff.mp hout with ⟨_, tag, after, heq, _, _⟩ | hout
      · exact absurd (List.cons.inj heq).1 (by decide)
      · have hmore : '<' ∉ '\\' :: '/' :: name :=
          List.not_mem_cons_of_ne_of_not_mem (by decide) hself
        exact holdsTag_skip hmore hout
  · intro hin
    induction h with
    | nil => exact absurd hin not_holdsTag_nil
    | @keep c cs ds hstarts hrest ih =>
      rcases holdsTag_cons_iff.mp hin with ⟨rfl, tag, after, heq, htag, _⟩ | hin
      · obtain ⟨more, rfl⟩ := exists_of_replaces_right hrest (List.cons_append ▸ heq)
          (hplain tag htag)
        exact ⟨[], tag, more, rfl, htag, trivial⟩
      · exact holdsTag_append_right (ih hin) [c]
    | @swap cs ds _ ih =>
      rcases holdsTag_cons_iff.mp hin with ⟨_, tag, after, heq, htag, hcase⟩ | hin
      · -- what was escaped was written in lower case
        have hlength : name.length = tag.length := by rw [← htag, List.length_map]
        exact absurd (List.append_inj_left (List.cons.inj heq).2 hlength).symm hcase
      · exact holdsTag_append_right (ih (holdsTag_skip hself hin)) _

end Escaping

end ControlSurface.Text
