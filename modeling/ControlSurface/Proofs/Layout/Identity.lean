/-
  ControlSurface.Proofs.Layout.Identity
  ─────────────────────────────────────
  Elements that are told apart by their identities.  Identities are texts, and where all of them
  differ each one leads back to its own element (`DistinctIds.getElem?_position?`).  What a window
  shows is found on a stack, step by step (`visits_visit`).  It is such a list if every identity of
  the project is a text (`distinctIds_resolve`), for no place of the project is visited twice.
-/
import ControlSurface.Layout.Tree
import Mathlib.Data.List.Nodup

namespace ControlSurface.Layout

/-! ## §1. Texts as identities. -/

theorem same_text (v : Value) (s : String) : v.same (.text s) = true ↔ v = .text s := by
  cases v <;> simp [Value.same, Value.sameNum, Value.num?]

theorem text_same (s : String) (v : Value) : (Value.text s).same v = true ↔ v = .text s := by
  cases v with
  | text t =>
    simp only [Value.same, beq_iff_eq, Value.text.injEq]
    exact eq_comm
  | _ => simp [Value.same]

/-! ## §2. Looking up a place. -/

/-- What the search for an identity does at one element. -/
def later (id : Value) (found : Option Nat) (entry : Element × Nat) : Option Nat :=
  if entry.1.id.same id then some entry.2 else found

theorem position?_eq (elements : List Element) (id : Value) :
    position? elements id = elements.zipIdx.foldl (later id) none := rfl

/-- The search ends with what it began with or at an element of the identity. -/
theorem foldl_later {id : Value} {entries : List (Element × Nat)} {found : Option Nat} {i : Nat}
    (h : entries.foldl (later id) found = some i) :
    found = some i ∨ ∃ e, (e, i) ∈ entries ∧ e.id.same id = true := by
  -- a later element of the identity takes the place of an earlier one
  induction entries generalizing found with
  | nil => exact Or.inl h
  | cons entry entries ih =>
    rw [List.foldl_cons] at h
    rcases ih h with hfound | ⟨e, he, hsame⟩
    · rw [later] at hfound
      split at hfound
      next hsame =>
        cases hfound
        exact Or.inr ⟨entry.1, List.mem_cons_self .., hsame⟩
      next => exact Or.inl hfound
    · exact Or.inr ⟨e, List.mem_cons_of_mem _ he, hsame⟩

/-- A search that passes an element of the identity ends somewhere. -/
theorem foldl_later_isSome {id : Value} {entries : List (Element × Nat)} {found : Option Nat}
    (h : found.isSome = true ∨ ∃ entry ∈ entries, entry.1.id.same id = true) :
    (entries.foldl (later id) found).isSome = true := by
  induction entries generalizing found with
  | nil =>
    rcases h with h | ⟨entry, hentry, _⟩
    · exact h
    · exact absurd hentry List.not_mem_nil
  | cons entry entries ih =>
    rw [List.foldl_cons]
    refine ih ?_
    rw [later]
    by_cases hsame : entry.1.id.same id = true
    · rw [if_pos hsame]
      exact Or.inl rfl
    · rw [if_neg hsame]
      rcases h with h | ⟨other, hother, hid⟩
      · exact Or.inl h
      · rcases List.mem_cons.mp hother with rfl | hother
        · exact absurd hid hsame
        · exact Or.inr ⟨other, hother, hid⟩

/-- The place of an identity holds an element of that identity. -/
theorem getElem?_of_position? {elements : List Element} {id : Value} {i : Nat}
    (h : position? elements id = some i) :
    ∃ e, elements[i]? = some e ∧ e.id.same id = true := by
  rw [position?_eq] at h
  rcases foldl_later h with hnone | ⟨e, he, hsame⟩
  · cases hnone
  · exact ⟨e, List.mem_zipIdx_iff_getElem?.mp he, hsame⟩

/-- The identity of an element that is there has a place. -/
theorem position?_isSome {elements : List Element} {e : Element} {id : Value} (he : e ∈ elements)
    (hid : e.id.same id = true) : (position? elements id).isSome = true := by
  rw [position?_eq]
  obtain ⟨i, hi⟩ := List.getElem?_of_mem he
  exact foldl_later_isSome (Or.inr ⟨(e, i), List.mem_zipIdx_iff_getElem?.mpr hi, hid⟩)

/-! ## §3. Distinct identities. -/

/-- All identities are texts. -/
def NamedByText (elements : List Element) : Prop := ∀ e ∈ elements, ∃ s, e.id = .text s

/-- All identities are texts, and no two of them are equal. -/
structure DistinctIds (elements : List Element) : Prop where
  named : NamedByText elements
  nodup : (elements.map Element.id).Nodup

theorem DistinctIds.elements_nodup {elements : List Element} (h : DistinctIds elements) :
    elements.Nodup := h.nodup.of_map

/-- Elements of one identity stand in one place. -/
theorem DistinctIds.index_inj {elements : List Element} (h : DistinctIds elements) {i j : Nat}
    {a b : Element} (ha : elements[i]? = some a) (hb : elements[j]? = some b)
    (hid : a.id = b.id) : i = j := by
  obtain ⟨hi, rfl⟩ := List.getElem?_eq_some_iff.mp ha
  obtain ⟨hj, rfl⟩ := List.getElem?_eq_some_iff.mp hb
  have hi' : i < (elements.map Element.id).length := by rwa [List.length_map]
  have hj' : j < (elements.map Element.id).length := by rwa [List.length_map]
  have heq : (elements.map Element.id)[i] = (elements.map Element.id)[j] := by
    rw [List.getElem_map, List.getElem_map]
    exact hid
  exact h.nodup.getElem_inj_iff.mp heq

/-- **The identity of an element leads back to it.** -/
theorem DistinctIds.getElem?_position? {elements : List Element} (h : DistinctIds elements)
    {e : Element} (he : e ∈ elements) :
    ∃ i, position? elements e.id = some i ∧ elements[i]? = some e := by
  obtain ⟨s, hs⟩ := h.named e he
  have hsame : e.id.same e.id = true := by rw [hs]; exact (same_text _ s).mpr rfl
  obtain ⟨i, hi⟩ := Option.isSome_iff_exists.mp (position?_isSome he hsame)
  obtain ⟨a, ha, hid⟩ := getElem?_of_position? hi
  obtain ⟨j, hj⟩ := List.getElem?_of_mem he
  rw [hs] at hid
  have hij : i = j := h.index_inj ha hj (((same_text _ s).mp hid).trans hs.symm)
  exact ⟨i, hi, hij ▸ hj⟩

/-! ## §4. What a window shows. -/

theorem shownBy_of_hasKeys {elements : List Element} (h : hasKeys elements = true) (w : Window) :
    shownBy elements w = .ok (resolve elements w) := if_pos h

theorem of_shownBy {elements shown : List Element} {w : Window}
    (h : shownBy elements w = .ok shown) :
    hasKeys elements = true ∧ shown = resolve elements w := by
  unfold shownBy at h
  split at h
  next hkeys => exact ⟨hkeys, (Except.ok.inj h).symm⟩
  next => cases h

/-- Where identities are texts, an element found by one has it. -/
theorem NamedByText.id_eq {elements : List Element} (h : NamedByText elements) {id : Value}
    {i : Nat} {e : Element} (hi : position? elements id = some i) (he : elements[i]? = some e) :
    e.id = id := by
  obtain ⟨a, ha, hsame⟩ := getElem?_of_position? hi
  cases he.symm.trans ha
  obtain ⟨s, hs⟩ := h e (List.mem_of_getElem? he)
  rw [hs] at hsame ⊢
  exact ((text_same s id).mp hsame).symm

/-- How a stack of identities is worked through: one whose place was seen, or that has none, is
passed over, and at any other one its element is entered, with its children before the rest. -/
inductive Visits (elements : List Element) : List Nat → List Value → List Element → Prop
  | done {unseen : List Nat} : Visits elements unseen [] []
  | pass {unseen : List Nat} {id : Value} {rest : List Value} {found : List Element}
      (hpass : ∀ i e, position? elements id = some i → elements[i]? = some e → i ∉ unseen)
      (hrest : Visits elements unseen rest found) : Visits elements unseen (id :: rest) found
  | enter {unseen : List Nat} {id : Value} {rest : List Value} {found : List Element} {i : Nat}
      {e : Element} (hi : position? elements id = some i) (he : elements[i]? = some e)
      (hunseen : i ∈ unseen)
      (hfound : Visits elements (unseen.erase i)
        (((childrenOf elements e.id).map Element.id).filter (isUnseen elements (unseen.erase i))
          ++ rest) found) :
      Visits elements unseen (id :: rest) (e :: found)

/-- **A stack is worked through step by step.** -/
theorem visits_visit (elements : List Element) (unseen : List Nat) (stack : List Value) :
    Visits elements unseen stack (visit elements unseen stack) := by
  induction unseen, stack using visit.induct elements with
  | case1 unseen =>
    rw [visit]
    exact .done
  | case2 unseen id rest hnone ih =>
    rw [visit]
    simp only [hnone]
    exact .pass (fun i e hi => by rw [hnone] at hi; cases hi) ih
  | case3 unseen id rest i hi hnone ih =>
    rw [visit]
    simp only [hi, hnone]
    exact .pass (fun j e hj he => by cases hi.symm.trans hj; rw [hnone] at he; cases he) ih
  | case4 unseen id rest i hi e he hunseen ih =>
    rw [visit]
    simp only [hi, he, hunseen, dite_true]
    exact .enter hi he hunseen ih
  | case5 unseen id rest i hi e he hseen ih =>
    rw [visit]
    simp only [hi, he, hseen, dite_false]
    exact .pass (fun j e hj _ => by cases hi.symm.trans hj; exact hseen) ih

/-- Each element that is visited has its place among those not seen before, and no identity comes
twice. -/
theorem Visits.distinct {elements found : List Element} (h : NamedByText elements)
    {unseen : List Nat} {stack : List Value} (hvisits : Visits elements unseen stack found)
    (hunseen : unseen.Nodup) :
    (∀ e ∈ found, e ∈ elements ∧ ∃ i ∈ unseen, position? elements e.id = some i)
      ∧ (found.map Element.id).Nodup := by
  induction hvisits with
  | done => exact ⟨fun e he => absurd he List.not_mem_nil, List.nodup_nil⟩
  | pass _ _ ih => exact ih hunseen
  | @enter unseen id rest found i e hi he hseen _ ih =>
    obtain ⟨hall, hnodup⟩ := ih (hunseen.erase i)
    have hid : e.id = id := h.id_eq hi he
    constructor
    · intro a ha
      rcases List.mem_cons.mp ha with rfl | ha
      · exact ⟨List.mem_of_getElem? he, i, hseen, by rw [hid, hi]⟩
      · obtain ⟨hmem, j, hj, hplace⟩ := hall a ha
        exact ⟨hmem, j, List.mem_of_mem_erase hj, hplace⟩
    · rw [List.map_cons, List.nodup_cons]
      refine ⟨?_, hnodup⟩
      intro hmem
      -- the place of the element was erased before the rest was visited
      obtain ⟨a, ha, haid⟩ := List.mem_map.mp hmem
      obtain ⟨_, j, hj, hplace⟩ := hall a ha
      rw [haid, hid, hi] at hplace
      cases hplace
      exact hunseen.not_mem_erase hj

/-- **What a window shows has distinct identities**, if the project names its elements by text. -/
theorem distinctIds_resolve (elements : List Element) (w : Window) (h : NamedByText elements) :
    DistinctIds (resolve elements w) := by
  obtain ⟨hall, hnodup⟩ := (visits_visit elements _ w.elementIds).distinct h List.nodup_range
  exact ⟨fun e he => h e (hall e he).1, hnodup⟩

end ControlSurface.Layout
