/-
  ControlSurface.Proofs.Layout.Ancestors
  ──────────────────────────────────────
  Parents and holders.  Parent identities lead from element to element, possibly in a circle; an
  element is held by its parent only if the parent is a container and does not itself lead back to
  the element.

  Main results:
    * `holder?_eq_some_iff` — the bounded climb of `reaches` decides just that, for a climb that ends
      without the target stays in a set that is closed under parents (`closed_of_reaches`).
    * `heldBy_acyclic` — nothing holds itself, not even through others, whatever circles the parent
      identities form: each element of a circle is refused by its own parent.
-/
import ControlSurface.Layout.Tree
import ControlSurface.Proofs.Layout.Identity
import Mathlib.Logic.Relation

namespace ControlSurface.Layout

open Relation

/-! ## §1. Parents. -/

/-- The listed parent of an element: the listed element of the identity that it names.  An empty
identity names none. -/
def ListedParent (elements : List Element) (e p : Element) : Prop :=
  p ∈ elements ∧ e.hasParent = true ∧ p.id = e.parentId

/-- Elements of one identity are one element. -/
theorem DistinctIds.eq_of_id {elements : List Element} (h : DistinctIds elements) {a b : Element}
    (ha : a ∈ elements) (hb : b ∈ elements) (hid : a.id = b.id) : a = b := by
  obtain ⟨i, hi⟩ := List.getElem?_of_mem ha
  obtain ⟨j, hj⟩ := List.getElem?_of_mem hb
  have hij : i = j := h.index_inj hi hj hid
  subst hij
  exact Option.some.inj (hi.symm.trans hj)

/-- An element has one parent at most. -/
theorem listedParent_unique {elements : List Element} (hids : DistinctIds elements)
    {e p q : Element} (hp : ListedParent elements e p) (hq : ListedParent elements e q) : p = q :=
  hids.eq_of_id hp.1 hq.1 (hp.2.2.trans hq.2.2.symm)

/-- The listed parent stands where the parent identity is found. -/
theorem listedParent_iff {elements : List Element} (hids : DistinctIds elements)
    {e p : Element} :
    ListedParent elements e p
      ↔ e.hasParent = true ∧ ∃ i, position? elements e.parentId = some i ∧ elements[i]? = some p := by
  constructor
  · rintro ⟨hmem, hparent, hid⟩
    obtain ⟨i, hi, hat⟩ := hids.getElem?_position? hmem
    rw [hid] at hi
    exact ⟨hparent, i, hi, hat⟩
  · rintro ⟨hparent, i, hi, hat⟩
    exact ⟨List.mem_of_getElem? hat, hparent, hids.named.id_eq hi hat⟩

/-- Two listed elements have the same identity text iff they are one. -/
theorem id_same_iff {elements : List Element} (hids : DistinctIds elements) {a b : Element}
    (ha : a ∈ elements) (hb : b ∈ elements) : a.id.same b.id = true ↔ a = b := by
  obtain ⟨s, hs⟩ := hids.named b hb
  rw [hs, same_text]
  constructor
  · intro h
    exact hids.eq_of_id ha hb (h.trans hs.symm)
  · rintro rfl
    exact hs

/-- A parent identity is that of a listed element iff this is the listed parent. -/
theorem parentId_same_iff {elements : List Element} (hids : DistinctIds elements)
    {e t : Element} (ht : t ∈ elements) (hparent : e.hasParent = true) :
    e.parentId.same t.id = true ↔ ListedParent elements e t := by
  obtain ⟨s, hs⟩ := hids.named t ht
  rw [hs, same_text, ListedParent, hs]
  constructor
  · intro h
    exact ⟨ht, hparent, h.symm⟩
  · rintro ⟨_, _, h⟩
    exact h.symm

/-! ## §2. The climb. -/

/-- Where a climb goes on, the element before has one parent, which is not the target. -/
theorem parent_of_not_target {elements : List Element} (hids : DistinctIds elements)
    {t e parent : Element} {i : Nat} (ht : t ∈ elements) (hno : ¬ (!e.hasParent) = true)
    (hsame : ¬ e.parentId.same t.id = true) (hi : position? elements e.parentId = some i)
    (hat : elements[i]? = some parent) :
    ∀ y, ListedParent elements e y → y ≠ t ∧ y = parent := by
  intro y hy
  have hlink : ListedParent elements e parent :=
    (listedParent_iff hids).mpr ⟨by simpa using hno, i, hi, hat⟩
  refine ⟨?_, listedParent_unique hids hy hlink⟩
  rintro rfl
  exact hsame ((parentId_same_iff hids ht (by simpa using hno)).mpr hy)

/-- A climb that reaches its target went from parent to parent. -/
theorem transGen_of_reaches {elements : List Element} (hids : DistinctIds elements) {t : Element}
    (ht : t ∈ elements) {unseen : List Nat} {e : Element}
    (h : reaches elements t.id unseen e = true) : TransGen (ListedParent elements) e t := by
  induction unseen, e using reaches.induct elements t.id with
  | case1 unseen e hno =>
    rw [reaches, if_pos hno] at h
    cases h
  | case2 unseen e hno hsame =>
    exact .single ((parentId_same_iff hids ht (by simpa using hno)).mp hsame)
  | case3 unseen e hno hsame hnone =>
    rw [reaches, if_neg hno, if_neg hsame, hnone] at h
    cases h
  | case4 unseen e hno hsame i hi hnone =>
    rw [reaches, if_neg hno, if_neg hsame] at h
    simp only [hi, hnone] at h
    cases h
  | case5 unseen e hno hsame i hi parent hat hunseen ih =>
    rw [reaches, if_neg hno, if_neg hsame] at h
    simp only [hi, hat, hunseen, dite_true] at h
    have hlink : ListedParent elements e parent :=
      (listedParent_iff hids).mpr ⟨by simpa using hno, i, hi, hat⟩
    exact .head hlink (ih h)
  | case6 unseen e hno hsame i hi parent hat hunseen =>
    rw [reaches, if_neg hno, if_neg hsame] at h
    simp only [hi, hat, hunseen, dite_false] at h
    cases h

/-- A set of elements that is closed under parents and from which no parent is the target. -/
def ClosedApart (elements : List Element) (t : Element) (within : Element → Prop) : Prop :=
  ∀ x, within x → ∀ y, ListedParent elements x y → y ≠ t ∧ within y

/-- What was passed before a climb came to an element: parents were passed as well, or are the
element, and none is the target. -/
def PassedBefore (elements : List Element) (t e : Element) (passed : Element → Prop) : Prop :=
  ∀ x, passed x → ∀ y, ListedParent elements x y → y ≠ t ∧ (passed y ∨ y = e)

/-- An element at which a climb ends is closed together with what was passed. -/
theorem PassedBefore.closed {elements : List Element} {t e : Element} {passed : Element → Prop}
    (h : PassedBefore elements t e passed)
    (he : ∀ y, ListedParent elements e y → y ≠ t ∧ (passed y ∨ y = e)) :
    ClosedApart elements t fun x => passed x ∨ x = e := by
  rintro x (hx | rfl) y hy
  · exact h x hx y hy
  · exact he y hy

/-- **A climb that ends without its target stays in a set closed under parents.** -/
theorem closed_of_reaches {elements : List Element} (hids : DistinctIds elements) {t : Element}
    (ht : t ∈ elements) {unseen : List Nat} {e : Element} (passed : Element → Prop)
    (hpassed : PassedBefore elements t e passed)
    (hseen : ∀ i x, elements[i]? = some x → i ∉ unseen → passed x ∨ x = e)
    (h : reaches elements t.id unseen e = false) :
    ∃ within, ClosedApart elements t within ∧ ∀ x, passed x ∨ x = e → within x := by
  induction unseen, e using reaches.induct elements t.id generalizing passed with
  | case1 unseen e hno =>
    refine ⟨_, hpassed.closed fun y hy => ?_, fun x hx => hx⟩
    rw [hy.2.1] at hno
    cases hno
  | case2 unseen e hno hsame =>
    rw [reaches, if_neg hno, if_pos hsame] at h
    cases h
  | case3 unseen e hno hsame hnone =>
    refine ⟨_, hpassed.closed fun y hy => ?_, fun x hx => hx⟩
    obtain ⟨_, i, hi, _⟩ := (listedParent_iff hids).mp hy
    rw [hnone] at hi
    cases hi
  | case4 unseen e hno hsame i hi hnone =>
    refine ⟨_, hpassed.closed fun y hy => ?_, fun x hx => hx⟩
    obtain ⟨_, j, hj, hat⟩ := (listedParent_iff hids).mp hy
    cases hi.symm.trans hj
    rw [hnone] at hat
    cases hat
  | case5 unseen e hno hsame i hi parent hat hunseen ih =>
    rw [reaches, if_neg hno, if_neg hsame] at h
    simp only [hi, hat, hunseen, dite_true] at h
    have hparent := parent_of_not_target hids ht hno hsame hi hat
    -- the element joins what was passed, and the climb goes on at its parent
    have hpassed' : PassedBefore elements t parent fun x => passed x ∨ x = e := by
      rintro x (hx | rfl) y hy
      · obtain ⟨hne, hy'⟩ := hpassed x hx y hy
        exact ⟨hne, Or.inl hy'⟩
      · obtain ⟨hne, rfl⟩ := hparent y hy
        exact ⟨hne, Or.inr rfl⟩
    have hseen' : ∀ j x, elements[j]? = some x → j ∉ unseen.erase i →
        (passed x ∨ x = e) ∨ x = parent := by
      intro j x hx hj
      by_cases hji : j = i
      · subst hji
        exact Or.inr (Option.some.inj (hx.symm.trans hat))
      · exact Or.inl (hseen j x hx fun hmem => hj ((List.mem_erase_of_ne hji).mpr hmem))
    obtain ⟨within, hwithin, hsub⟩ := ih _ hpassed' hseen' h
    exact ⟨within, hwithin, fun x hx => hsub x (Or.inl hx)⟩
  | case6 unseen e hno hsame i hi parent hat hunseen =>
    -- the parent was passed before: the climb has gone round a circle
    refine ⟨_, hpassed.closed fun y hy => ?_, fun x hx => hx⟩
    obtain ⟨hne, rfl⟩ := parent_of_not_target hids ht hno hsame hi hat y hy
    exact ⟨hne, hseen i y hat hunseen⟩

/-- **The climb decides whether the parents of an element lead to a listed one.** -/
theorem reaches_iff {elements : List Element} (hids : DistinctIds elements) {t p : Element}
    (ht : t ∈ elements) :
    reaches elements t.id (List.range elements.length) p = true
      ↔ TransGen (ListedParent elements) p t := by
  constructor
  · exact transGen_of_reaches hids ht
  · intro hgen
    by_contra hfalse
    -- nothing was passed yet, and every place can be visited
    have hall : ∀ i x, elements[i]? = some x → i ∉ List.range elements.length →
        False ∨ x = p := by
      intro i x hx hi
      exact absurd (List.mem_range.mpr (List.getElem?_eq_some_iff.mp hx).1) hi
    obtain ⟨within, hclosed, hsub⟩ := closed_of_reaches hids ht (fun _ => False)
      (fun _ hx => hx.elim) hall (Bool.eq_false_iff.mpr hfalse)
    -- all that parents lead to lies in the closed set, from which nothing leads to the target
    have hstay : ∀ y, TransGen (ListedParent elements) p y → y ≠ t ∧ within y := by
      intro y hy
      induction hy with
      | single hlink => exact hclosed p (hsub p (Or.inr rfl)) _ hlink
      | tail _ hlink ih => exact hclosed _ ih.2 _ hlink
    exact (hstay t hgen).1 rfl

/-! ## §3. Holders. -/

/-- Whether an element is held by another one: its listed parent, which is a container and from
which parents do not lead back to the element. -/
structure HeldBy (elements : List Element) (e p : Element) : Prop where
  parent : ListedParent elements e p
  container : p.kind.container = true
  apart : ¬ ReflTransGen (ListedParent elements) p e

/-- An element has one holder at most. -/
theorem heldBy_rightUnique {elements : List Element} (hids : DistinctIds elements) :
    Relator.RightUnique (HeldBy elements) :=
  fun _ _ _ hp hq => listedParent_unique hids hp.parent hq.parent

/-- **The holder of an element** is the place of the one that holds it. -/
theorem holder?_eq_some_iff {elements : List Element} (hids : DistinctIds elements)
    {e : Element} (he : e ∈ elements) {i : Nat} :
    holder? elements e = some i ↔ ∃ p, elements[i]? = some p ∧ HeldBy elements e p := by
  -- the two checks together ask whether parents lead from the parent back to the element
  have hchecks : ∀ {p : Element}, p ∈ elements →
      ((p.kind.container && !p.id.same e.id
          && !reaches elements e.id (List.range elements.length) p) = true
        ↔ p.kind.container = true ∧ ¬ ReflTransGen (ListedParent elements) p e) := by
    intro p hp
    rw [Bool.and_eq_true, Bool.and_eq_true, and_assoc, Bool.not_eq_true', Bool.not_eq_true',
      ← Bool.not_eq_true, ← Bool.not_eq_true, id_same_iff hids hp he, reaches_iff hids he,
      reflTransGen_iff_eq_or_transGen, not_or, eq_comm (a := e)]
  rw [holder?]
  by_cases hparent : e.hasParent = true
  · rw [if_neg (by simp [hparent])]
    constructor
    · intro h
      obtain ⟨j, hj, h⟩ := Option.bind_eq_some_iff.mp h
      obtain ⟨p, hat, h⟩ := Option.bind_eq_some_iff.mp h
      split at h
      next hok =>
        cases h
        obtain ⟨hcontainer, hapart⟩ := (hchecks (List.mem_of_getElem? hat)).mp hok
        exact ⟨p, hat, (listedParent_iff hids).mpr ⟨hparent, _, hj, hat⟩, hcontainer, hapart⟩
      next => cases h
    · rintro ⟨p, hat, hlink, hcontainer, hapart⟩
      obtain ⟨_, j, hj, hat'⟩ := (listedParent_iff hids).mp hlink
      have hij : j = i := hids.index_inj hat' hat rfl
      subst hij
      refine Option.bind_eq_some_iff.mpr ⟨_, hj, Option.bind_eq_some_iff.mpr ⟨p, hat, ?_⟩⟩
      rw [if_pos ((hchecks (List.mem_of_getElem? hat)).mpr ⟨hcontainer, hapart⟩)]
  · rw [if_pos (by simpa using hparent)]
    constructor
    · intro h
      cases h
    · rintro ⟨p, _, hlink, _⟩
      exact absurd hlink.2.1 hparent

/-- An element has no holder iff nothing holds it. -/
theorem holder?_eq_none_iff {elements : List Element} (hids : DistinctIds elements)
    {e : Element} (he : e ∈ elements) :
    holder? elements e = none ↔ ∀ p, ¬ HeldBy elements e p := by
  constructor
  · intro h p hp
    obtain ⟨i, hi⟩ := List.getElem?_of_mem hp.parent.1
    rw [(holder?_eq_some_iff hids he).mpr ⟨p, hi, hp⟩] at h
    cases h
  · intro h
    rw [Option.eq_none_iff_forall_ne_some]
    intro i hi
    obtain ⟨p, _, hp⟩ := (holder?_eq_some_iff hids he).mp hi
    exact h p hp

/-- **Nothing holds itself**, not even through others: parents would lead from its holder back to
it. -/
theorem heldBy_acyclic {elements : List Element} (e : Element) :
    ¬ TransGen (HeldBy elements) e e := by
  intro h
  obtain ⟨p, hp, hback⟩ := TransGen.head'_iff.mp h
  have hparents : HeldBy elements ≤ ListedParent elements := fun _ _ hheld => hheld.parent
  exact hp.apart (ReflTransGen.mono hparents _ _ hback)

end ControlSurface.Layout
