/-
  ControlSurface.Proofs.Layout.Reaching
  ─────────────────────────────────────
  What identities lead to, whatever identities there are: they need be neither texts nor distinct,
  and parents may be missing or form a circle.  An identity leads to the last element that has it,
  and from an element to those that the identities of its children stand for.

  Main results:
    * `mem_resolve_iff` — a window shows exactly what its identities lead to.  The stack is worked
      through with every place still to be seen, so what a place was passed over for is found there.
    * `allReached_iff` — where identities are texts, those of the elements that lie in no other one
      lead to everything iff no two elements share an identity and each chain of parents ends at an
      element that lies in no other one.
-/
import ControlSurface.Proofs.Layout.Ancestors
import ControlSurface.Proofs.Layout.Preorder

namespace ControlSurface.Layout

open Relation

/-! ## §1. What a stack of identities leads to. -/

/-- The elements that identities lead to: the element that each of them stands for, and with an
element those that the identities of its children stand for. -/
inductive LeadsTo (elements : List Element) (ids : List Value) : Element → Prop where
  | listed {id : Value} {e : Element} (hid : id ∈ ids) (he : element? elements id = some e) :
      LeadsTo elements ids e
  | within {p c e : Element} (hp : LeadsTo elements ids p) (hc : c ∈ childrenOf elements p.id)
      (he : element? elements c.id = some e) : LeadsTo elements ids e

variable {elements : List Element}

theorem LeadsTo.mem {ids : List Value} {e : Element} (h : LeadsTo elements ids e) :
    e ∈ elements := by
  cases h with
  | listed _ he => exact mem_of_element? he
  | within _ _ he => exact mem_of_element? he

/-- Every element visited has a property that all elements on the stack have and that children
take over from their parents. -/
theorem Visits.within {P : Element → Prop} {unseen : List Nat} {stack : List Value}
    {found : List Element} (h : Visits elements unseen stack found)
    (hstack : ∀ id ∈ stack, ∀ e, element? elements id = some e → P e)
    (hchild : ∀ p, P p → ∀ c ∈ childrenOf elements p.id, ∀ e,
      element? elements c.id = some e → P e) :
    ∀ e ∈ found, P e := by
  induction h with
  | done => simp
  | pass _ _ ih => exact ih (List.forall_mem_cons.mp hstack).2
  | @enter unseen id rest found i e hi he _ _ ih =>
    obtain ⟨hid, hrest⟩ := List.forall_mem_cons.mp hstack
    have hown : P e := hid e (element?_eq_some_iff.mpr ⟨i, hi, he⟩)
    refine List.forall_mem_cons.mpr ⟨hown, ih fun id hid => ?_⟩
    rcases List.mem_append.mp hid with hid | hid
    · obtain ⟨c, hc, rfl⟩ := List.mem_map.mp (List.mem_filter.mp hid).1
      exact hchild e hown c hc
    · exact hrest id hid

/-- The visit reaches every unseen place of its stack, and every unseen place of a child of an
element that it reaches. -/
theorem Visits.reaches {unseen : List Nat} {stack : List Value} {found : List Element}
    (h : Visits elements unseen stack found) :
    (∀ id ∈ stack, ∀ i e, position? elements id = some i → elements[i]? = some e → i ∈ unseen →
        e ∈ found)
      ∧ ∀ p ∈ found, ∀ c ∈ childrenOf elements p.id, ∀ i e,
        position? elements c.id = some i → elements[i]? = some e → i ∈ unseen → e ∈ found := by
  -- a place that is seen along the way is that of an element which is reached itself
  induction h with
  | done => exact ⟨fun id hid => absurd hid List.not_mem_nil, fun p hp => absurd hp List.not_mem_nil⟩
  | pass hpass _ ih =>
    exact ⟨List.forall_mem_cons.mpr
      ⟨fun i e hi he hunseen => absurd hunseen (hpass i e hi he), ih.1⟩, ih.2⟩
  | @enter unseen id rest found i e hi he hseen _ ih =>
    -- a place other than the one entered is still unseen after it
    have hleft : ∀ j a, elements[j]? = some a → j ∈ unseen → a = e ∨ j ∈ unseen.erase i := by
      intro j a ha hj
      by_cases hij : j = i
      · subst hij
        exact Or.inl (Option.some.inj (ha.symm.trans he))
      · exact Or.inr ((List.mem_erase_of_ne hij).mpr hj)
    refine ⟨List.forall_mem_cons.mpr ⟨?_, ?_⟩, List.forall_mem_cons.mpr ⟨?_, ?_⟩⟩
    · intro j a hj ha _
      cases hi.symm.trans hj
      exact List.mem_cons.mpr (Or.inl (Option.some.inj (ha.symm.trans he)))
    · intro id hid j a hj ha hunseen
      rcases hleft j a ha hunseen with rfl | hunseen
      · exact List.mem_cons_self ..
      · exact List.mem_cons_of_mem _
          (ih.1 id (List.mem_append_right _ hid) j a hj ha hunseen)
    · intro c hc j a hj ha hunseen
      rcases hleft j a ha hunseen with rfl | hunseen
      · exact List.mem_cons_self ..
      · have hchild : isUnseen elements (unseen.erase i) c.id = true := by
          rw [isUnseen, hj]
          exact List.contains_iff_mem.mpr hunseen
        have hstack := List.mem_filter.mpr ⟨List.mem_map_of_mem hc, hchild⟩
        exact List.mem_cons_of_mem _
          (ih.1 c.id (List.mem_append_left _ hstack) j a hj ha hunseen)
    · intro p hp c hc j a hj ha hunseen
      rcases hleft j a ha hunseen with rfl | hunseen
      · exact List.mem_cons_self ..
      · exact List.mem_cons_of_mem _ (ih.2 p hp c hc j a hj ha hunseen)

/-- **A window shows exactly what its identities lead to.** -/
theorem mem_resolve_iff {w : Window} {e : Element} :
    e ∈ resolve elements w ↔ LeadsTo elements w.elementIds e := by
  have hvisits := visits_visit elements (List.range elements.length) w.elementIds
  constructor
  · refine hvisits.within (P := LeadsTo elements w.elementIds) ?_ ?_ e
    · exact fun id hid e he => .listed hid he
    · exact fun p hp c hc e he => .within hp hc he
  · intro h
    obtain ⟨hstack, hchild⟩ := hvisits.reaches
    -- at the beginning every place is unseen
    have hall : ∀ {i e}, elements[i]? = some e → i ∈ List.range elements.length := fun hi =>
      List.mem_range.mpr (List.getElem?_eq_some_iff.mp hi).1
    induction h with
    | listed hid he =>
      obtain ⟨i, hi, hat⟩ := element?_eq_some_iff.mp he
      exact hstack _ hid i _ hi hat (hall hat)
    | within _ hc he ih =>
      obtain ⟨i, hi, hat⟩ := element?_eq_some_iff.mp he
      exact hchild _ ih _ hc i _ hi hat (hall hat)

/-! ## §2. Elements that lie in no other one. -/

/-- The identities of the elements that lie in no other one. -/
def topIds (elements : List Element) : List Value :=
  (elements.filter fun e => !e.hasParent).map Element.id

theorem mem_topIds {id : Value} :
    id ∈ topIds elements ↔ ∃ e ∈ elements, e.hasParent = false ∧ e.id = id := by
  simp [topIds, and_assoc]

/-- Whether the identities of the elements that lie in no other one lead to every element. -/
def AllReached (elements : List Element) : Prop :=
  ∀ e ∈ elements, LeadsTo elements (topIds elements) e

/-- Whether an identity belongs to one element only. -/
def OneForEachId (elements : List Element) : Prop :=
  ∀ a ∈ elements, ∀ b ∈ elements, a.id = b.id → a = b

/-- Whether the chain of parents of an element ends at one that lies in no other. -/
def ChainEnds (elements : List Element) (e : Element) : Prop :=
  ∃ top, ReflTransGen (ListedParent elements) e top ∧ top.hasParent = false

/-- Where each identity belongs to one element, it stands for that element. -/
theorem OneForEachId.element?_id (hone : OneForEachId elements) (hnamed : NamedByText elements)
    {e : Element} (he : e ∈ elements) : element? elements e.id = some e := by
  obtain ⟨a, ha⟩ := hnamed.exists_element? he
  rw [ha, hone a (mem_of_element? ha) e he (hnamed.id_eq_of_element? ha)]

theorem OneForEachId.eq_of_element? (hone : OneForEachId elements) (hnamed : NamedByText elements)
    {a e : Element} (ha : a ∈ elements) (he : element? elements a.id = some e) : e = a :=
  Option.some.inj (he.symm.trans (hone.element?_id hnamed ha))

/-- What is reached lies in no other element or has a listed parent that is reached. -/
theorem top_or_listedParent (hone : OneForEachId elements) (hnamed : NamedByText elements)
    {e : Element} (h : LeadsTo elements (topIds elements) e) :
    e.hasParent = false
      ∨ ∃ p, LeadsTo elements (topIds elements) p ∧ ListedParent elements e p := by
  cases h with
  | listed hid he =>
    obtain ⟨a, ha, htop, rfl⟩ := mem_topIds.mp hid
    rw [hone.eq_of_element? hnamed ha he]
    exact Or.inl htop
  | @within p c _ hp hc he =>
    obtain ⟨hmem, hparent, hid⟩ := (hnamed.mem_childrenOf hp.mem).mp hc
    rw [hone.eq_of_element? hnamed hmem he]
    exact Or.inr ⟨p, hp, hp.mem, hparent, hid.symm⟩

/-- Where each identity belongs to one element, what is reached are the elements whose chain of
parents ends. -/
theorem leadsTo_topIds_iff (hone : OneForEachId elements) (hnamed : NamedByText elements)
    {e : Element} (he : e ∈ elements) :
    LeadsTo elements (topIds elements) e ↔ ChainEnds elements e := by
  constructor
  · -- each step down to a child is one step up its chain
    intro h
    clear he
    induction h with
    | listed hid he =>
      obtain ⟨a, ha, htop, rfl⟩ := mem_topIds.mp hid
      rw [hone.eq_of_element? hnamed ha he]
      exact ⟨a, .refl, htop⟩
    | @within p c _ hp hc he ih =>
      obtain ⟨hmem, hparent, hid⟩ := (hnamed.mem_childrenOf hp.mem).mp hc
      obtain ⟨top, hchain, htop⟩ := ih
      rw [hone.eq_of_element? hnamed hmem he]
      exact ⟨top, .head ⟨hp.mem, hparent, hid.symm⟩ hchain, htop⟩
  · rintro ⟨top, hchain, htop⟩
    induction hchain using ReflTransGen.head_induction_on with
    | refl => exact .listed (mem_topIds.mpr ⟨top, he, htop, rfl⟩) (hone.element?_id hnamed he)
    | head hlink _ ih =>
      obtain ⟨hp, hparent, hid⟩ := hlink
      have hchild := (hnamed.mem_childrenOf hp).mpr ⟨he, hparent, hid.symm⟩
      exact .within (ih hp) hchild (hone.element?_id hnamed he)

/-- **Everything is reached iff no two elements share an identity and every chain of parents
ends.** -/
theorem allReached_iff (hnamed : NamedByText elements) :
    AllReached elements ↔ OneForEachId elements ∧ ∀ e ∈ elements, ChainEnds elements e := by
  constructor
  · intro h
    -- what is reached is what its own identity stands for
    have hfound : ∀ e ∈ elements, element? elements e.id = some e := by
      intro e he
      cases h e he with
      | listed _ hfind =>
        rw [hnamed.id_eq_of_element? hfind]
        exact hfind
      | within _ _ hfind =>
        rw [hnamed.id_eq_of_element? hfind]
        exact hfind
    have hone : OneForEachId elements := by
      intro a ha b hb hid
      exact Option.some.inj ((hfound a ha).symm.trans (hid ▸ hfound b hb))
    exact ⟨hone, fun e he => (leadsTo_topIds_iff hone hnamed he).mp (h e he)⟩
  · rintro ⟨hone, hends⟩ e he
    exact (leadsTo_topIds_iff hone hnamed he).mpr (hends e he)

end ControlSurface.Layout
