/-
  ControlSurface.Proofs.Layout.Preorder
  ─────────────────────────────────────
  What a window shows, said without a stack.  `Preorder` is the recursive walk: from left to right
  through a list of identities, passing over those that were seen or that no element has, and after
  each element through all that lies in it.  The stack of `visit` gives the same elements in the
  same order (`Visits.preorder`), for everything that the walk of the children does is done before
  the rest of the stack is looked at.

  Main results:
    * `resolve_iff` — what a window shows is the one list that the recursive walk finds; no identity
      comes twice in it, and its identities are the least set that holds what the window lists and,
      with an element, all that lies in it.
    * `unnamed_holds_nothing` — an empty identity holds nothing: elements whose parent is the empty
      text lie nowhere, even if there is an element of that identity.
-/
import ControlSurface.Proofs.Layout.Identity
import Mathlib.Data.Set.Basic
import Mathlib.Order.Bounds.Basic

namespace ControlSurface.Layout

/-! ## §1. Looking up an element. -/

/-- An element is found where its identity last stands. -/
theorem element?_eq_some_iff {elements : List Element} {id : Value} {e : Element} :
    element? elements id = some e
      ↔ ∃ i, position? elements id = some i ∧ elements[i]? = some e := Option.bind_eq_some_iff

theorem mem_of_element? {elements : List Element} {id : Value} {e : Element}
    (h : element? elements id = some e) : e ∈ elements := by
  obtain ⟨i, _, hi⟩ := element?_eq_some_iff.mp h
  exact List.mem_of_getElem? hi

namespace NamedByText

variable {elements : List Element}

theorem id_eq_of_element? (h : NamedByText elements) {id : Value} {e : Element}
    (he : element? elements id = some e) : e.id = id := by
  obtain ⟨i, hi, hat⟩ := element?_eq_some_iff.mp he
  exact h.id_eq hi hat

/-- The identity of an element leads to an element. -/
theorem exists_element? (h : NamedByText elements) {e : Element} (he : e ∈ elements) :
    ∃ a, element? elements e.id = some a := by
  obtain ⟨s, hs⟩ := h e he
  have hsame : e.id.same e.id = true := by rw [hs]; exact (same_text _ s).mpr rfl
  obtain ⟨i, hi⟩ := Option.isSome_iff_exists.mp (position?_isSome he hsame)
  obtain ⟨a, ha, _⟩ := getElem?_of_position? hi
  exact ⟨a, element?_eq_some_iff.mpr ⟨i, hi, ha⟩⟩

theorem mem_childrenOf (h : NamedByText elements) {e c : Element} (he : e ∈ elements) :
    c ∈ childrenOf elements e.id
      ↔ c ∈ elements ∧ c.hasParent = true ∧ c.parentId = e.id := by
  obtain ⟨s, hs⟩ := h e he
  rw [childrenOf, List.mem_filter, Bool.and_eq_true, hs, same_text]

end NamedByText

/-! ## §2. The recursive walk. -/

/-- The walk through a list of identities, `seen` being those seen before: the elements that it
finds in order, and the identities seen after it. -/
inductive Preorder (elements : List Element) :
    List Value → List Value → List Element → List Value → Prop where
  | done (seen : List Value) : Preorder elements seen [] [] seen
  /-- Nothing is found at an identity that was seen or that no element has. -/
  | pass {seen rest after : List Value} {id : Value} {found : List Element}
      (h : id ∈ seen ∨ element? elements id = none)
      (hrest : Preorder elements seen rest found after) :
      Preorder elements seen (id :: rest) found after
  /-- An element is found, then all below it, then what the rest gives. -/
  | enter {seen rest mid after : List Value} {id : Value} {e : Element}
      {below found : List Element} (hnew : id ∉ seen) (he : element? elements id = some e)
      (hbelow : Preorder elements (id :: seen) ((childrenOf elements id).map Element.id) below mid)
      (hrest : Preorder elements mid rest found after) :
      Preorder elements seen (id :: rest) (e :: below ++ found) after

namespace Preorder

variable {elements : List Element}

/-- What was seen before is seen after. -/
theorem seen_subset {seen ids after : List Value} {found : List Element}
    (h : Preorder elements seen ids found after) : seen ⊆ after := by
  induction h with
  | done seen => exact List.Subset.refl seen
  | pass _ _ ih => exact ih
  | enter _ _ _ _ ihbelow ihrest =>
    exact fun id hid => ihrest (ihbelow (List.mem_cons_of_mem _ hid))

/-- **The walk finds one list.** -/
theorem unique {seen ids after after' : List Value} {found found' : List Element}
    (h : Preorder elements seen ids found after) (h' : Preorder elements seen ids found' after') :
    found = found' ∧ after = after' := by
  induction h generalizing found' after' with
  | done seen =>
    cases h'
    exact ⟨rfl, rfl⟩
  | pass h _ ih =>
    cases h' with
    | pass _ hrest => exact ih hrest
    | enter hnew he _ _ =>
      rcases h with hseen | hnone
      · exact absurd hseen hnew
      · rw [he] at hnone
        cases hnone
  | enter hnew he _ _ ihbelow ihrest =>
    cases h' with
    | pass h' _ =>
      rcases h' with hseen | hnone
      · exact absurd hseen hnew
      · rw [he] at hnone
        cases hnone
    | enter _ he' hbelow' hrest' =>
      cases he.symm.trans he'
      obtain ⟨rfl, rfl⟩ := ihbelow hbelow'
      obtain ⟨rfl, rfl⟩ := ihrest hrest'
      exact ⟨rfl, rfl⟩

/-- A walk through two lists is a walk through the first one and then through the second. -/
theorem of_append {seen ids more after : List Value} {found : List Element}
    (h : Preorder elements seen (ids ++ more) found after) :
    ∃ first mid second, Preorder elements seen ids first mid
      ∧ Preorder elements mid more second after ∧ found = first ++ second := by
  generalize hall : ids ++ more = all at h
  induction h generalizing ids with
  | done seen =>
    obtain ⟨rfl, rfl⟩ := List.append_eq_nil_iff.mp hall
    exact ⟨[], seen, [], .done seen, .done seen, rfl⟩
  | @pass seen rest after id found h hrest ih =>
    cases ids with
    | nil =>
      simp only [List.nil_append] at hall
      subst hall
      exact ⟨[], seen, found, .done seen, .pass h hrest, rfl⟩
    | cons a ids =>
      simp only [List.cons_append, List.cons.injEq] at hall
      obtain ⟨rfl, htail⟩ := hall
      obtain ⟨first, mid, second, hfirst, hsecond, rfl⟩ := ih htail
      exact ⟨first, mid, second, .pass h hfirst, hsecond, rfl⟩
  | @enter seen rest mid after id e below found hnew he hbelow hrest _ ih =>
    cases ids with
    | nil =>
      simp only [List.nil_append] at hall
      subst hall
      exact ⟨[], seen, e :: below ++ found, .done seen, .enter hnew he hbelow hrest, rfl⟩
    | cons a ids =>
      simp only [List.cons_append, List.cons.injEq] at hall
      obtain ⟨rfl, htail⟩ := hall
      obtain ⟨first, mid', second, hfirst, hsecond, rfl⟩ := ih htail
      exact ⟨e :: below ++ first, mid', second, .enter hnew he hbelow hfirst, hsecond,
        by rw [List.append_assoc]⟩

/-- Identities that were seen can be left out beforehand: what is seen stays seen. -/
theorem of_filter {seen ids after : List Value} {found : List Element} {keep : Value → Bool}
    (hgone : ∀ id ∈ ids, keep id = false → id ∈ seen)
    (h : Preorder elements seen (ids.filter keep) found after) :
    Preorder elements seen ids found after := by
  induction ids generalizing seen found with
  | nil => exact h
  | cons id ids ih =>
    have hrest : ∀ {later : List Value}, seen ⊆ later →
        ∀ a ∈ ids, keep a = false → a ∈ later :=
      fun hsub a ha hk => hsub (hgone a (List.mem_cons_of_mem _ ha) hk)
    by_cases hkeep : keep id = true
    · rw [List.filter_cons_of_pos hkeep] at h
      cases h with
      | pass h htail => exact .pass h (ih (hrest (List.Subset.refl seen)) htail)
      | enter hnew he hbelow htail =>
        have hsub : seen ⊆ _ := fun a ha => hbelow.seen_subset (List.mem_cons_of_mem _ ha)
        exact .enter hnew he hbelow (ih (hrest hsub) htail)
    · rw [List.filter_cons_of_neg hkeep] at h
      have hseen : id ∈ seen :=
        hgone id (List.mem_cons_self ..) (Bool.eq_false_iff.mpr hkeep)
      exact .pass (Or.inl hseen) (ih (hrest (List.Subset.refl seen)) h)

/-! ## §3. What the walk reaches. -/

/-- Every identity walked through has been seen after it, if an element has it. -/
theorem mem_after {seen ids after : List Value} {found : List Element}
    (h : Preorder elements seen ids found after) {id : Value} (hid : id ∈ ids)
    {e : Element} (he : element? elements id = some e) : id ∈ after := by
  induction h with
  | done seen => exact absurd hid List.not_mem_nil
  | pass h hrest ih =>
    rcases List.mem_cons.mp hid with rfl | hid
    · rcases h with hseen | hnone
      · exact hrest.seen_subset hseen
      · rw [he] at hnone
        cases hnone
    · exact ih hid
  | enter _ _ hbelow hrest _ ih =>
    rcases List.mem_cons.mp hid with rfl | hid
    · exact hrest.seen_subset (hbelow.seen_subset (List.mem_cons_self ..))
    · exact ih hid

/-- Nothing is seen but what was seen before and what is found. -/
theorem of_mem_after (hnamed : NamedByText elements) {seen ids after : List Value}
    {found : List Element} (h : Preorder elements seen ids found after) {id : Value}
    (hid : id ∈ after) : id ∈ seen ∨ id ∈ found.map Element.id := by
  induction h with
  | done seen => exact Or.inl hid
  | pass _ _ ih => exact ih hid
  | @enter seen rest mid after top e below found hnew he hbelow hrest ihbelow ihrest =>
    have htop : e.id = top := hnamed.id_eq_of_element? he
    rw [List.map_append, List.map_cons, List.mem_append, List.mem_cons]
    rcases ihrest hid with hmid | hfound
    · rcases ihbelow hmid with hseen | hfound
      · rcases List.mem_cons.mp hseen with rfl | hseen
        · exact Or.inr (Or.inl (Or.inl htop.symm))
        · exact Or.inl hseen
      · exact Or.inr (Or.inl (Or.inr hfound))
    · exact Or.inr (Or.inr hfound)

/-- What lies in an element that is found has been seen. -/
theorem children_mem_after (hnamed : NamedByText elements) {seen ids after : List Value}
    {found : List Element} (h : Preorder elements seen ids found after) {e c : Element}
    (he : e ∈ found) (hc : c ∈ childrenOf elements e.id) : c.id ∈ after := by
  induction h with
  | done seen => exact absurd he List.not_mem_nil
  | pass _ _ ih => exact ih he
  | @enter seen rest mid after top e' below found hnew htop hbelow hrest ihbelow ihrest =>
    rcases List.mem_append.mp he with he | he
    · refine hrest.seen_subset ?_
      rcases List.mem_cons.mp he with rfl | he
      · -- the children of the element are what is walked through next
        rw [hnamed.id_eq_of_element? htop] at hc
        obtain ⟨a, ha⟩ := hnamed.exists_element? (List.mem_of_mem_filter hc)
        exact hbelow.mem_after (List.mem_map_of_mem hc) ha
      · exact ihbelow he
    · exact ihrest he

/-- Nothing is found beyond a set that holds what is walked through and is closed downwards. -/
theorem found_subset (hnamed : NamedByText elements) {within : Set Value}
    (hclosed : ∀ e ∈ elements, e.hasParent = true → e.parentId ∈ within → e.id ∈ within)
    {seen ids after : List Value} {found : List Element}
    (h : Preorder elements seen ids found after)
    (hids : ∀ e ∈ elements, e.id ∈ ids → e.id ∈ within) :
    ∀ e ∈ found, e.id ∈ within := by
  induction h with
  | done seen => exact fun e he => absurd he List.not_mem_nil
  | pass _ _ ih => exact ih fun e he hid => hids e he (List.mem_cons_of_mem _ hid)
  | @enter seen rest mid after top e below found hnew htop hbelow hrest ihbelow ihrest =>
    have hid : e.id = top := hnamed.id_eq_of_element? htop
    have hmem : e ∈ elements := mem_of_element? htop
    have hwithin : e.id ∈ within := hids e hmem (hid ▸ List.mem_cons_self ..)
    have hchildren : ∀ c ∈ elements,
        c.id ∈ (childrenOf elements top).map Element.id → c.id ∈ within := by
      intro c hc hcid
      obtain ⟨c', hc', hsame⟩ := List.mem_map.mp hcid
      obtain ⟨hc'mem, hparent, hparentId⟩ := (hnamed.mem_childrenOf hmem).mp (hid ▸ hc')
      rw [← hsame]
      exact hclosed c' hc'mem hparent (hparentId ▸ hwithin)
    intro a ha
    rcases List.mem_append.mp ha with ha | ha
    · rcases List.mem_cons.mp ha with rfl | ha
      · exact hwithin
      · exact ihbelow hchildren a ha
    · exact ihrest (fun e he hid => hids e he (List.mem_cons_of_mem _ hid)) a ha

end Preorder

/-! ## §4. The stack. -/

/-- What a stack and a walk know of the same past: a place can still be visited iff its identity was
not seen. -/
def KnowsSeen (elements : List Element) (unseen : List Nat) (seen : List Value) : Prop :=
  ∀ id i, position? elements id = some i → (i ∈ unseen ↔ id ∉ seen)

/-- Visiting the place of an identity is seeing the identity. -/
theorem KnowsSeen.visit {elements : List Element} (hnamed : NamedByText elements)
    {unseen : List Nat} {seen : List Value} (h : KnowsSeen elements unseen seen)
    (hnodup : unseen.Nodup) {id : Value} {i : Nat} (hi : position? elements id = some i) :
    KnowsSeen elements (unseen.erase i) (id :: seen) := by
  intro other j hj
  rw [hnodup.mem_erase_iff, List.mem_cons, h other j hj, not_or]
  refine and_congr_left fun _ => ⟨?_, ?_⟩
  · rintro hji rfl
    exact hji (Option.some.inj (hj.symm.trans hi))
  · -- one place has one identity
    rintro hid rfl
    obtain ⟨e, he, _⟩ := getElem?_of_position? hi
    exact hid ((hnamed.id_eq hj he).symm.trans (hnamed.id_eq hi he))

theorem isUnseen_eq_false {elements : List Element} {unseen : List Nat} {seen : List Value}
    (h : KnowsSeen elements unseen seen) {id : Value} {i : Nat}
    (hi : position? elements id = some i) (hid : isUnseen elements unseen id = false) :
    id ∈ seen := by
  rw [isUnseen, hi, Option.any_some, List.contains_eq_mem, decide_eq_false_iff_not, h id i hi,
    not_not] at hid
  exact hid

/-- **The stack walks as the recursion does.** -/
theorem Visits.preorder {elements found : List Element} (hnamed : NamedByText elements)
    {unseen : List Nat} {stack : List Value} (h : Visits elements unseen stack found)
    (seen : List Value) (hnodup : unseen.Nodup) (hknows : KnowsSeen elements unseen seen) :
    ∃ after, Preorder elements seen stack found after := by
  induction h generalizing seen with
  | done => exact ⟨seen, .done seen⟩
  | @pass unseen id rest found hpass _ ih =>
    obtain ⟨after, hrest⟩ := ih seen hnodup hknows
    refine ⟨after, .pass ?_ hrest⟩
    cases helement : element? elements id with
    | none => exact Or.inr rfl
    | some e =>
      obtain ⟨i, hi, he⟩ := element?_eq_some_iff.mp helement
      exact Or.inl (not_not.mp fun hnew => hpass i e hi he ((hknows id i hi).mpr hnew))
  | @enter unseen id rest found i e hi he hunseen _ ih =>
    have hid : e.id = id := hnamed.id_eq hi he
    have hknows' := hknows.visit hnamed hnodup hi
    obtain ⟨after, hwalk⟩ := ih (id :: seen) (hnodup.erase i) hknows'
    -- what the stack holds of the children is walked through before the rest
    obtain ⟨below, mid, found, hbelow, hrest, rfl⟩ := hwalk.of_append
    have hgone : ∀ c ∈ (childrenOf elements e.id).map Element.id,
        isUnseen elements (unseen.erase i) c = false → c ∈ id :: seen := by
      intro c hc hseen
      obtain ⟨child, hchild, rfl⟩ := List.mem_map.mp hc
      obtain ⟨a, ha⟩ := hnamed.exists_element? (List.mem_of_mem_filter hchild)
      obtain ⟨j, hj, _⟩ := element?_eq_some_iff.mp ha
      exact isUnseen_eq_false hknows' hj hseen
    have hall := hbelow.of_filter hgone
    rw [hid] at hall
    exact ⟨after, .enter ((hknows id i hi).mp hunseen)
      (element?_eq_some_iff.mpr ⟨i, hi, he⟩) hall hrest⟩

/-- At the start nothing was seen. -/
theorem resolve_preorder {elements : List Element} (hnamed : NamedByText elements) (w : Window) :
    ∃ after, Preorder elements [] w.elementIds (resolve elements w) after := by
  refine (visits_visit elements _ w.elementIds).preorder hnamed [] List.nodup_range ?_
  intro id i hi
  obtain ⟨e, he, _⟩ := getElem?_of_position? hi
  have hlt : i < elements.length := (List.getElem?_eq_some_iff.mp he).1
  exact ⟨fun _ => List.not_mem_nil, fun _ => List.mem_range.mpr hlt⟩

/-- A window that lists one element without children shows only that. -/
theorem resolve_alone {elements : List Element} (hnamed : NamedByText elements) {w : Window}
    {e : Element} (hlisted : w.elementIds = [e.id]) (helement : element? elements e.id = some e)
    (hchildren : childrenOf elements e.id = []) : resolve elements w = [e] := by
  obtain ⟨after, hwalk⟩ := resolve_preorder hnamed w
  have hbelow : Preorder elements [e.id] ((childrenOf elements e.id).map Element.id) [] [e.id] := by
    rw [hchildren]
    exact .done _
  rw [hlisted] at hwalk
  exact (hwalk.unique (.enter List.not_mem_nil helement hbelow (.done _))).1

/-! ## §5. What a window shows. -/

/-- The sets of identities that hold what a window lists and with an element all that lies in it,
`lies` saying of an element whether it lies in the one that its parent identity names. -/
def Gathering (elements : List Element) (w : Window) (lies : Element → Prop) : Set (Set Value) :=
  {ids | (∀ e ∈ elements, e.id ∈ w.elementIds → e.id ∈ ids)
    ∧ ∀ e ∈ elements, lies e → e.parentId ∈ ids → e.id ∈ ids}

/-- The identities that a window shows. -/
def shownIds (elements : List Element) (w : Window) : Set Value :=
  {id | id ∈ (resolve elements w).map Element.id}

/-- What a window shows holds what the window lists and with an element all that lies in it. -/
theorem shownIds_mem_gathering {elements : List Element} (hnamed : NamedByText elements)
    (w : Window) :
    shownIds elements w ∈ Gathering elements w fun e => e.hasParent = true := by
  obtain ⟨after, hwalk⟩ := resolve_preorder hnamed w
  have hshown : ∀ id ∈ after, id ∈ shownIds elements w := by
    intro id hid
    rcases hwalk.of_mem_after hnamed hid with hnil | hfound
    · exact absurd hnil List.not_mem_nil
    · exact hfound
  constructor
  · intro e he hlisted
    obtain ⟨a, ha⟩ := hnamed.exists_element? he
    exact hshown e.id (hwalk.mem_after hlisted ha)
  · intro c hc hparent hshownParent
    obtain ⟨e, he, hid⟩ := List.mem_map.mp hshownParent
    have hmem : e ∈ elements := ((visits_visit elements _ _).distinct hnamed List.nodup_range).1 e he |>.1
    refine hshown c.id (hwalk.children_mem_after hnamed he ?_)
    exact (hnamed.mem_childrenOf hmem).mpr ⟨hc, hparent, hid.symm⟩

/-- **What a window shows** is the one list that the recursive walk through its identities finds; no
identity comes twice; and its identities are the least set that holds what the window lists and with
an element all that lies in it.  An element without a parent identity, or with an empty one, lies in
none. -/
theorem resolve_iff {elements : List Element} (hnamed : NamedByText elements) (w : Window) :
    (∀ found, (∃ after, Preorder elements [] w.elementIds found after)
        ↔ found = resolve elements w)
      ∧ ((resolve elements w).map Element.id).Nodup
      ∧ IsLeast (Gathering elements w fun e => e.hasParent = true) (shownIds elements w) := by
  obtain ⟨after, hwalk⟩ := resolve_preorder hnamed w
  refine ⟨fun found => ⟨?_, ?_⟩, (distinctIds_resolve elements w hnamed).nodup,
    shownIds_mem_gathering hnamed w, ?_⟩
  · rintro ⟨after', hfound⟩
    exact (hfound.unique hwalk).1
  · rintro rfl
    exact ⟨after, hwalk⟩
  · rintro within ⟨hlisted, hclosed⟩ id hid
    obtain ⟨e, he, rfl⟩ := List.mem_map.mp hid
    exact hwalk.found_subset hnamed hclosed hlisted e he

/-! ## §6. Two small projects. -/

/-- An element of a kind that lies in the one of an identity, or in none. -/
def placed (kind : Kind) (id : String) (parent : Value) : Element :=
  ⟨kind, Element.assign kind [("id", .text id), ("parent_id", parent)]⟩

/-- A window that lists some identities. -/
def listing (ids : List String) : Window :=
  { id := "main", name := .text "Main", kind := .text "release", width := 4, height := 3
    backgroundColor := .text "#000", backgroundType := .text "color", gradient := none
    elementIds := ids.map Value.text }

/-- Two panels that lie in each other. -/
def ring : List Element := [placed .panel "a" (.text "b"), placed .panel "b" (.text "a")]

theorem namedByText_ring : NamedByText ring := by
  intro e he
  rcases List.mem_cons.mp he with rfl | he
  · exact ⟨"a", rfl⟩
  · rw [List.mem_singleton.mp he]
    exact ⟨"b", rfl⟩

/-- The walk enters both panels of a ring once: below the second one the first was seen. -/
theorem preorder_ring :
    Preorder ring [] [.text "a", .text "none", .text "a"] ring [.text "b", .text "a"] := by
  have hback : Preorder ring [.text "b", .text "a"] [.text "a"] [] [.text "b", .text "a"] :=
    .pass (Or.inl (by simp)) (.done _)
  have hsecond : Preorder ring [.text "a"] [.text "b"] [placed .panel "b" (.text "a")]
      [.text "b", .text "a"] := .enter (by simp) rfl hback (.done _)
  have hrest : Preorder ring [.text "b", .text "a"] [.text "none", .text "a"] []
      [.text "b", .text "a"] := .pass (Or.inr rfl) hback
  exact .enter List.not_mem_nil rfl hsecond hrest

/-- A window that lists one of two panels in a ring twice, and a missing one, shows both once. -/
theorem ring_shown :
    NamedByText ring ∧ resolve ring (listing ["a", "none", "a"]) = ring
      ∧ ((resolve ring (listing ["a", "none", "a"])).map Element.id).Nodup
      ∧ IsLeast (Gathering ring (listing ["a", "none", "a"]) fun e => e.hasParent = true)
          (shownIds ring (listing ["a", "none", "a"])) := by
  obtain ⟨hfound, hleast⟩ := resolve_iff namedByText_ring (listing ["a", "none", "a"])
  exact ⟨namedByText_ring, ((hfound ring).mp ⟨_, preorder_ring⟩).symm, hleast⟩

/-- A panel with an empty identity, and a knob whose parent identity is empty. -/
def unnamedPanel : List Element := [placed .panel "" .null, placed .knob "b" (.text "")]

theorem namedByText_unnamedPanel : NamedByText unnamedPanel := by
  intro e he
  rcases List.mem_cons.mp he with rfl | he
  · exact ⟨"", rfl⟩
  · rw [List.mem_singleton.mp he]
    exact ⟨"b", rfl⟩

/-- An empty parent identity names no parent, not even where an element has the empty identity: what
is shown does not hold all elements whose parent identity it holds. -/
theorem unnamed_holds_nothing :
    NamedByText unnamedPanel
      ∧ ¬ IsLeast (Gathering unnamedPanel (listing [""]) fun _ => True)
          (shownIds unnamedPanel (listing [""])) := by
  refine ⟨namedByText_unnamedPanel, fun hleast => ?_⟩
  have hpanel : Value.text "" ∈ shownIds unnamedPanel (listing [""]) :=
    hleast.1.1 (placed .panel "" .null) (by simp [unnamedPanel]) (by simp [listing]; rfl)
  have hknob : Value.text "b" ∈ shownIds unnamedPanel (listing [""]) :=
    hleast.1.2 (placed .knob "b" (.text "")) (by simp [unnamedPanel]) trivial hpanel
  -- yet the walk finds nothing below the panel
  have hbelow : Preorder unnamedPanel [.text ""]
      ((childrenOf unnamedPanel (.text "")).map Element.id) [] [.text ""] := .done _
  have hwalk : Preorder unnamedPanel [] (listing [""]).elementIds [placed .panel "" .null]
      [.text ""] := .enter List.not_mem_nil rfl hbelow (.done _)
  obtain ⟨after, hshown⟩ := resolve_preorder namedByText_unnamedPanel (listing [""])
  rw [shownIds, ← (hwalk.unique hshown).1] at hknob
  exact absurd (Value.text.inj (List.mem_singleton.mp hknob)) (by decide)

end ControlSurface.Layout
