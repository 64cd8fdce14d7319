/-
  ControlSurface.Proofs.Fault.Outcome
  ───────────────────────────────────
  Computations that may fail, opened from their result.  A step that succeeded had a first part
  that succeeded (`bind_eq_ok_iff`), a list worked through item by item was worked through at every
  item (`mapM_eq_ok_iff`), and what every step keeps is kept by a whole fold (`foldlM_keeps`).
  `Ensures` and `Finds` say what holds of a result without naming the ones on the way, and `Agree`
  compares two computations step by step.
  `FailsWith` says that the faults of a computation are all of one sort; `Foreign` ones are not the
  program's own, and nothing in the program reports them.
-/
import ControlSurface.Fault
import Mathlib.Data.List.Forall2

namespace ControlSurface.Outcome

variable {ε α β : Type}

/-! ## §1. One step after another. -/

theorem ok_bind (a : α) (f : α → Except ε β) : (.ok a >>= f : Except ε β) = f a := rfl

theorem error_bind (e : ε) (f : α → Except ε β) : (.error e >>= f : Except ε β) = .error e := rfl

/-- A computation succeeds iff its first part does and the rest does after it. -/
theorem bind_eq_ok_iff (x : Except ε α) (f : α → Except ε β) (b : β) :
    x >>= f = .ok b ↔ ∃ a, x = .ok a ∧ f a = .ok b := by
  cases x with
  | ok a =>
    constructor
    · intro h
      exact ⟨a, rfl, h⟩
    · rintro ⟨a', ha, hb⟩
      cases ha
      exact hb
  | error e =>
    constructor
    · intro h
      exact absurd h (by simp [bind, Except.bind])
    · rintro ⟨a, ha, _⟩
      cases ha

/-- A result that is only changed is there exactly when it was there before. -/
theorem exists_map_iff {x : Except ε α} {f : α → β} :
    (∃ b, (do .ok (f (← x)) : Except ε β) = .ok b) ↔ ∃ a, x = .ok a := by
  constructor
  · rintro ⟨b, hb⟩
    obtain ⟨a, ha, _⟩ := (bind_eq_ok_iff _ _ _).mp hb
    exact ⟨a, ha⟩
  · rintro ⟨a, rfl⟩
    exact ⟨f a, rfl⟩

/-- Two computations with parts that succeed together, and whose rests do whatever these give. -/
theorem isOk_bind_congr {γ δ : Type} {x : Except ε α} {y : Except ε β} {f : α → Except ε γ}
    {g : β → Except ε δ} (h : x.isOk = y.isOk) (hrest : ∀ a b, (f a).isOk = (g b).isOk) :
    (x >>= f).isOk = (y >>= g).isOk := by
  cases x with
  | ok a =>
    cases y with
    | ok b => exact hrest a b
    | error e => cases h
  | error e =>
    cases y with
    | ok b => cases h
    | error e => rfl

theorem isOk_ok_congr (a : α) (b : β) :
    (.ok a : Except ε α).isOk = (.ok b : Except ε β).isOk := rfl

theorem isOk_of_eq {x : Except ε α} {a : α} (h : x = .ok a) : x.isOk = true := by
  rw [h]
  rfl

theorem exists_of_isOk {x : Except ε α} (h : x.isOk = true) : ∃ a, x = .ok a := by
  cases x with
  | ok a => exact ⟨a, rfl⟩
  | error e => cases h

theorem exists_of_any {x : Except ε α} {p : α → Bool} (h : x.toOption.any p = true) :
    ∃ a, x = .ok a ∧ p a = true := by
  cases x with
  | ok a => exact ⟨a, rfl, h⟩
  | error => cases h

/-! ## §2. Lists. -/

/-- A list is worked through iff each of its items is. -/
theorem mapM_eq_ok_iff (f : α → Except ε β) (xs : List α) (ys : List β) :
    xs.mapM f = .ok ys ↔ List.Forall₂ (fun x y => f x = .ok y) xs ys := by
  induction xs generalizing ys with
  | nil =>
    rw [List.mapM_nil]
    constructor
    · intro h
      cases h
      exact .nil
    · intro h
      cases h
      rfl
  | cons x xs ih =>
    rw [List.mapM_cons, bind_eq_ok_iff]
    constructor
    · rintro ⟨y, hy, h⟩
      obtain ⟨zs, hzs, h⟩ := (bind_eq_ok_iff _ _ _).mp h
      cases h
      exact .cons hy ((ih zs).mp hzs)
    · intro h
      cases h with
      | cons hy hys =>
        exact ⟨_, hy, (bind_eq_ok_iff _ _ _).mpr ⟨_, (ih _).mpr hys, rfl⟩⟩

/-- Items that each stand to something stand to it one by one. -/
theorem exists_forall₂ {R : α → β → Prop} {xs : List α} (h : ∀ x ∈ xs, ∃ y, R x y) :
    ∃ ys, List.Forall₂ R xs ys := by
  induction xs with
  | nil => exact ⟨[], .nil⟩
  | cons x xs ih =>
    obtain ⟨hx, hxs⟩ := List.forall_mem_cons.mp h
    obtain ⟨y, hy⟩ := hx
    obtain ⟨ys, hys⟩ := ih hxs
    exact ⟨y :: ys, .cons hy hys⟩

theorem exists_of_forall₂ {R : α → β → Prop} {xs : List α} {ys : List β}
    (h : List.Forall₂ R xs ys) : ∀ x ∈ xs, ∃ y, R x y := by
  induction h with
  | nil => exact fun x hx => absurd hx List.not_mem_nil
  | cons hxy _ ih => exact List.forall_mem_cons.mpr ⟨⟨_, hxy⟩, ih⟩

/-- The results of a list are those of its items. -/
theorem mem_mapM_iff {f : α → Except ε β} {xs : List α} {ys : List β} (h : xs.mapM f = .ok ys)
    (y : β) : y ∈ ys ↔ ∃ x ∈ xs, f x = .ok y := by
  have hall := (mapM_eq_ok_iff f xs ys).mp h
  clear h
  induction hall with
  | nil => simp
  | cons hx _ ih =>
    constructor
    · intro hy
      rcases List.mem_cons.mp hy with rfl | hy
      · exact ⟨_, List.mem_cons_self .., hx⟩
      · obtain ⟨w, hw, hread⟩ := ih.mp hy
        exact ⟨w, List.mem_cons_of_mem _ hw, hread⟩
    · rintro ⟨w, hw, hread⟩
      rcases List.mem_cons.mp hw with rfl | hw
      · cases hx.symm.trans hread
        exact List.mem_cons_self ..
      · exact List.mem_cons_of_mem _ (ih.mpr ⟨w, hw, hread⟩)

/-- Where a list is worked through, each of its items gives something. -/
theorem exists_of_mapM {f : α → Except ε β} {xs : List α} {ys : List β} (h : xs.mapM f = .ok ys)
    {x : α} (hx : x ∈ xs) : ∃ y, f x = .ok y := by
  have hall := (mapM_eq_ok_iff f xs ys).mp h
  clear h
  induction hall with
  | nil => cases hx
  | cons hread _ ih =>
    rcases List.mem_cons.mp hx with rfl | hx
    · exact ⟨_, hread⟩
    · exact ih hx

/-- Where a list is not worked through, one of its items gives the fault. -/
theorem exists_of_mapM_error {f : α → Except ε β} {xs : List α} {e : ε}
    (h : xs.mapM f = .error e) : ∃ x ∈ xs, f x = .error e := by
  induction xs with
  | nil => cases h
  | cons x xs ih =>
    rw [List.mapM_cons] at h
    cases hx : f x with
    | error e' =>
      rw [hx] at h
      cases h
      exact ⟨x, List.mem_cons_self .., hx⟩
    | ok y =>
      cases hrest : xs.mapM f with
      | error e' =>
        rw [hx, hrest] at h
        cases h
        obtain ⟨w, hw, hfault⟩ := ih hrest
        exact ⟨w, List.mem_cons_of_mem _ hw, hfault⟩
      | ok ys =>
        rw [hx, hrest] at h
        cases h

/-- What every step keeps, a fold keeps. -/
theorem foldlM_keeps (P : β → Prop) (f : β → α → Except ε β)
    (step : ∀ b a b', P b → f b a = .ok b' → P b') (xs : List α) (b b' : β) (hb : P b)
    (h : xs.foldlM f b = .ok b') : P b' := by
  induction xs generalizing b with
  | nil =>
    cases h
    exact hb
  | cons x xs ih =>
    rw [List.foldlM_cons] at h
    obtain ⟨c, hc, h⟩ := (bind_eq_ok_iff _ _ _).mp h
    exact ih c (step b x c hb hc) h

/-! ## §3. What holds of a result. -/

/-- What a computation gives, if it gives anything, has a property. -/
def Ensures (P : α → Prop) (x : Except ε α) : Prop := ∀ a, x = .ok a → P a

theorem ensures_ok {P : α → Prop} {a : α} (h : P a) : Ensures P (.ok a : Except ε α) := by
  intro b hb
  cases hb
  exact h

/-- The result of a step after another has a property if it has it after every first result. -/
theorem ensures_bind {Q : α → Prop} {P : β → Prop} {x : Except ε α} {f : α → Except ε β}
    (hx : Ensures Q x) (hf : ∀ a, Q a → Ensures P (f a)) : Ensures P (x >>= f) := by
  intro b hb
  obtain ⟨a, ha, hb⟩ := (bind_eq_ok_iff x f b).mp hb
  exact hf a (hx a ha) b hb

/-- A first result of which nothing is asked. -/
theorem ensures_after {P : β → Prop} {x : Except ε α} {f : α → Except ε β}
    (hf : ∀ a, Ensures P (f a)) : Ensures P (x >>= f) :=
  ensures_bind (Q := fun _ => True) (fun _ _ => trivial) fun a _ => hf a

theorem ensures_mapM {P : β → Prop} {f : α → Except ε β} (hf : ∀ a, Ensures P (f a))
    (xs : List α) : Ensures (fun ys => ∀ y ∈ ys, P y) (xs.mapM f) := by
  intro ys hys
  rw [mapM_eq_ok_iff] at hys
  induction hys with
  | nil =>
    intro y hy
    exact absurd hy List.not_mem_nil
  | cons hx _ ih =>
    intro y hy
    rcases List.mem_cons.mp hy with rfl | hy
    · exact hf _ _ hx
    · exact ih y hy

/-! ## §4. What holds of what is found. -/

/-- What a search finds, if it finds anything, has a property. -/
def Finds (P : α → Prop) (x : Option α) : Prop := ∀ a, x = some a → P a

theorem finds_none {P : α → Prop} : Finds P (none : Option α) := by
  intro a h
  cases h

theorem finds_some {P : α → Prop} {a : α} (h : P a) : Finds P (some a) := by
  intro b hb
  cases hb
  exact h

/-- What is found after another search has a property if it has it after every first finding. -/
theorem finds_bind {Q : α → Prop} {P : β → Prop} {x : Option α} {f : α → Option β}
    (hx : Finds Q x) (hf : ∀ a, Q a → Finds P (f a)) : Finds P (x >>= f) := by
  intro b hb
  obtain ⟨a, ha, hb⟩ := Option.bind_eq_some_iff.mp hb
  exact hf a (hx a ha) b hb

/-- A first finding of which nothing is asked. -/
theorem finds_after {P : β → Prop} {x : Option α} {f : α → Option β} (hf : ∀ a, Finds P (f a)) :
    Finds P (x >>= f) :=
  finds_bind (Q := fun _ => True) (fun _ _ => trivial) fun a _ => hf a

theorem finds_map {P : β → Prop} {x : Option α} {f : α → β} (h : Finds (fun a => P (f a)) x) :
    Finds P (x.map f) := by
  intro b hb
  obtain ⟨a, ha, rfl⟩ := Option.map_eq_some_iff.mp hb
  exact h a ha

/-- A list is searched through iff something is found for each of its items. -/
theorem mapM_eq_some_iff {f : α → Option β} {xs : List α} {ys : List β} :
    xs.mapM f = some ys ↔ List.Forall₂ (fun x y => f x = some y) xs ys := by
  induction xs generalizing ys with
  | nil =>
    rw [List.mapM_nil]
    constructor
    · intro h
      cases h
      exact .nil
    · intro h
      cases h
      rfl
  | cons x xs ih =>
    rw [List.mapM_cons]
    constructor
    · intro h
      obtain ⟨y, hy, h⟩ := Option.bind_eq_some_iff.mp h
      obtain ⟨zs, hzs, h⟩ := Option.bind_eq_some_iff.mp h
      cases h
      exact .cons hy (ih.mp hzs)
    · intro h
      cases h with
      | cons hy hys =>
        exact Option.bind_eq_some_iff.mpr
          ⟨_, hy, Option.bind_eq_some_iff.mpr ⟨_, ih.mpr hys, rfl⟩⟩

theorem finds_mapM {P : α → Prop} {Q : β → Prop} {f : α → Option β} {xs : List α}
    (hxs : ∀ x ∈ xs, P x) (hf : ∀ a, P a → Finds Q (f a)) :
    Finds (fun ys => ∀ y ∈ ys, Q y) (xs.mapM f) := by
  induction xs with
  | nil => exact finds_some (by simp)
  | cons x xs ih =>
    rw [List.mapM_cons]
    refine finds_bind (hf x (hxs x (List.mem_cons_self ..))) fun y hy => ?_
    refine finds_bind (ih fun a ha => hxs a (List.mem_cons_of_mem x ha)) fun ys hys => ?_
    exact finds_some fun z hz => (List.mem_cons.mp hz).elim (fun h => h ▸ hy) (hys z)

/-! ## §5. Computations that go together. -/

variable {γ δ : Type}

/-- Two computations that fail with one fault, or succeed with results that stand to each other. -/
inductive Agree (R : α → β → Prop) : Except ε α → Except ε β → Prop
  | fault (e : ε) : Agree R (.error e) (.error e)
  | both {a : α} {b : β} (h : R a b) : Agree R (.ok a) (.ok b)

theorem agree_refl (x : Except ε α) : Agree (· = ·) x x := by
  cases x with
  | ok a => exact .both rfl
  | error e => exact .fault e

theorem Agree.bind {R : α → β → Prop} {S : γ → δ → Prop} {x : Except ε α} {y : Except ε β}
    {f : α → Except ε γ} {g : β → Except ε δ} (h : Agree R x y)
    (hrest : ∀ a b, R a b → Agree S (f a) (g b)) : Agree S (x >>= f) (y >>= g) := by
  cases h with
  | fault e => exact .fault e
  | both h => exact hrest _ _ h

theorem Agree.fault_or_both {R : α → β → Prop} {x : Except ε α} {y : Except ε β} (h : Agree R x y) :
    (∃ e, x = .error e ∧ y = .error e) ∨ ∃ a b, x = .ok a ∧ y = .ok b ∧ R a b := by
  cases h with
  | fault e => exact Or.inl ⟨e, rfl, rfl⟩
  | both h => exact Or.inr ⟨_, _, rfl, rfl, h⟩

/-- The same computation on both sides. -/
theorem agree_bind_same {S : γ → δ → Prop} (x : Except ε α) {f : α → Except ε γ}
    {g : α → Except ε δ} (hrest : ∀ a, Agree S (f a) (g a)) : Agree S (x >>= f) (x >>= g) := by
  apply (agree_refl x).bind
  intro a b hab
  subst hab
  exact hrest a

/-! ## §6. Faults of one sort. -/

section Failing

/-- Every fault of a computation is of one sort. -/
def FailsWith (P : ε → Prop) (x : Except ε α) : Prop := ∀ e, x = .error e → P e

variable {P Q : ε → Prop}

theorem failsWith_ok (a : α) : FailsWith P (.ok a : Except ε α) := fun _ h => nomatch h

theorem failsWith_error {e : ε} (h : P e) : FailsWith P (.error e : Except ε α) := by
  intro fault hfault
  cases hfault
  exact h

theorem FailsWith.imp {x : Except ε α} (h : FailsWith P x) (himp : ∀ e, P e → Q e) :
    FailsWith Q x := fun e he => himp e (h e he)

/-- A computation fails in its first part or in the rest. -/
theorem failsWith_bind {x : Except ε α} {f : α → Except ε β} (hx : FailsWith P x)
    (hf : ∀ a, FailsWith P (f a)) : FailsWith P (x >>= f) := by
  intro e he
  cases x with
  | ok a => exact hf a e he
  | error first =>
    cases he
    exact hx _ rfl

/-- A list is worked through until an item fails. -/
theorem failsWith_mapM {f : α → Except ε β} {xs : List α} (hf : ∀ x ∈ xs, FailsWith P (f x)) :
    FailsWith P (xs.mapM f) := by
  intro e he
  obtain ⟨x, hx, hfault⟩ := exists_of_mapM_error he
  exact hf x hx e hfault

end Failing

/-! ## §7. Faults that are foreign to the program. -/

/-- A fault that is not one of the program's own. -/
def Foreign (e : Fault) : Prop := e.isOwn = false

theorem foreign_of_isFileFault {e : Fault} (h : e.isFileFault = true) : Foreign e := by
  cases e <;> first | rfl | cases h

/-- A computation without a fault of its own goes well, or fails with a foreign fault. -/
theorem own_iff_of_foreign {α : Type} {x : Except Fault α} (h : FailsWith Foreign x) :
    FailsWith (fun e => e.isOwn = true) x ↔ ∃ a, x = .ok a := by
  cases x with
  | ok a => exact iff_of_true (failsWith_ok _) ⟨a, rfl⟩
  | error e =>
    refine iff_of_false (fun hown => ?_) fun ⟨_, hok⟩ => nomatch hok
    exact Bool.false_ne_true ((h e rfl).symm.trans (hown e rfl))

end ControlSurface.Outcome
