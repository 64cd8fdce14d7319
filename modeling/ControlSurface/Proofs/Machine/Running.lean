/-
  ControlSurface.Proofs.Machine.Running
  ─────────────────────────────────────
  Programs on a machine that is a value.  A call is answered by the disk, or it is made to fail and
  leaves what it came to until then; one lemma for each kind of call says what the disk can be
  afterwards.  A program is opened step by step (`yields_bind`), and one in which every failing call
  is the end does not pass over a failure (`Heeds`).  A call whose paths hold no character that ends
  names fails with a fault of the file system only (`FailsOnDisk`), and no call fails with a fault of
  the program's own (`foreign_onDisk`).  A program ends with a result iff its first part does and the
  rest does after it (`ends_bind_iff`).
-/
import ControlSurface.Machine.Rehearsal
import ControlSurface.Proofs.Fault.Outcome
import ControlSurface.Proofs.Machine.Carrying

namespace ControlSurface.Rehearsal

open Disk FileSystem

variable {α β : Type}

/-! ## §1. One call. -/

/-- A call is answered by the disk, or made to fail. -/
theorem onDisk_cases (c : FileCall α) (r : Rehearsal) :
    ((onDisk c r).1 = (r.disk.run c).1 ∧ (onDisk c r).2.disk = (r.disk.run c).2)
      ∨ ((onDisk c r).1 = .error injected ∧ (onDisk c r).2.disk = r.cutShort c) := by
  unfold onDisk
  split
  · exact Or.inr ⟨rfl, rfl⟩
  · exact Or.inl ⟨rfl, rfl⟩

/-- A machine on which no call is made to fail stays one. -/
theorem onDisk_of_none (c : FileCall α) {r : Rehearsal} (h : r.failsAfter = none) :
    (onDisk c r).1 = (r.disk.run c).1 ∧ (onDisk c r).2.disk = (r.disk.run c).2
      ∧ (onDisk c r).2.failsAfter = none := by
  unfold onDisk
  rw [h]
  exact ⟨rfl, rfl, rfl⟩

/-- Once a call was made to fail no other one is. -/
theorem onDisk_spent (c : FileCall α) {r : Rehearsal} (h : r.failsAfter ≠ none)
    (hspent : (onDisk c r).2.failsAfter = none) : (onDisk c r).1 = .error injected := by
  unfold onDisk at hspent ⊢
  split at hspent
  · rfl
  · exact absurd (Option.map_eq_none_iff.mp hspent) h

theorem look_spec (p : Path) (r : Rehearsal) :
    (onDisk (.look p) r).2.disk = r.disk
      ∧ ∀ found, (onDisk (.look p) r).1 = .ok found → found = r.disk.look p := by
  rcases onDisk_cases (.look p) r with ⟨hanswer, hdisk⟩ | ⟨hanswer, hdisk⟩
  · refine ⟨hdisk, fun found hfound => ?_⟩
    rw [hanswer] at hfound
    cases hfound
    rfl
  · refine ⟨hdisk, fun found hfound => ?_⟩
    rw [hanswer] at hfound
    cases hfound

/-- Directories are made on the way of a path, all of them if the call goes well. -/
theorem makeDirectories_spec {r : Rehearsal} (htree : r.disk.IsTree) (p : Path) :
    Built r.disk (onDisk (.makeDirectories p) r).2.disk (r.disk.wayOf p)
      ∧ ((onDisk (.makeDirectories p) r).1 = .ok () →
          (r.disk.makeDirectories p).1 = .ok ()
            ∧ (onDisk (.makeDirectories p) r).2.disk = (r.disk.makeDirectories p).2) := by
  rcases onDisk_cases (.makeDirectories p) r with ⟨hanswer, hdisk⟩ | ⟨hanswer, hdisk⟩
  · rw [hanswer, hdisk]
    exact ⟨makeDirectories_built htree p, fun h => ⟨h, rfl⟩⟩
  · rw [hanswer, hdisk]
    refine ⟨?_, fun h => nomatch h⟩
    refine (makeDirectories_built htree ⟨p.root, p.names.take r.reached⟩).restrict ?_
    exact fun w hw => Or.inl (way_take_subset (r.disk.start p) p.names r.reached hw)

/-- What a write can do to a disk: nothing, or put some content where no directory stands. -/
def Wrote (d d' : Disk) (p : Path) : Prop :=
  d' = d ∨ ∃ q c, d.place p = .ok q ∧ d.at? q ≠ some .directory ∧ d' = d.set q (.file c)

theorem wrote_run (d : Disk) (p : Path) (c : Content) :
    Wrote d (d.run (.write p c)).2 p
      ∧ ((d.run (.write p c)).1 = .ok () → d.write p c = .ok (d.run (.write p c)).2) := by
  show Wrote d (d.settle (d.write p c)).2 p
    ∧ ((d.settle (d.write p c)).1 = .ok () → d.write p c = .ok (d.settle (d.write p c)).2)
  cases h : d.write p c with
  | error e => exact ⟨Or.inl rfl, fun hok => nomatch hok⟩
  | ok d' =>
    obtain ⟨q, hq, hdir, rfl⟩ := write_eq_ok_iff.mp h
    exact ⟨Or.inr ⟨q, c, hq, hdir, rfl⟩, fun _ => rfl⟩

/-- A write puts its content, or fails and puts a part of it or nothing. -/
theorem write_spec (r : Rehearsal) (p : Path) (c : Content) :
    Wrote r.disk (onDisk (.write p c) r).2.disk p
      ∧ ((onDisk (.write p c) r).1 = .ok () →
          r.disk.write p c = .ok (onDisk (.write p c) r).2.disk) := by
  rcases onDisk_cases (.write p c) r with ⟨hanswer, hdisk⟩ | ⟨hanswer, hdisk⟩
  · rw [hanswer, hdisk]
    exact wrote_run r.disk p c
  · rw [hanswer, hdisk]
    refine ⟨?_, fun h => nomatch h⟩
    unfold cutShort
    dsimp only
    cases r.torn c with
    | none => exact Or.inl rfl
    | some part => exact (wrote_run r.disk p part).1

/-- A change that happens as a whole or not at all. -/
theorem settle_spec (d : Disk) (x : Except Fault Disk) :
    ((d.settle x).1 = .ok () ∧ x = .ok (d.settle x).2)
      ∨ ((∃ e, (d.settle x).1 = .error e) ∧ (d.settle x).2 = d) := by
  cases x with
  | ok d' => exact Or.inl ⟨rfl, rfl⟩
  | error e => exact Or.inr ⟨⟨e, rfl⟩, rfl⟩

/-- A move happens as a whole or not at all. -/
theorem move_spec (r : Rehearsal) (source target : Path) :
    ((onDisk (.move source target) r).1 = .ok ()
        ∧ r.disk.move source target = .ok (onDisk (.move source target) r).2.disk)
      ∨ ((∃ e, (onDisk (.move source target) r).1 = .error e)
        ∧ (onDisk (.move source target) r).2.disk = r.disk) := by
  rcases onDisk_cases (.move source target) r with ⟨hanswer, hdisk⟩ | ⟨hanswer, hdisk⟩
  · rw [hanswer, hdisk]
    exact settle_spec r.disk (r.disk.move source target)
  · exact Or.inr ⟨⟨injected, hanswer⟩, hdisk⟩

/-! ## §2. Programs. -/

/-- What holds of the outcome of a program and of the machine after it. -/
def Yields (x : ExceptT Fault Run α) (r : Rehearsal)
    (post : Except Fault α → Rehearsal → Prop) : Prop := post (x.run r).1 (x.run r).2

theorem run_bind (x : ExceptT Fault Run α) (f : α → ExceptT Fault Run β) (r : Rehearsal) :
    (x >>= f).run r = match x.run r with
      | (.ok a, r') => (f a).run r'
      | (.error e, r') => (.error e, r') := by
  obtain ⟨outcome, r', hx⟩ : ∃ outcome r', x.run r = (outcome, r') := ⟨_, _, rfl⟩
  show (ExceptT.bindCont f (x.run r).1 : Run (Except Fault β)) (x.run r).2 = _
  rw [hx]
  cases outcome with
  | ok a => rfl
  | error e => rfl

/-- A program goes on from what its first part leaves, unless that fails. -/
theorem yields_bind {x : ExceptT Fault Run α} {f : α → ExceptT Fault Run β} {r : Rehearsal}
    {post : Except Fault β → Rehearsal → Prop}
    (h : Yields x r fun
      | .ok a, r' => Yields (f a) r' post
      | .error e, r' => post (.error e) r') : Yields (x >>= f) r post := by
  unfold Yields at h ⊢
  rw [run_bind]
  obtain ⟨outcome, r', hx⟩ : ∃ outcome r', x.run r = (outcome, r') := ⟨_, _, rfl⟩
  rw [hx] at h ⊢
  cases outcome with
  | ok a => exact h
  | error e => exact h

theorem yields_ask {c : FileCall α} {r : Rehearsal} {post : Except Fault α → Rehearsal → Prop}
    (h : post (onDisk c r).1 (onDisk c r).2) : Yields (ask c) r post := h

theorem yields_pure {x : Except Fault α} {r : Rehearsal} {post : Except Fault α → Rehearsal → Prop}
    (h : post x r) : Yields (ExceptT.mk (pure x)) r post := h

theorem yields_imp {x : ExceptT Fault Run α} {r : Rehearsal}
    {post post' : Except Fault α → Rehearsal → Prop} (h : Yields x r post)
    (himp : ∀ outcome r', post outcome r' → post' outcome r') : Yields x r post' :=
  himp _ _ h

/-! ## §3. Failures that are not passed over. -/

/-- A program that ends with a call that is made to fail. -/
def Heeds (x : ExceptT Fault Run α) : Prop :=
  ∀ r, r.failsAfter ≠ none →
    Yields x r fun outcome r' => r'.failsAfter = none → outcome = .error injected

theorem heeds_ask (c : FileCall α) : Heeds (ask c : ExceptT Fault Run α) :=
  fun _ h hspent => onDisk_spent c h hspent

/-- What asks nothing of the disk. -/
theorem heeds_of_still {x : ExceptT Fault Run α} (h : ∀ r, (x.run r).2 = r) : Heeds x := by
  intro r hr
  unfold Yields
  rw [h r]
  exact fun hnone => absurd hnone hr

theorem heeds_bind {x : ExceptT Fault Run α} {f : α → ExceptT Fault Run β} (hx : Heeds x)
    (hf : ∀ a, Heeds (f a)) : Heeds (x >>= f) := by
  intro r hr
  refine yields_bind ?_
  refine yields_imp (hx r hr) ?_
  intro outcome r' hspent
  cases outcome with
  | ok a =>
    refine hf a r' fun hnone => ?_
    have := hspent hnone
    cases this
  | error e =>
    intro hnone
    have := hspent hnone
    cases this
    rfl

end ControlSurface.Rehearsal

namespace ControlSurface.Disk

/-! ## §4. Faults of the file system. -/

theorem fault_enter {d : Disk} {p : Place} {name : String} {e : Fault}
    (h : d.enter p name = .error e) : e.isFileFault = true := by
  unfold enter at h
  split at h
  next =>
    cases h
    rfl
  next =>
    cases h
    rfl
  next =>
    split at h
    next => cases h
    next =>
      split at h
      next =>
        cases h
        rfl
      next => cases h

theorem fault_foldlM_enter {d : Disk} {p : Place} {names : List String} {e : Fault}
    (h : names.foldlM d.enter p = .error e) : e.isFileFault = true := by
  induction names generalizing p with
  | nil => cases h
  | cons name names ih =>
    rw [List.foldlM_cons] at h
    cases hname : d.enter p name with
    | error e' =>
      rw [hname] at h
      cases h
      exact fault_enter hname
    | ok q =>
      rw [hname] at h
      exact ih h

theorem fault_place {d : Disk} {p : Path} (hp : hasNul p = false) {e : Fault}
    (h : d.place p = .error e) : e.isFileFault = true := by
  rw [place, hp, if_neg Bool.false_ne_true] at h
  exact fault_foldlM_enter h

theorem fault_makeBelow {d : Disk} {p : Place} {names : List String} {e : Fault}
    (h : (d.makeBelow p names).1 = .error e) : e.isFileFault = true := by
  induction names generalizing d p with
  | nil => cases h
  | cons name names ih =>
    rw [makeBelow] at h
    cases hname : d.enter p name with
    | error e' =>
      rw [hname] at h
      cases h
      exact fault_enter hname
    | ok q =>
      rw [hname] at h
      dsimp only at h
      split at h
      next => exact ih h
      next =>
        cases h
        split
        · rfl
        · rfl
      next => exact ih h

theorem fault_write {d : Disk} {p : Path} (hp : hasNul p = false) {c : Content} {e : Fault}
    (h : d.write p c = .error e) : e.isFileFault = true := by
  unfold write at h
  cases hplace : d.place p with
  | error e' =>
    rw [hplace] at h
    cases h
    exact fault_place hp hplace
  | ok q =>
    rw [hplace] at h
    simp only [bind, Except.bind] at h
    split at h
    next =>
      cases h
      rfl
    next => cases h

theorem fault_move {d : Disk} {source target : Path} (hs : hasNul source = false)
    (ht : hasNul target = false) {e : Fault} (h : d.move source target = .error e) :
    e.isFileFault = true := by
  unfold move at h
  cases hsource : d.place source with
  | error e' =>
    rw [hsource] at h
    cases h
    exact fault_place hs hsource
  | ok s =>
    cases htarget : d.place target with
    | error e' =>
      rw [hsource, htarget] at h
      cases h
      exact fault_place ht htarget
    | ok t =>
      rw [hsource, htarget] at h
      simp only [bind, Except.bind] at h
      repeat' split at h
      all_goals cases h
      all_goals rfl

end ControlSurface.Disk

namespace ControlSurface.Rehearsal

open Disk FileSystem

/-- A call that fails with a fault of the file system, if it fails. -/
def FailsOnDisk {α : Type} (c : FileCall α) : Prop :=
  ∀ r e, (onDisk c r).1 = .error e → e.isFileFault = true

section Faults

variable {α : Type} {p source target : Path}

theorem failsOnDisk_of_run {c : FileCall α}
    (h : ∀ (d : Disk) e, (d.run c).1 = .error e → e.isFileFault = true) : FailsOnDisk c := by
  intro r e herror
  rcases onDisk_cases c r with ⟨hanswer, _⟩ | ⟨hanswer, _⟩
  · rw [hanswer] at herror
    exact h r.disk e herror
  · rw [hanswer] at herror
    cases herror
    rfl

theorem error_of_settle {d : Disk} {x : Except Fault Disk} {e : Fault}
    (h : (d.settle x).1 = .error e) : x = .error e := by
  cases x with
  | ok d' => cases h
  | error e' =>
    cases h
    rfl

theorem failsOnDisk_look (p : Path) : FailsOnDisk (.look p) :=
  failsOnDisk_of_run fun _ _ h => nomatch h

theorem failsOnDisk_makeDirectories (hp : hasNul p = false) :
    FailsOnDisk (.makeDirectories p) := by
  apply failsOnDisk_of_run
  intro d e h
  have h : (d.makeDirectories p).1 = .error e := h
  rw [makeDirectories, hp, if_neg Bool.false_ne_true] at h
  exact fault_makeBelow h

theorem failsOnDisk_write (hp : hasNul p = false) (c : Content) : FailsOnDisk (.write p c) :=
  failsOnDisk_of_run fun _ _ h => fault_write hp (error_of_settle h)

theorem failsOnDisk_move (hs : hasNul source = false) (ht : hasNul target = false) :
    FailsOnDisk (.move source target) :=
  failsOnDisk_of_run fun _ _ h => fault_move hs ht (error_of_settle h)

end Faults

open Outcome

/-! ## §5. Programs step by step. -/

section Programs

variable {α β : Type} {x : ExceptT Fault Run α} {f : α → ExceptT Fault Run β} {r r' : Rehearsal}

/-- A program ends with a result. -/
def Ends (x : ExceptT Fault Run α) (r : Rehearsal) : Prop := ∃ a, (x.run r).1 = .ok a

theorem run_bind_ok {a : α} (h : x.run r = (.ok a, r')) : (x >>= f).run r = (f a).run r' := by
  rw [run_bind, h]

theorem run_bind_error {e : Fault} (h : x.run r = (.error e, r')) :
    (x >>= f).run r = (.error e, r') := by
  rw [run_bind, h]

theorem ends_bind_iff :
    Ends (x >>= f) r ↔ ∃ a r', x.run r = (.ok a, r') ∧ Ends (f a) r' := by
  unfold Ends
  rw [run_bind]
  obtain ⟨outcome, r', hrun⟩ : ∃ outcome r', x.run r = (outcome, r') := ⟨_, _, rfl⟩
  rw [hrun]
  cases outcome with
  | ok a =>
    constructor
    · intro h
      exact ⟨a, r', rfl, h⟩
    · rintro ⟨_, _, hsame, h⟩
      cases hsame
      exact h
  | error e =>
    refine iff_of_false (fun ⟨_, h⟩ => nomatch h) ?_
    rintro ⟨_, _, hsame, _⟩
    cases hsame

/-- A program fails in its first part or in the rest. -/
theorem failsWith_run_bind {P : Fault → Prop} (hx : FailsWith P (x.run r).1)
    (hf : ∀ a r', FailsWith P ((f a).run r').1) : FailsWith P ((x >>= f).run r).1 := by
  rw [run_bind]
  obtain ⟨outcome, r', hrun⟩ : ∃ outcome r', x.run r = (outcome, r') := ⟨_, _, rfl⟩
  rw [hrun] at hx ⊢
  cases outcome with
  | ok a => exact hf a r'
  | error e => exact failsWith_error (hx e rfl)

/-- What holds of every result of the rest of a program holds of its result. -/
theorem ensures_run_bind {P : β → Prop} (hf : ∀ a r', Ensures P ((f a).run r').1) :
    Ensures P ((x >>= f).run r).1 := by
  rw [run_bind]
  obtain ⟨outcome, r', hrun⟩ : ∃ outcome r', x.run r = (outcome, r') := ⟨_, _, rfl⟩
  rw [hrun]
  cases outcome with
  | ok a => exact hf a r'
  | error e => exact fun _ h => nomatch h

theorem run_lift (x : Run α) (r : Rehearsal) :
    (ExceptT.lift x : ExceptT Fault Run α).run r = (.ok (x r).1, (x r).2) := rfl

theorem run_tryCatch (x : ExceptT Fault Run α) (handle : Fault → ExceptT Fault Run α)
    (r : Rehearsal) : (tryCatch x handle).run r = match x.run r with
      | (.ok a, r') => (.ok a, r')
      | (.error e, r') => (handle e).run r' := by
  simp only [tryCatch, tryCatchThe, MonadExceptOf.tryCatch]
  obtain ⟨outcome, r', hx⟩ : ∃ outcome r', x.run r = (outcome, r') := ⟨_, _, rfl⟩
  rw [hx]
  unfold ExceptT.tryCatch
  simp only [ExceptT.run, ExceptT.mk, bind, StateT.bind] at hx ⊢
  rw [hx]
  cases outcome with
  | ok a => rfl
  | error e => rfl

/-! ## §6. Calm machines. -/

/-- A program that never makes a call on the disk fail by itself. -/
def StaysCalm (x : ExceptT Fault Run α) : Prop :=
  ∀ r, r.failsAfter = none → (x.run r).2.failsAfter = none

theorem staysCalm_ask (c : FileCall α) : StaysCalm (ask c : ExceptT Fault Run α) :=
  fun _ h => (onDisk_of_none c h).2.2

theorem staysCalm_of_still (h : ∀ r, (x.run r).2 = r) : StaysCalm x := by
  intro r hr
  rw [h r]
  exact hr

theorem staysCalm_bind (hx : StaysCalm x) (hf : ∀ a, StaysCalm (f a)) : StaysCalm (x >>= f) := by
  intro r hr
  have hafter := hx r hr
  rw [run_bind]
  obtain ⟨outcome, r', hrun⟩ : ∃ outcome r', x.run r = (outcome, r') := ⟨_, _, rfl⟩
  rw [hrun] at hafter ⊢
  cases outcome with
  | ok a => exact hf a r' hafter
  | error e => exact hafter

theorem staysCalm_tryCatch {handle : Fault → ExceptT Fault Run α} (hx : StaysCalm x)
    (hhandle : ∀ e, StaysCalm (handle e)) : StaysCalm (tryCatch x handle) := by
  intro r hr
  have hafter := hx r hr
  rw [run_tryCatch]
  obtain ⟨outcome, r', hrun⟩ : ∃ outcome r', x.run r = (outcome, r') := ⟨_, _, rfl⟩
  rw [hrun] at hafter ⊢
  cases outcome with
  | ok a => exact hafter
  | error e => exact hhandle e r' hafter

end Programs

/-! ## §7. Calls that fail. -/

theorem foreign_place (d : Disk) (p : Path) : FailsWith Foreign (d.place p) := by
  intro e he
  cases hnul : Disk.hasNul p with
  | true =>
    rw [Disk.place, hnul, if_pos rfl] at he
    cases he
    rfl
  | false => exact foreign_of_isFileFault (Disk.fault_place hnul he)

/-- A call that is made to fail has no fault of the program's own. -/
theorem foreign_onDisk {α : Type} {c : FileCall α} (h : ∀ d : Disk, FailsWith Foreign (d.run c).1)
    (r : Rehearsal) : FailsWith Foreign (onDisk c r).1 := by
  rcases onDisk_cases c r with ⟨hanswer, _⟩ | ⟨hanswer, _⟩
  · rw [hanswer]
    exact h r.disk
  · rw [hanswer]
    exact failsWith_error rfl

theorem foreign_settle {d : Disk} {x : Except Fault Disk} (h : FailsWith Foreign x) :
    FailsWith Foreign (d.settle x).1 := fun e he => h e (error_of_settle he)

end ControlSurface.Rehearsal
