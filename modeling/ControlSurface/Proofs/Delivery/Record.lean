/-
  ControlSurface.Proofs.Delivery.Record
  ─────────────────────────────────────
  The record of a delivery, and what makes it exact.  A file of a bundle owns three places: its final
  one, the one where it waits on the stage, and the one where an old item is kept for it
  (`Owns`).  As the paths of a bundle lead to different places, none above another, nothing that
  happens at the places of one file touches those of another.

  Main results:
    * `Undoable` — what holds at every instant of a delivery: outside the stage and the final places
      on record all files are as before, and for each file on record either nothing was at its
      final place, or what was there is kept on the stage.
    * `Undoable.putAside`, `Undoable.moveIn` — the two moves of a file keep it.
    * `Undoable.takenOut`, `Undoable.putBack`, `Undoable.forget` — undoing the last file on record
      keeps it for the others.
-/
import ControlSurface.Delivery.Folder
import ControlSurface.Proofs.Machine.Carrying

namespace ControlSurface.Delivery

open Disk

/-! ## §1. Where a bundle goes. -/

/-- The name of the directory where old items are kept. -/
def backupName : String := ".backup"

/-- Where a bundle goes: below a directory with a stage in it, under names that do not get into
each other's way. -/
structure Site (b : Disk) (root : Path) (R : Place) (s : String) (names : List (List String)) :
    Prop where
  /-- The name of the stage is plain. -/
  stage : IsPlain s
  nonempty : ∀ x ∈ names, x ≠ []
  plain : ∀ x ∈ names, ∀ n ∈ x, IsPlain n
  /-- No path begins with the name of the stage, or with that of the kept items. -/
  visible : ∀ x ∈ names, x.head? ≠ some s ∧ x.head? ≠ some backupName
  /-- No path leads through a file. -/
  apart : ∀ x ∈ names, ∀ y ∈ names, x <+: y → x = y
  /-- The way to the directory does not lead through the stage or a file. -/
  clear : ∀ w ∈ b.wayOf root, ¬ R ++ [s] <+: w ∧ ∀ x ∈ names, ¬ R ++ x <+: w

/-- The places that belong to a file: where it goes, where it waits, and where what it replaces is
kept. -/
inductive Owns (R : Place) (s : String) (x : List String) : Place → Prop where
  | final : Owns R s x (R ++ x)
  | waiting : Owns R s x (R ++ s :: x)
  | keeping : Owns R s x (R ++ s :: backupName :: x)

section Site

variable {b : Disk} {root : Path} {R p q : Place} {s : String} {names : List (List String)}
  {x y z : List String}

namespace Site

theorem not_above_on_stage (site : Site b root R s names) (hx : x ∈ names) :
    ¬ x <+: s :: z := by
  intro h
  cases x with
  | nil => exact site.nonempty [] hx rfl
  | cons a x =>
    have ha := (List.cons_prefix_cons.mp h).1
    exact (site.visible _ hx).1 (by rw [ha]; rfl)

theorem not_above_backup (site : Site b root R s names) (hx : x ∈ names) :
    ¬ x <+: backupName :: z := by
  intro h
  cases x with
  | nil => exact site.nonempty [] hx rfl
  | cons a x =>
    have ha := (List.cons_prefix_cons.mp h).1
    exact (site.visible _ hx).2 (by rw [ha]; rfl)

theorem stage_not_above (site : Site b root R s names) (hx : x ∈ names) :
    ¬ s :: z <+: x ++ y := by
  intro h
  cases x with
  | nil => exact site.nonempty [] hx rfl
  | cons a x =>
    have ha := (List.cons_prefix_cons.mp h).1
    exact (site.visible _ hx).1 (by rw [ha]; rfl)

theorem backup_not_above (site : Site b root R s names) (hx : x ∈ names) :
    ¬ backupName :: z <+: x := by
  intro h
  cases x with
  | nil => exact site.nonempty [] hx rfl
  | cons a x =>
    have ha := (List.cons_prefix_cons.mp h).1
    exact (site.visible _ hx).2 (by rw [ha]; rfl)

/-- A final place does not lie where its old item is kept. -/
theorem kept_not_above (site : Site b root R s names) (hx : x ∈ names) :
    ¬ R ++ s :: backupName :: x <+: R ++ x := by
  rw [List.prefix_append_right_inj]
  intro h
  refine site.stage_not_above hx (z := backupName :: x) (y := []) ?_
  rwa [List.append_nil]

theorem eq_of_prefix_append (site : Site b root R s names) (hx : x ∈ names) (hy : y ∈ names)
    (h : x <+: y ++ z) : x = y := by
  rcases List.prefix_or_prefix_of_prefix h (List.prefix_append y z) with hxy | hyx
  · exact site.apart x hx y hy hxy
  · exact (site.apart y hy x hx hyx).symm

/-- A final place does not lie on the stage. -/
theorem final_not_on_stage (site : Site b root R s names) (hx : x ∈ names) :
    ¬ R ++ [s] <+: R ++ (x ++ z) := by
  rw [List.prefix_append_right_inj]
  exact site.stage_not_above hx

/-- Neither a final place nor one where old items are kept is above one where a file waits. -/
theorem waiting_apart (site : Site b root R s names) (hx : x ∈ names) (hy : y ∈ names) :
    ¬ R ++ x <+: R ++ s :: y ∧ ¬ R ++ s :: backupName :: z <+: R ++ s :: y := by
  refine ⟨fun hp => ?_, fun hp => ?_⟩
  · exact site.not_above_on_stage hx ((List.prefix_append_right_inj R).mp hp)
  · have hp := (List.cons_prefix_cons.mp ((List.prefix_append_right_inj R).mp hp)).2
    exact site.backup_not_above hy hp

end Site

namespace Owns

/-- What lies neither on the stage nor at the final place of a file is below no place of it. -/
theorem outside (h : Owns R s x p) (hstage : ¬ R ++ [s] <+: q) (hfinal : ¬ R ++ x <+: q) :
    ¬ p <+: q := by
  intro hp
  have hcons : ∀ z : List String, R ++ [s] <+: R ++ s :: z := fun z => ⟨z, by simp⟩
  cases h with
  | final => exact hfinal hp
  | waiting => exact hstage ((hcons x).trans hp)
  | keeping => exact hstage ((hcons _).trans hp)

theorem not_above_final (h : Owns R s x p) (site : Site b root R s names) (hx : x ∈ names)
    (hy : y ∈ names) (hne : y ≠ x) : ¬ p <+: R ++ (y ++ z) := by
  refine h.outside (site.final_not_on_stage hy) ?_
  rw [List.prefix_append_right_inj]
  exact fun hxy => hne (site.eq_of_prefix_append hx hy hxy).symm

/-- No place of a file is above the directory of another one. -/
theorem not_above_door (h : Owns R s x p) (site : Site b root R s names) (hx : x ∈ names)
    (hy : y ∈ names) : ¬ p <+: R ++ y.dropLast := by
  intro hp
  by_cases hne : y = x
  · subst hne
    refine h.outside ?_ ?_ hp
    · intro hs
      have hle : R ++ [s] <+: R ++ (y ++ []) := by
        rw [List.append_nil]
        exact hs.trans ((List.prefix_append_right_inj R).mpr (List.dropLast_prefix y))
      exact site.final_not_on_stage hy hle
    · intro hy'
      have hle := ((List.prefix_append_right_inj R).mp hy').length_le
      have hpos := List.length_pos_iff.mpr (site.nonempty y hy)
      rw [List.length_dropLast] at hle
      omega
  · refine h.not_above_final site hx hy hne (z := []) ?_
    rw [List.append_nil]
    exact hp.trans ((List.prefix_append_right_inj R).mpr (List.dropLast_prefix y))

theorem not_above_kept (h : Owns R s x p) (site : Site b root R s names) (hx : x ∈ names)
    (hy : y ∈ names) (hne : y ≠ x) : ¬ p <+: R ++ s :: backupName :: (y ++ z) := by
  intro hp
  cases h with
  | final =>
    exact site.not_above_on_stage hx ((List.prefix_append_right_inj R).mp hp)
  | waiting =>
    have hp := (List.cons_prefix_cons.mp ((List.prefix_append_right_inj R).mp hp)).2
    exact site.not_above_backup hx hp
  | keeping =>
    have hp := (List.cons_prefix_cons.mp ((List.prefix_append_right_inj R).mp hp)).2
    have hp := (List.cons_prefix_cons.mp hp).2
    exact hne (site.eq_of_prefix_append hx hy hp).symm

theorem not_above_stage (h : Owns R s x p) (site : Site b root R s names) (hx : x ∈ names) :
    ¬ p <+: R ++ [s] := by
  intro hp
  have hlong := List.length_pos_iff.mpr (site.nonempty x hx)
  cases h with
  | final =>
    exact site.not_above_on_stage hx ((List.prefix_append_right_inj R).mp hp)
  | waiting =>
    have hle := ((List.prefix_append_right_inj R).mp hp).length_le
    simp only [List.length_cons, List.length_nil] at hle
    omega
  | keeping =>
    have hle := ((List.prefix_append_right_inj R).mp hp).length_le
    simp only [List.length_cons, List.length_nil] at hle
    omega

theorem not_above_way (h : Owns R s x p) (site : Site b root R s names) (hx : x ∈ names)
    (hq : q ∈ b.wayOf root) : ¬ p <+: q := by
  obtain ⟨hstage, hfinal⟩ := site.clear q hq
  exact h.outside hstage (hfinal x hx)

end Owns

end Site

/-! ## §2. The record. -/

/-- A file on record: its names, and whether something was put aside for it. -/
structure Move where
  names : List String
  aside : Bool

/-- The entry of a file on record. -/
def Move.entry (root : Path) (s : String) (m : Move) : Path × Option Path :=
  (below root m.names, if m.aside then some (below root (s :: backupName :: m.names)) else none)

/-- The record of files that were moved one after the other. -/
def record (root : Path) (s : String) (moves : List Move) : Moves := moves.map (Move.entry root s)

/-- What stays in place during a delivery: the directory of the bundle, and the stage. -/
structure Steady (b d : Disk) (root : Path) (R : Place) (s : String) : Prop where
  here : d.here = b.here
  tree : d.IsTree
  leads : Leads d root R
  stage : d.at? (R ++ [s]) = some .directory

/-- A file on record can be undone: nothing but a file stands at its final place, and what stood
there before is nothing or is kept. -/
structure Restorable (b d : Disk) (R : Place) (s : String) (m : Move) : Prop where
  free : d.at? (R ++ m.names) ≠ some .directory
  door : d.at? (R ++ m.names.dropLast) = some .directory
  fresh : m.aside = false → ∀ z, b.content? (R ++ (m.names ++ z)) = none
  kept : m.aside = true → (d.at? (R ++ s :: backupName :: m.names)).isSome
  same : m.aside = true → ∀ z, d.content? (R ++ s :: backupName :: (m.names ++ z))
    = b.content? (R ++ (m.names ++ z))

/-- All files are as before but on the stage and at the final places on record. -/
def SameElsewhere (b d : Disk) (R : Place) (s : String) (moves : List Move) : Prop :=
  ∀ q, ¬ R ++ [s] <+: q → (∀ m ∈ moves, ¬ R ++ m.names <+: q) → d.content? q = b.content? q

/-- **A delivery that can be undone**: its record says how. -/
structure Undoable (b d : Disk) (root : Path) (R : Place) (s : String) (moves : List Move) :
    Prop where
  steady : Steady b d root R s
  each : ∀ m ∈ moves, Restorable b d R s m
  elsewhere : SameElsewhere b d R s moves

/-- The last file on record can be undone. -/
theorem Undoable.last {b d : Disk} {root : Path} {R : Place} {s : String} {moves : List Move}
    {m : Move} (h : Undoable b d root R s (moves ++ [m])) : Restorable b d R s m :=
  h.each m (List.mem_append_right _ (List.mem_singleton.mpr rfl))

/-- The files that are not on record wait on the stage. -/
def Waiting (d : Disk) (R : Place) (s : String) (names : List (List String)) (moves : List Move) :
    Prop :=
  ∀ x ∈ names, x ∉ moves.map Move.names → d.HasFile (R ++ s :: x)

section Steps

variable {b d d' : Disk} {root : Path} {R source target : Place} {s : String}
  {names : List (List String)} {x : List String} {moves : List Move}

/-! ## §3. Making directories. -/

theorem Steady.built (h : Steady b d root R s) {ps : List Place} (hb : Built d d' ps) :
    Steady b d' root R s :=
  ⟨hb.here.trans h.here, hb.tree, hb.leads h.leads, hb.kept h.stage⟩

/-- Directories that are made elsewhere change nothing about a file on record. -/
theorem Restorable.built {m : Move} (h : Restorable b d R s m) {ps : List Place}
    (hb : Built d d' ps) (hm : R ++ m.names ∉ ps) : Restorable b d' R s m := by
  refine ⟨?_, hb.kept h.door, h.fresh, fun ha => ?_, fun ha z => ?_⟩
  · rw [hb.unchanged fun hmem => absurd hmem hm]
    exact h.free
  · obtain ⟨i, hi⟩ := Option.isSome_iff_exists.mp (h.kept ha)
    rw [hb.kept hi]
    rfl
  · rw [hb.content?, h.same ha]

/-- **Making directories** keeps a delivery undoable, unless one comes to a final place on
record. -/
theorem Undoable.built (h : Undoable b d root R s moves) {ps : List Place} (hb : Built d d' ps)
    (hps : ∀ m ∈ moves, R ++ m.names ∉ ps) : Undoable b d' root R s moves := by
  refine ⟨h.steady.built hb, fun m hm => (h.each m hm).built hb (hps m hm), fun q hq hfinal => ?_⟩
  rw [hb.content?, h.elsewhere q hq hfinal]

theorem Waiting.built (h : Waiting d R s names moves) {ps : List Place} (hb : Built d d' ps) :
    Waiting d' R s names moves := by
  intro x hx hnew
  obtain ⟨c, hc⟩ := h x hx hnew
  exact ⟨c, hb.kept hc⟩

/-! ## §4. Moving between the places of one file. -/

/-- What stays in place is not touched by a move between the places of a file. -/
theorem Steady.carried (h : Steady b d root R s) (site : Site b root R s names) (hx : x ∈ names)
    (hsource : Owns R s x source) (htarget : Owns R s x target)
    (hc : Carried d d' source target) : Steady b d' root R s := by
  have hway : d.wayOf root = b.wayOf root := by
    rw [wayOf, wayOf, start, start, h.here]
  refine ⟨hc.here.trans h.here, hc.tree, hc.leads h.leads ?_ ?_, ?_⟩
  · intro w hw
    exact hsource.not_above_way site hx (hway ▸ hw)
  · intro w hw
    exact htarget.not_above_way site hx (hway ▸ hw)
  · rw [hc.elsewhere _ (hsource.not_above_stage site hx) (htarget.not_above_stage site hx)]
    exact h.stage

/-- A file on record is not touched by a move between the places of another one. -/
theorem Restorable.carried {m : Move} (h : Restorable b d R s m) (site : Site b root R s names)
    (hx : x ∈ names) (hm : m.names ∈ names) (hne : m.names ≠ x) (hsource : Owns R s x source)
    (htarget : Owns R s x target) (hc : Carried d d' source target) : Restorable b d' R s m := by
  have hkept : ∀ z, d'.at? (R ++ s :: backupName :: (m.names ++ z))
      = d.at? (R ++ s :: backupName :: (m.names ++ z)) := fun z =>
    hc.elsewhere _ (hsource.not_above_kept site hx hm hne) (htarget.not_above_kept site hx hm hne)
  refine ⟨?_, ?_, h.fresh, fun ha => ?_, fun ha z => ?_⟩
  · have hsame := hc.elsewhere (R ++ (m.names ++ [])) (hsource.not_above_final site hx hm hne)
      (htarget.not_above_final site hx hm hne)
    rw [List.append_nil] at hsame
    rw [hsame]
    exact h.free
  · rw [hc.elsewhere _ (hsource.not_above_door site hx hm) (htarget.not_above_door site hx hm)]
    exact h.door
  · have hsame := hkept []
    rw [List.append_nil] at hsame
    rw [hsame]
    exact h.kept ha
  · rw [content?_congr (hkept z), h.same ha]

/-- What lies neither on the stage nor at a final place is not touched. -/
theorem SameElsewhere.carried (h : SameElsewhere b d R s moves) (hsource : Owns R s x source)
    (htarget : Owns R s x target) (hc : Carried d d' source target) {q : Place}
    (hstage : ¬ R ++ [s] <+: q) (hfinal : ¬ R ++ x <+: q)
    (hmoves : ∀ m ∈ moves, ¬ R ++ m.names <+: q) : d'.content? q = b.content? q := by
  rw [hc.content?_elsewhere (hsource.outside hstage hfinal) (htarget.outside hstage hfinal)]
  exact h q hstage hmoves

/-- At the final place of a file that is not on record all is as before. -/
theorem SameElsewhere.final (h : SameElsewhere b d R s moves) (site : Site b root R s names)
    (hx : x ∈ names) (hmoves : ∀ m ∈ moves, m.names ∈ names ∧ m.names ≠ x) (z : List String) :
    d.content? (R ++ (x ++ z)) = b.content? (R ++ (x ++ z)) := by
  refine h _ (site.final_not_on_stage hx) fun m hm hpre => ?_
  obtain ⟨hmem, hne⟩ := hmoves m hm
  exact hne (site.eq_of_prefix_append hmem hx ((List.prefix_append_right_inj R).mp hpre))

/-- What waits is not touched when something is put aside. -/
theorem Waiting.putAside (h : Waiting d R s names moves) (site : Site b root R s names)
    (hx : x ∈ names) (hc : Carried d d' (R ++ x) (R ++ s :: backupName :: x)) :
    Waiting d' R s names moves := by
  intro y hy hnew
  obtain ⟨c, hfile⟩ := h y hy hnew
  obtain ⟨hfinal, hkept⟩ := site.waiting_apart hx hy
  exact ⟨c, by rw [hc.elsewhere _ hfinal hkept, hfile]⟩

/-- A file that is moved in does not wait any more, all others do. -/
theorem Waiting.moveIn (h : Waiting d R s names moves) (site : Site b root R s names)
    (hx : x ∈ names) {aside : Bool} (hc : Carried d d' (R ++ s :: x) (R ++ x)) :
    Waiting d' R s names (moves ++ [⟨x, aside⟩]) := by
  intro y hy hnew
  rw [List.map_append, List.mem_append, not_or] at hnew
  obtain ⟨c, hfile⟩ := h y hy hnew.1
  have hne : y ≠ x := by simpa using hnew.2
  refine ⟨c, ?_⟩
  rw [hc.elsewhere _ ?_ (site.waiting_apart (z := []) hx hy).1, hfile]
  intro hp
  have hp := (List.cons_prefix_cons.mp ((List.prefix_append_right_inj R).mp hp)).2
  exact hne (site.apart x hx y hy hp).symm

/-! ## §5. A new file on record. -/

/-- One more file on record, which can be undone itself. -/
theorem Undoable.add (h : Undoable b d root R s moves) {aside : Bool}
    (hnew : Restorable b d R s ⟨x, aside⟩) : Undoable b d root R s (moves ++ [⟨x, aside⟩]) := by
  refine ⟨h.steady, fun m hm => ?_, fun q hstage hfinal => ?_⟩
  · rcases List.mem_append.mp hm with hm | hm
    · exact h.each m hm
    · rwa [List.mem_singleton.mp hm]
  · exact h.elsewhere q hstage fun m hm => hfinal m (List.mem_append_left _ hm)

/-- A file where nothing was. -/
theorem Undoable.addFresh (h : Undoable b d root R s moves) (site : Site b root R s names)
    (hx : x ∈ names) (hmoves : ∀ m ∈ moves, m.names ∈ names ∧ m.names ≠ x)
    (hnone : d.at? (R ++ x) = none) (hdoor : d.at? (R ++ x.dropLast) = some .directory) :
    Undoable b d root R s (moves ++ [⟨x, false⟩]) := by
  have hfresh : ∀ z, b.content? (R ++ (x ++ z)) = none := by
    intro z
    rw [← h.elsewhere.final site hx hmoves]
    refine content?_of_none (h.steady.tree.none_below hnone ?_)
    exact (List.prefix_append_right_inj R).mpr (List.prefix_append x z)
  exact h.add ⟨by simp [hnone], hdoor, fun _ => hfresh, (fun ha => nomatch ha),
    (fun ha => nomatch ha)⟩

/-- A file whose old item is kept can be undone. -/
theorem SameElsewhere.restorable (h : SameElsewhere b d R s moves) (site : Site b root R s names)
    (hx : x ∈ names) (hmoves : ∀ m ∈ moves, m.names ∈ names ∧ m.names ≠ x)
    (hsome : (d.at? (R ++ x)).isSome) (hdoor : d.at? (R ++ x.dropLast) = some .directory)
    (hc : Carried d d' (R ++ x) (R ++ s :: backupName :: x)) : Restorable b d' R s ⟨x, true⟩ := by
  have hkeep : ∀ z, d'.at? (R ++ s :: backupName :: (x ++ z)) = d.at? (R ++ (x ++ z)) := by
    intro z
    have htarget := hc.target z
    rwa [List.append_assoc, List.append_assoc] at htarget
  refine ⟨?_, ?_, fun ha => (nomatch ha), fun _ => ?_, fun _ z => ?_⟩
  · rw [hc.source _ (List.prefix_refl _) (site.kept_not_above hx)]
    exact fun hdir => nomatch hdir
  · rw [hc.elsewhere _ (Owns.final.not_above_door site hx hx)
      (Owns.keeping.not_above_door site hx hx)]
    exact hdoor
  · have hitem := hkeep []
    rw [List.append_nil] at hitem
    rwa [hitem]
  · rw [content?_congr (hkeep z)]
    exact h.final site hx hmoves z

/-- **Putting aside** what stands at a final place puts the file on record. -/
theorem Undoable.putAside (h : Undoable b d root R s moves) (site : Site b root R s names)
    (hx : x ∈ names) (hmoves : ∀ m ∈ moves, m.names ∈ names ∧ m.names ≠ x)
    (hsome : (d.at? (R ++ x)).isSome) (hdoor : d.at? (R ++ x.dropLast) = some .directory)
    (hc : Carried d d' (R ++ x) (R ++ s :: backupName :: x)) :
    Undoable b d' root R s (moves ++ [⟨x, true⟩]) := by
  have hsource : Owns R s x (R ++ x) := Owns.final
  have htarget : Owns R s x (R ++ s :: backupName :: x) := Owns.keeping
  refine ⟨h.steady.carried site hx hsource htarget hc, fun m hm => ?_, fun q hstage hfinal => ?_⟩
  · rcases List.mem_append.mp hm with hm | hm
    · obtain ⟨hmem, hne⟩ := hmoves m hm
      exact (h.each m hm).carried site hx hmem hne hsource htarget hc
    · rw [List.mem_singleton.mp hm]
      exact h.elsewhere.restorable site hx hmoves hsome hdoor hc
  · exact h.elsewhere.carried hsource htarget hc hstage
      (hfinal ⟨x, true⟩ (List.mem_append_right _ (List.mem_singleton.mpr rfl)))
      fun m hm => hfinal m (List.mem_append_left _ hm)

/-- A file on record that is moved in stays one that can be undone. -/
theorem Restorable.moveIn {aside : Bool} (h : Restorable b d R s ⟨x, aside⟩)
    (site : Site b root R s names) (hx : x ∈ names) (hfile : d.HasFile (R ++ s :: x))
    (hc : Carried d d' (R ++ s :: x) (R ++ x)) : Restorable b d' R s ⟨x, aside⟩ := by
  have hkept : ∀ z, d'.at? (R ++ s :: backupName :: (x ++ z))
      = d.at? (R ++ s :: backupName :: (x ++ z)) := by
    intro z
    refine hc.elsewhere _ (fun hpre => ?_) fun hpre => ?_
    · have hpre := (List.cons_prefix_cons.mp ((List.prefix_append_right_inj R).mp hpre)).2
      exact site.not_above_backup hx hpre
    · exact site.not_above_on_stage hx ((List.prefix_append_right_inj R).mp hpre)
  refine ⟨?_, ?_, h.fresh, fun ha => ?_, fun ha z => ?_⟩
  · obtain ⟨c, hfile⟩ := hfile
    have hthere := hc.target []
    rw [List.append_nil, List.append_nil, hfile] at hthere
    rw [hthere]
    exact fun hdir => nomatch hdir
  · rw [hc.elsewhere _ (Owns.waiting.not_above_door site hx hx)
      (Owns.final.not_above_door site hx hx)]
    exact h.door
  · have hsame := hkept []
    rw [List.append_nil] at hsame
    rw [hsame]
    exact h.kept ha
  · rw [content?_congr (hkept z)]
    exact h.same ha z

/-- **Moving a file in** from the stage keeps a delivery undoable that has it on record. -/
theorem Undoable.moveIn (h : Undoable b d root R s moves) (site : Site b root R s names)
    (hx : x ∈ names) (hmoves : ∀ m ∈ moves, m.names ∈ names) (hrec : x ∈ moves.map Move.names)
    (hfile : d.HasFile (R ++ s :: x)) (hc : Carried d d' (R ++ s :: x) (R ++ x)) :
    Undoable b d' root R s moves := by
  have hsource : Owns R s x (R ++ s :: x) := Owns.waiting
  have htarget : Owns R s x (R ++ x) := Owns.final
  refine ⟨h.steady.carried site hx hsource htarget hc, fun m hm => ?_, fun q hstage hfinal => ?_⟩
  · by_cases hne : m.names = x
    · subst hne
      exact (h.each m hm).moveIn site hx hfile hc
    · exact (h.each m hm).carried site hx (hmoves m hm) hne hsource htarget hc
  · obtain ⟨m, hm, rfl⟩ := List.mem_map.mp hrec
    exact h.elsewhere.carried hsource htarget hc hstage (hfinal m hm) hfinal

/-! ## §6. The last file on record. -/

/-- A file on record can be undone when a final place is empty again. -/
theorem Restorable.takenOut {m : Move} (h : Restorable b d R s m) (site : Site b root R s names)
    (hx : x ∈ names) (ht : TakenOut d d' (R ++ x)) : Restorable b d' R s m := by
  have hkept : ∀ z, d'.at? (R ++ s :: z) = d.at? (R ++ s :: z) := by
    intro z
    refine ht.elsewhere _ fun heq => ?_
    exact site.not_above_on_stage hx (z := z) (List.append_cancel_left heq ▸ List.prefix_refl _)
  refine ⟨?_, ht.directory h.door, h.fresh, fun ha => ?_, fun ha z => ?_⟩
  · by_cases heq : R ++ m.names = R ++ x
    · rw [heq, ht.gone]
      exact fun hdir => nomatch hdir
    · rw [ht.elsewhere _ heq]
      exact h.free
  · rw [hkept]
    exact h.kept ha
  · rw [content?_congr (hkept _)]
    exact h.same ha z

/-- **Taking out** the file at a final place on record. -/
theorem Undoable.takenOut (h : Undoable b d root R s moves) (site : Site b root R s names)
    (hx : x ∈ names) (hrec : x ∈ moves.map Move.names) (ht : TakenOut d d' (R ++ x)) :
    Undoable b d' root R s moves := by
  refine ⟨⟨ht.here.trans h.steady.here, ht.tree, ht.leads h.steady.leads,
    ht.directory h.steady.stage⟩, fun m hm => (h.each m hm).takenOut site hx ht,
    fun q hstage hfinal => ?_⟩
  obtain ⟨m, hm, rfl⟩ := List.mem_map.mp hrec
  rw [content?_congr (ht.elsewhere q fun heq => hfinal m hm (heq ▸ List.prefix_refl _)),
    h.elsewhere q hstage hfinal]

/-- A file is off the record when nothing is left of it and nothing was put aside for it. -/
theorem Undoable.forget (h : Undoable b d root R s (moves ++ [⟨x, false⟩]))
    (hnone : d.at? (R ++ x) = none) : Undoable b d root R s moves := by
  refine ⟨h.steady, fun m hm => h.each m (List.mem_append_left _ hm), fun q hstage hfinal => ?_⟩
  have hlast := h.last
  by_cases hq : R ++ x <+: q
  · obtain ⟨z, rfl⟩ := hq
    rw [content?_of_none (h.steady.tree.none_below hnone (List.prefix_append _ z)),
      List.append_assoc]
    exact (hlast.fresh rfl z).symm
  · refine h.elsewhere q hstage fun m hm => ?_
    rcases List.mem_append.mp hm with hm | hm
    · exact hfinal m hm
    · rwa [List.mem_singleton.mp hm]

/-- **Putting back** what was put aside takes a file off the record. -/
theorem Undoable.putBack (h : Undoable b d root R s (moves ++ [⟨x, true⟩]))
    (site : Site b root R s names) (hx : x ∈ names)
    (hmoves : ∀ m ∈ moves, m.names ∈ names ∧ m.names ≠ x)
    (hc : Carried d d' (R ++ s :: backupName :: x) (R ++ x)) : Undoable b d' root R s moves := by
  have hsource : Owns R s x (R ++ s :: backupName :: x) := Owns.keeping
  have htarget : Owns R s x (R ++ x) := Owns.final
  have hlast := h.last
  refine ⟨h.steady.carried site hx hsource htarget hc, fun m hm => ?_, fun q hstage hfinal => ?_⟩
  · obtain ⟨hmem, hne⟩ := hmoves m hm
    exact (h.each m (List.mem_append_left _ hm)).carried site hx hmem hne hsource htarget hc
  · by_cases hq : R ++ x <+: q
    · obtain ⟨z, rfl⟩ := hq
      have hsame := hlast.same rfl z
      rw [hc.content?_target z, List.append_assoc, List.append_assoc]
      exact hsame
    · refine h.elsewhere.carried hsource htarget hc hstage hq fun m hm => ?_
      rcases List.mem_append.mp hm with hm | hm
      · exact hfinal m hm
      · rwa [List.mem_singleton.mp hm]

end Steps

end ControlSurface.Delivery
