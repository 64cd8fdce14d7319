/-
  ControlSurface.Proofs.Delivery.Restoring
  ────────────────────────────────────────
  A delivery that fails leaves the disk as it was.  Undoing takes the last file off the record and
  puts back what stood in its place, and the record stays exact for the files before it; so when it is
  empty, all files outside of the stage are as they were.  The stage is a fresh directory, so staging
  touches nothing that was there, and the record is exact wherever staging or moving ends.

  Main results:
    * `undo_restores` — undoing all moves, by induction over the record.
    * `removeStage` — without the stage all files are as they were.
    * `prepareStage_yields` — the stage is fresh, and nothing else has changed but for missing
      directories.
    * `transfer_undoable` — wherever staging or moving ends, the record can be undone.
    * `writeFolder_restores` — if a call of staging or moving fails, the delivery fails, every file
      is as before, and the stage is gone.
-/
import ControlSurface.Proofs.Delivery.Moving
import ControlSurface.Proofs.Machine.Fresh

namespace ControlSurface.Delivery

open Disk FileSystem Rehearsal

/-! ## §1. Calls that are not made to fail. -/

section Undoing

variable {b : Disk} {root : Path} {R : Place} {s : String} {names : List (List String)}
  {moves : List Move} {r : Rehearsal}

theorem yields_calm {α : Type} {c : FileCall α} {post : Except Fault α → Rehearsal → Prop}
    (hr : r.failsAfter = none)
    (h : ∀ r', r'.failsAfter = none → r'.disk = (r.disk.run c).2 → post (r.disk.run c).1 r') :
    Yields (ask c) r post := by
  obtain ⟨hanswer, hdisk, hcalm⟩ := onDisk_of_none c hr
  refine yields_ask ?_
  rw [hanswer]
  exact h _ hcalm hdisk

theorem yields_present {p : Path} {post : Except Fault Bool → Rehearsal → Prop}
    (hr : r.failsAfter = none)
    (h : ∀ r', r'.failsAfter = none → r'.disk = r.disk → post (.ok (r.disk.look p).isSome) r') :
    Yields (present p) r post := by
  refine yields_bind (yields_calm hr fun r' hcalm hdisk => ?_)
  exact h r' hcalm hdisk

/-! ## §2. One file. -/

/-- What undoing a file leaves: a machine on which no call is made to fail, and the record of the
files before it. -/
def Undone (b : Disk) (root : Path) (R : Place) (s : String) (moves : List Move)
    (_ : Except Fault Unit) (r : Rehearsal) : Prop :=
  r.failsAfter = none ∧ Undoable b r.disk root R s moves

/-- The item that was put aside for a file, if there is one, goes back to its place. -/
def backInPlace (final : Path) : Option Path → ExceptT Fault Run Unit
  | none => pure ()
  | some backup => do if ← present backup then ask (.move backup final)

/-- The item that was put aside for a file is moved to its place, which is free. -/
theorem putBack_yields (site : Site b root R s names) {x : List String}
    (hrec : OnRecord names (moves ++ [⟨x, true⟩])) (hr : r.failsAfter = none)
    (h : Undoable b r.disk root R s (moves ++ [⟨x, true⟩])) (hnone : r.disk.at? (R ++ x) = none)
    (hdir : r.disk.at? (R ++ (s :: backupName :: x).dropLast) = some .directory) :
    Yields (ask (.move (below root (s :: backupName :: x)) (below root x))) r
      (Undone b root R s moves) := by
  obtain ⟨hx, hnew⟩ := hrec.last
  have hkept := h.last.kept rfl
  have hsource := h.steady.leads.place_below h.steady.tree (site.plain_kept hx) fun _ => hdir
  have htarget := h.steady.leads.place_below h.steady.tree (site.plain x hx) fun _ => h.last.door
  -- the final place is free, so the move goes well
  obtain ⟨d, hd⟩ := exists_move hsource htarget hkept hnone (site.kept_not_above hx)
  obtain ⟨hc, _⟩ := carried_below h.steady.leads h.steady.tree (down_of_plain (site.plain_kept hx))
    (down_of_plain (site.plain x hx)) (site.nonempty x hx) (kept_ne s x) hd
  have hrun : (r.disk.run (.move (below root (s :: backupName :: x)) (below root x))).2 = d := by
    show (r.disk.settle (r.disk.move _ _)).2 = d
    rw [hd]
    rfl
  refine yields_calm hr fun r' hr' hdisk => ⟨hr', ?_⟩
  rw [hdisk, hrun]
  exact h.putBack site hx (hrec.init.others hnew) hc

/-- **Putting back** what was put aside, when nothing is left at the final place. -/
theorem backInPlace_yields (site : Site b root R s names) {x : List String} {aside : Bool}
    (hrec : OnRecord names (moves ++ [⟨x, aside⟩])) (hr : r.failsAfter = none)
    (h : Undoable b r.disk root R s (moves ++ [⟨x, aside⟩]))
    (hnone : r.disk.at? (R ++ x) = none) :
    Yields (backInPlace (below root x) (Move.entry root s ⟨x, aside⟩).2) r
      (Undone b root R s moves) := by
  cases aside with
  | false => exact ⟨hr, h.forget hnone⟩
  | true =>
    have hkept := h.last.kept rfl
    have hdir : r.disk.at? (R ++ (s :: backupName :: x).dropLast) = some .directory := by
      have hup := h.steady.tree _ hkept
      rwa [List.dropLast_append_of_ne_nil (List.cons_ne_nil _ _)] at hup
    have hlook := h.steady.leads.look_below h.steady.tree (site.plain_kept hrec.last.1)
      fun _ => hdir
    have hfound : (r.disk.look (below root (s :: backupName :: x))).isSome = true := by
      rw [hlook, Option.isSome_map]
      exact hkept
    show Yields (present (below root (s :: backupName :: x)) >>= fun found =>
      if found = true then ask (.move (below root (s :: backupName :: x)) (below root x))
      else pure ()) r _
    refine yields_bind (yields_present hr fun r₁ hr₁ hdisk => ?_)
    rw [hfound]
    rw [← hdisk] at h hnone hdir
    exact putBack_yields site hrec hr₁ h hnone hdir

/-- **Undoing the last file on record** keeps the record exact for the others. -/
theorem undoMove_yields (site : Site b root R s names) {m : Move}
    (hrec : OnRecord names (moves ++ [m])) (hr : r.failsAfter = none)
    (h : Undoable b r.disk root R s (moves ++ [m])) :
    Yields (undoMove (Move.entry root s m)) r (Undone b root R s moves) := by
  obtain ⟨x, aside⟩ := m
  have hx : x ∈ names := hrec.last.1
  have hplain := site.plain x hx
  have hlook := h.steady.leads.look_below h.steady.tree hplain fun _ => h.last.door
  show Yields (present (below root x) >>= fun found =>
    if found = true then ask (.remove (below root x)) >>= fun _ =>
      backInPlace (below root x) (Move.entry root s ⟨x, aside⟩).2
    else backInPlace (below root x) (Move.entry root s ⟨x, aside⟩).2) r _
  refine yields_bind (yields_present hr fun r₁ hr₁ hdisk => ?_)
  rw [← hdisk] at h hlook
  rw [← hdisk, hlook, Option.isSome_map]
  cases hat : r₁.disk.at? (R ++ x) with
  | none => exact backInPlace_yields site hrec hr₁ h hat
  | some i =>
    cases i with
    | directory => exact absurd hat h.last.free
    | file c =>
      have hplace := h.steady.leads.place_below h.steady.tree hplain fun _ => h.last.door
      have hremove := remove_eq_ok_iff.mpr ⟨_, c, hplace, hat, rfl⟩
      have hrun : r₁.disk.run (.remove (below root x)) = (.ok (), r₁.disk.without (· == R ++ x)) := by
        show r₁.disk.settle (r₁.disk.remove (below root x)) = _
        rw [hremove]
        rfl
      show Yields (ask (.remove (below root x)) >>= fun _ =>
        backInPlace (below root x) (Move.entry root s ⟨x, aside⟩).2) r₁ _
      refine yields_bind (yields_calm hr₁ fun r₂ hr₂ hdisk₂ => ?_)
      rw [hrun] at hdisk₂ ⊢
      have ht : TakenOut r₁.disk r₂.disk (R ++ x) := by
        rw [hdisk₂]
        exact takenOut_without h.steady.tree (by simp [site.nonempty x hx]) ⟨c, hat⟩
      exact backInPlace_yields site hrec hr₂ (h.takenOut site hx (by simp) ht) ht.gone

/-! ## §3. All files. -/

/-- **Undoing a record** leaves a disk on which only the stage has changed. -/
theorem undo_restores (site : Site b root R s names) (moves : List Move) {r : Rehearsal}
    (hrec : OnRecord names moves) (hr : r.failsAfter = none)
    (h : Undoable b r.disk root R s moves) :
    ((undo (record root s moves) : Run Unit) r).2.failsAfter = none
      ∧ Undoable b ((undo (record root s moves) : Run Unit) r).2.disk root R s [] := by
  induction moves using List.reverseRecOn generalizing r with
  | nil => exact ⟨hr, h⟩
  | append_singleton moves m ih =>
    -- the last file on record is the first to be undone
    have hundo : (undo (record root s (moves ++ [m])) : Run Unit) r
        = (undo (record root s moves) : Run Unit)
          ((undoMove (Move.entry root s m) : ExceptT Fault Run Unit).run r).2 := by
      rw [undo, record, List.map_append, List.reverse_append]
      rfl
    obtain ⟨hr', h'⟩ := undoMove_yields site hrec hr h
    rw [hundo]
    exact ih hrec.init hr' h'

/-- The stage can be removed, with all that is on it and nothing else. -/
theorem at?_removeStage (hstage : IsPlain s) (hr : r.failsAfter = none)
    (h : Steady b r.disk root R s) (q : Place) :
    (onDisk (.removeTree (below root [s])) r).2.disk.at? q
      = if R ++ [s] <+: q then none else r.disk.at? q := by
  have hplace := h.leads.place_below h.tree (List.forall_mem_singleton.mpr hstage)
    fun _ => by simpa using h.leads.directory
  have hremove := removeTree_eq_ok_iff.mpr ⟨_, ⟨hplace, h.stage⟩, rfl⟩
  have hdisk : (onDisk (.removeTree (below root [s])) r).2.disk
      = r.disk.without (liesIn (R ++ [s])) := by
    rw [(onDisk_of_none _ hr).2.1]
    show (r.disk.settle (r.disk.removeTree (below root [s]))).2 = _
    rw [hremove]
    rfl
  have hroot : liesIn (R ++ [s]) [] = false := by
    rw [Bool.eq_false_iff, liesIn, Ne, List.isPrefixOf_iff_prefix, List.prefix_nil]
    simp
  rw [hdisk, r.disk.at?_without hroot]
  simp only [liesIn, List.isPrefixOf_iff_prefix]

/-- **Without the stage** all files are as they were, if none was on the stage. -/
theorem removeStage (hstage : IsPlain s) (hr : r.failsAfter = none)
    (h : Undoable b r.disk root R s []) (hnothing : ∀ q, R ++ [s] <+: q → b.content? q = none) :
    (∀ q, (onDisk (.removeTree (below root [s])) r).2.disk.content? q = b.content? q)
      ∧ ∀ q, R ++ [s] <+: q → (onDisk (.removeTree (below root [s])) r).2.disk.at? q = none := by
  have hat := at?_removeStage hstage hr h.steady
  refine ⟨fun q => ?_, fun q hq => (hat q).trans (if_pos hq)⟩
  by_cases hq : R ++ [s] <+: q
  · rw [content?_of_none ((hat q).trans (if_pos hq)), hnothing q hq]
  · rw [content?_congr ((hat q).trans (if_neg hq))]
    exact h.elsewhere q hq fun m hm => absurd hm List.not_mem_nil

end Undoing

/-! ## §4. The stage. -/

variable {b : Disk} {root stage : Path} {R : Place} {s : String}
  {files : Bundle.Files} {r r₁ r₂ : Rehearsal}

theorem run_orElseFault {α : Type} (cause : Fault) (act : ExceptT Fault Run α) (r : Rehearsal) :
    (orElseFault cause act).run r = match act.run r with
      | (.ok a, r') => (.ok a, r')
      | (.error e, r') => (.error (if e.isFileFault then cause else e), r') := by
  unfold orElseFault
  simp only [tryCatch, tryCatchThe, MonadExceptOf.tryCatch]
  obtain ⟨outcome, r', hact⟩ : ∃ outcome r', act.run r = (outcome, r') := ⟨_, _, rfl⟩
  rw [hact]
  unfold ExceptT.tryCatch
  simp only [ExceptT.run, ExceptT.mk, bind, StateT.bind] at hact ⊢
  rw [hact]
  cases outcome with
  | ok a => rfl
  | error e => rfl

theorem yields_orElseFault {α : Type} {cause : Fault} {act : ExceptT Fault Run α}
    {post : Except Fault α → Rehearsal → Prop}
    (h : Yields act r fun
      | .ok a, r' => post (.ok a) r'
      | .error _, r' => ∀ e, post (.error e) r') : Yields (orElseFault cause act) r post := by
  unfold Yields at h ⊢
  rw [run_orElseFault]
  obtain ⟨outcome, r', hact⟩ : ∃ outcome r', act.run r = (outcome, r') := ⟨_, _, rfl⟩
  rw [hact] at h ⊢
  cases outcome with
  | ok a => exact h
  | error e => exact h _

/-- A stage below a directory: a fresh directory, all else being as before but for directories
that were missing. -/
structure Prepared (d b : Disk) (root stage : Path) (R : Place) (s : String) : Prop where
  path : stage = below root [s]
  leads : Leads b root R
  plain : IsPlain s
  hidden : s.toList.head? = some '.'
  tree : b.IsTree
  here : b.here = d.here
  stage : b.at? (R ++ [s]) = some .directory
  /-- All files are as before, and there was none on the stage. -/
  same : ∀ q, b.content? q = d.content? q
  nothing : ∀ q, R ++ [s] <+: q → d.content? q = none
  /-- The way to the directory does not lead through the stage. -/
  clear : ∀ w ∈ b.wayOf root, ¬ R ++ [s] <+: w

theorem Prepared.leads_stage {d : Disk} (h : Prepared d b root stage R s) :
    Leads b stage (R ++ [s]) := by
  rw [h.path]
  refine ⟨h.leads.place_below h.tree (List.forall_mem_singleton.mpr h.plain) fun _ => ?_, h.stage⟩
  simpa using h.leads.directory

theorem prepareStage_yields (htree : r.disk.IsTree) (root : Path) :
    Yields (prepareStage root) r fun outcome r₁ =>
      ∀ stage, outcome = .ok stage → ∃ R s, Prepared r.disk r₁.disk root stage R s := by
  refine yields_orElseFault (yields_bind (yields_ask ?_))
  obtain ⟨hbuilt, -⟩ := makeDirectories_spec htree root
  generalize onDisk (.makeDirectories root) r = answered at hbuilt
  obtain ⟨answer, r'⟩ := answered
  cases answer with
  | error e => exact fun e stage hok => nomatch hok
  | ok _ =>
    refine yields_ask ?_
    have hcases := onDisk_cases (.makeFreshDirectory root stageStem) r'
    generalize onDisk (.makeFreshDirectory root stageStem) r' = answered at hcases
    obtain ⟨answer, r₁⟩ := answered
    cases answer with
    | error e => exact fun e stage hok => nomatch hok
    | ok stage =>
      rintro _ ⟨⟩
      rcases hcases with ⟨hanswer, hdisk⟩ | ⟨herror, _⟩
      · simp only at hanswer hdisk
        obtain ⟨R, s, hfresh⟩ := makeFreshDirectory_ok hbuilt.tree (by decide) hanswer.symm
        rw [← hdisk] at hfresh
        obtain ⟨rest, hnamed⟩ := hfresh.named
        refine ⟨R, s, hfresh.path, hfresh.built.leads hfresh.leads, hfresh.plain, ?_,
          hfresh.built.tree, hfresh.built.here.trans hbuilt.here, hfresh.directory,
          fun q => ?_, fun q hq => ?_, fun w hw hq => ?_⟩
        · rw [hnamed]
          rfl
        · rw [hfresh.built.content?, hbuilt.content?]
        · rw [← hbuilt.content?]
          exact content?_of_none (hbuilt.tree.none_below hfresh.nothing hq)
        · -- all directories on the way were there before the stage was
          have hway : r₁.disk.wayOf root = r'.disk.wayOf root := by
            rw [wayOf, wayOf, start, start, hfresh.built.here]
          have hdir := hfresh.leads.directories w (hway ▸ hw)
          rw [hbuilt.tree.none_below hfresh.nothing hq] at hdir
          cases hdir
      · cases herror

/-! ## §5. The files. -/

/-- Different names of a bundle lead to different places. -/
def PathsDiffer (files : Bundle.Files) : Prop := ((Keyed.keys files).map parts).Nodup

/-- No path of a bundle begins with a hidden name, as the stage has. -/
def NothingHidden (files : Bundle.Files) : Prop :=
  ∀ name ∈ Keyed.keys files, ∀ n, (parts name).head? = some n → n.toList.head? ≠ some '.'

/-- No directory on the way to a path stands where a file of a bundle goes, or below. -/
def StandsClear (d : Disk) (root : Path) (files : Bundle.Files) : Prop :=
  ∀ w ∈ d.wayOf root, ∀ name ∈ Keyed.keys files, ¬ d.reachOf root ++ parts name <+: w

/-- A path without two dots leads down only, and so through no file that goes below its end. -/
theorem standsClear_of_down {d : Disk} (hroot : ".." ∉ root.names)
    (hfiles : ∀ name ∈ Keyed.keys files, parts name ≠ []) : StandsClear d root files := by
  intro w hw name hname hpre
  have hup := (mem_way_down hroot hw).2
  rw [reachOf, reach_down hroot] at hpre
  have hle := (hpre.trans hup).length_le
  have hpos := List.length_pos_iff.mpr (hfiles name hname)
  rw [List.length_append] at hle
  omega

/-- A delivery that has moved nothing yet can be undone. -/
theorem OnStage.undoable (hleads : Leads b root R) (hclear : ∀ w ∈ b.wayOf root, ¬ R ++ [s] <+: w)
    {d : Disk} (h : OnStage b d stage (R ++ [s])) : Undoable b d root R s [] := by
  refine ⟨⟨h.here, h.tree, ?_, h.leads.directory⟩, fun m hm => absurd hm List.not_mem_nil, ?_⟩
  · refine hleads.keep h.here fun w hw => ?_
    rw [h.outside w (hclear w hw)]
    exact hleads.directories w hw
  · intro q hq _
    exact content?_congr (h.outside q hq)

/-- Files that are all staged go to places that are apart. -/
theorem site_of_staged {d d' : Disk} (h : Prepared d b root stage R s) (htree : d'.IsTree)
    (hstaged : ∀ name ∈ Keyed.keys files, Staged d' (R ++ [s]) name)
    (hhidden : NothingHidden files) (hclear : StandsClear b root files) :
    Site b root R s ((Keyed.keys files).map parts) := by
  have hfirst : ∀ name ∈ Keyed.keys files, ∀ hidden : String, hidden.toList.head? = some '.' →
      (parts name).head? ≠ some hidden := by
    intro name hname hidden hdot hhead
    exact hhidden name hname hidden hhead hdot
  refine ⟨h.plain, ?_, ?_, ?_, ?_, ?_⟩
  · intro x hx
    obtain ⟨name, hname, rfl⟩ := List.mem_map.mp hx
    exact (hstaged name hname).nonempty
  · intro x hx
    obtain ⟨name, hname, rfl⟩ := List.mem_map.mp hx
    exact (hstaged name hname).plain
  · intro x hx
    obtain ⟨name, hname, rfl⟩ := List.mem_map.mp hx
    exact ⟨hfirst name hname s h.hidden, hfirst name hname backupName rfl⟩
  · -- both are files, so neither is a directory above the other
    intro x hx y hy hpre
    obtain ⟨name, hname, rfl⟩ := List.mem_map.mp hx
    obtain ⟨other, hother, rfl⟩ := List.mem_map.mp hy
    by_contra hne
    obtain ⟨c, hfile⟩ := (hstaged name hname).file
    obtain ⟨c', hfile'⟩ := (hstaged other hother).file
    have habove := htree.above (by rw [hfile']; rfl)
      ((List.prefix_append_right_inj (R ++ [s])).mpr hpre)
      (fun heq => hne (List.append_cancel_left heq))
    rw [hfile] at habove
    cases habove
  · intro w hw
    refine ⟨h.clear w hw, fun x hx => ?_⟩
    obtain ⟨name, hname, rfl⟩ := List.mem_map.mp hx
    rw [h.leads.eq_reachOf]
    exact hclear w hw name hname

/-- **Staging, then moving.**  What holds when staging fails, nothing being moved, and wherever
moving ends after staging, holds of a delivery. -/
theorem of_transfer {P : Except Fault Unit → Moves → Rehearsal → Prop}
    {outcome : Except Fault Unit} {moves : Moves}
    (hrun : (transfer files root stage : Run _) r₁ = ((outcome, moves), r₂))
    (h : Yields (stageFiles stage files) r₁ fun
      | .ok _, r' => Leaves (moveFiles root stage (Keyed.keys files)) [] r' P
      | .error e, r' => P (.error e) [] r') : P outcome moves r₂ := by
  obtain ⟨staged, r', hstage⟩ :
      ∃ staged r', (stageFiles stage files : ExceptT Fault Run Unit).run r₁ = (staged, r') :=
    ⟨_, _, rfl⟩
  unfold transfer at hrun
  simp only [bind, StateT.bind] at hrun
  unfold Yields at h
  rw [hstage] at hrun h
  cases staged with
  | error e =>
    cases hrun
    exact h
  | ok _ =>
    have hmoving : Leaves (moveFiles root stage (Keyed.keys files)) [] r' P := h
    have hmoved : (moveFiles root stage (Keyed.keys files) : Moving Run Unit).run.run [] r'
        = ((outcome, moves), r₂) := hrun
    unfold Leaves at hmoving
    rwa [hmoved] at hmoving

/-- **Wherever staging or moving ends, the record can be undone.** -/
theorem transfer_undoable {d : Disk} (h : Prepared d r₁.disk root stage R s)
    (hpaths : PathsDiffer files) (hhidden : NothingHidden files)
    (hclear : StandsClear r₁.disk root files) {outcome : Except Fault Unit} {moves : Moves}
    (hrun : (transfer files root stage : Run _) r₁ = ((outcome, moves), r₂)) :
    ∃ names entries, Site r₁.disk root R s names ∧ OnRecord names entries
      ∧ moves = record root s entries ∧ Undoable r₁.disk r₂.disk root R s entries := by
  have hstart : OnStage r₁.disk r₁.disk stage (R ++ [s]) :=
    ⟨rfl, h.tree, h.leads_stage, fun _ _ => rfl⟩
  refine of_transfer (P := fun _ moves r₂ => ∃ names entries, Site r₁.disk root R s names
    ∧ OnRecord names entries ∧ moves = record root s entries
    ∧ Undoable r₁.disk r₂.disk root R s entries) hrun
    (yields_imp (stageFiles_yields files hstart) fun staged r' hstaging => ?_)
  have hundoable := hstaging.staging.1.undoable h.leads h.clear
  cases staged with
  | error e =>
    refine ⟨[], [], ⟨h.plain, by simp, by simp, by simp, by simp, ?_⟩, ⟨by simp, by simp⟩, rfl,
      hundoable⟩
    exact fun w hw => ⟨h.clear w hw, fun x hx => absurd hx List.not_mem_nil⟩
  | ok _ =>
    have hstaged := hstaging.all rfl
    have site := site_of_staged h hstaging.staging.1.tree hstaged hhidden hclear
    have hwait : Waiting r'.disk R s ((Keyed.keys files).map parts) [] := by
      intro x hx _
      obtain ⟨name, hname, rfl⟩ := List.mem_map.mp hx
      obtain ⟨c, hfile⟩ := (hstaged name hname).file
      exact ⟨c, by rwa [List.append_assoc] at hfile⟩
    have hrec : OnRecord ((Keyed.keys files).map parts) [] := ⟨by simp, by simp⟩
    rw [h.path]
    refine leaves_imp (moveFiles_leaves site (Keyed.keys files)
      (fun name hname => (hstaged name hname).safe) (by simp) hpaths hrec hundoable hwait) ?_
    rintro outcome moves r₂ ⟨entries, hentries, hrec, hund⟩
    exact ⟨_, entries, site, hrec, hentries, hund⟩

/-! ## §6. A delivery that fails. -/

/-- A call of staging or moving failed: one was made to, or the disk did not allow it. -/
def CallFailed (r₁ : Rehearsal) (outcome : Except Fault Unit) (r₂ : Rehearsal) : Prop :=
  (r₁.failsAfter ≠ none ∧ r₂.failsAfter = none)
    ∨ ∃ e, outcome = .error e ∧ e.isFileFault = true

/-- No failing call of staging or moving is passed over. -/
theorem transfer_attends {outcome : Except Fault Unit} {moves : Moves}
    (hrun : (transfer files root stage : Run _) r₁ = ((outcome, moves), r₂))
    (hfailed : CallFailed r₁ outcome r₂) : ∃ e, outcome = .error e ∧ e.isFileFault = true := by
  rcases hfailed with ⟨hset, hspent⟩ | hfault
  · have hattends : r₂.failsAfter = none → outcome = .error injected := by
      refine of_transfer (P := fun outcome _ r₂ => r₂.failsAfter = none → outcome = .error injected)
        hrun (yields_imp (heeds_stageFiles stage files r₁ hset) fun staged r' hstaging => ?_)
      cases staged with
      | error e => exact hstaging
      | ok _ =>
        exact attends_moveFiles root stage (Keyed.keys files) [] r' fun hnone =>
          nomatch hstaging hnone
    exact ⟨injected, hattends hspent, rfl⟩
  · exact hfault

theorem run_liftM {α : Type} (x : Run α) (r : Rehearsal) :
    (liftM x : ExceptT Fault Run α).run r = (.ok (x r).1, (x r).2) := rfl

/-- What a delivery comes to that is to be undone. -/
theorem run_writeFolder {moves : Moves} {e : Fault}
    (hprepare : (prepareStage root : ExceptT Fault Run Path).run r = (.ok stage, r₁))
    (hrun : (transfer files root stage : Run _) r₁ = ((.error e, moves), r₂))
    (hundone : isUndone e = true) :
    (writeFolder files root : ExceptT Fault Run Path).run r
      = (.error (deliveryFault root e),
        (onDisk (.removeTree stage) ((undo moves : Run Unit) r₂).2).2) := by
  unfold writeFolder
  rw [run_bind, hprepare]
  simp only
  rw [run_bind, run_liftM, hrun]
  simp only [hundone, if_true]
  rw [run_bind, run_liftM]
  rfl

/-- **A delivery that fails leaves everything as it was.**  If a call of staging or moving fails,
and none while it is undone, the delivery fails too; afterwards every file is as before, and nothing
is left of the stage. -/
theorem writeFolder_restores (htree : r.disk.IsTree) (hpaths : PathsDiffer files)
    (hhidden : NothingHidden files) (hclear : StandsClear r.disk root files)
    (hprepare : (prepareStage root : ExceptT Fault Run Path).run r = (.ok stage, r₁))
    {outcome : Except Fault Unit} {moves : Moves}
    (hrun : (transfer files root stage : Run _) r₁ = ((outcome, moves), r₂))
    (hfailed : CallFailed r₁ outcome r₂) (hcalm : r₂.failsAfter = none) :
    ∃ r₃, (writeFolder files root : ExceptT Fault Run Path).run r
        = (.error (.deliveryFailed root.toString), r₃)
      ∧ (∀ q, r₃.disk.content? q = r.disk.content? q)
      ∧ ∀ q, r₁.disk.reachOf stage <+: q → r₃.disk.at? q = none := by
  obtain ⟨e, rfl, hfault⟩ := transfer_attends hrun hfailed
  have hprepared := prepareStage_yields htree root
  unfold Yields at hprepared
  rw [hprepare] at hprepared
  obtain ⟨R, s, hprepared⟩ := hprepared stage rfl
  have hclear₁ : StandsClear r₁.disk root files := by
    have hstart : r₁.disk.start root = r.disk.start root := by
      rw [start, start, hprepared.here]
    unfold StandsClear wayOf reachOf at hclear ⊢
    rwa [hstart]
  obtain ⟨names, entries, site, hrec, rfl, hundoable⟩ :=
    transfer_undoable hprepared hpaths hhidden hclear₁ hrun
  obtain ⟨hcalm', hundone⟩ := undo_restores site entries hrec hcalm hundoable
  have hnothing : ∀ q, R ++ [s] <+: q → r₁.disk.content? q = none := fun q hq => by
    rw [hprepared.same, hprepared.nothing q hq]
  obtain ⟨hsame, hgone⟩ := removeStage site.stage hcalm' hundone hnothing
  have hresult := run_writeFolder hprepare hrun (by rw [isUndone, hfault, Bool.true_or])
  have hmessage : deliveryFault root e = .deliveryFailed root.toString := by
    rw [deliveryFault, if_pos hfault]
  rw [hmessage] at hresult
  refine ⟨_, hresult, fun q => ?_, fun q hq => ?_⟩
  · rw [hprepared.path, hsame, hprepared.same]
  · rw [hprepared.path]
    refine hgone q ?_
    rwa [← hprepared.leads_stage.eq_reachOf] at hq

end ControlSurface.Delivery
