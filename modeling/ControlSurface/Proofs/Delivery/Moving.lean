/-
  ControlSurface.Proofs.Delivery.Moving
  ─────────────────────────────────────
  Moving a bundle from the stage to its final places.  Wherever this ends, the record that it leaves
  can be undone: every call of every file is followed, with the disk that it leaves if it goes well
  and the one that it leaves if it fails.

  Main results:
    * `moveFile_leaves` — one file: it goes on record, or its delivery ends and what is on record
      can be undone.
    * `moveFiles_leaves` — all files, by induction over their names.
-/
import ControlSurface.Proofs.Delivery.Record
import ControlSurface.Proofs.Delivery.Staging
import ControlSurface.Proofs.Fault.Outcome
import ControlSurface.Proofs.Keyed.Entries

namespace ControlSurface.Delivery

open Disk FileSystem Rehearsal

/-! ## §1. Programs that keep a record. -/

section Programs

variable {α β : Type}

/-- What holds of the outcome of a program, of the record that it leaves and of the machine. -/
def Leaves (x : Moving Run α) (moves : Moves) (r : Rehearsal)
    (post : Except Fault α → Moves → Rehearsal → Prop) : Prop :=
  post (x.run.run moves r).1.1 (x.run.run moves r).1.2 (x.run.run moves r).2

/-- A program goes on from what its first part leaves, unless that fails. -/
theorem leaves_bind {x : Moving Run α} {f : α → Moving Run β} {moves : Moves} {r : Rehearsal}
    {post : Except Fault β → Moves → Rehearsal → Prop}
    (h : Leaves x moves r fun
      | .ok a, moves', r' => Leaves (f a) moves' r' post
      | .error e, moves', r' => post (.error e) moves' r') : Leaves (x >>= f) moves r post := by
  obtain ⟨outcome, moves', r', hx⟩ :
      ∃ outcome moves' r', x.run.run moves r = ((outcome, moves'), r') := ⟨_, _, _, rfl⟩
  have hrun : (x >>= f).run.run moves r
      = (ExceptT.bindCont f outcome : StateT Moves Run (Except Fault β)).run moves' r' := by
    show (ExceptT.bindCont f (x.run.run moves r).1.1 : StateT Moves Run (Except Fault β)).run
      (x.run.run moves r).1.2 (x.run.run moves r).2 = _
    rw [hx]
  unfold Leaves at h ⊢
  rw [hrun]
  rw [hx] at h
  cases outcome with
  | ok a => exact h
  | error e => exact h

theorem leaves_ask {c : FileCall α} {moves : Moves} {r : Rehearsal}
    {post : Except Fault α → Moves → Rehearsal → Prop}
    (h : post (onDisk c r).1 moves (onDisk c r).2) : Leaves (askMoving c) moves r post := h

theorem leaves_pure {x : Except Fault α} {moves : Moves} {r : Rehearsal}
    {post : Except Fault α → Moves → Rehearsal → Prop} (h : post x moves r) :
    Leaves (ExceptT.mk (pure x)) moves r post := h

theorem leaves_modify {f : Moves → Moves} {moves : Moves} {r : Rehearsal}
    {post : Except Fault PUnit → Moves → Rehearsal → Prop} (h : post (.ok ⟨⟩) (f moves) r) :
    Leaves (modify f) moves r post := h

theorem leaves_imp {x : Moving Run α} {moves : Moves} {r : Rehearsal}
    {post post' : Except Fault α → Moves → Rehearsal → Prop} (h : Leaves x moves r post)
    (himp : ∀ outcome moves' r', post outcome moves' r' → post' outcome moves' r') :
    Leaves x moves r post' := himp _ _ _ h

/-- A program that ends with a call that is made to fail. -/
def Attends (x : Moving Run α) : Prop :=
  ∀ moves r, r.failsAfter ≠ none →
    Leaves x moves r fun outcome _ r' => r'.failsAfter = none → outcome = .error injected

theorem attends_ask (c : FileCall α) : Attends (askMoving c : Moving Run α) :=
  fun _ _ h hspent => onDisk_spent c h hspent

/-- What asks nothing of the disk. -/
theorem attends_of_still {x : Moving Run α} (h : ∀ moves r, (x.run.run moves r).2 = r) :
    Attends x := by
  intro moves r hr
  unfold Leaves
  rw [h moves r]
  exact fun hnone => absurd hnone hr

theorem attends_bind {x : Moving Run α} {f : α → Moving Run β} (hx : Attends x)
    (hf : ∀ a, Attends (f a)) : Attends (x >>= f) := by
  intro moves r hr
  refine leaves_bind (leaves_imp (hx moves r hr) ?_)
  intro outcome moves' r' hspent
  cases outcome with
  | ok a =>
    refine hf a moves' r' fun hnone => ?_
    have := hspent hnone
    cases this
  | error e =>
    intro hnone
    have := hspent hnone
    cases this
    rfl

end Programs

/-! ## §2. Paths of one file. -/

theorem staged_path (root : Path) (s : String) (x : List String) :
    (below root [s]).join ⟨"", x⟩ = below root (s :: x) := by
  rw [join_eq_below, below, below, below]
  simp

theorem backup_path (root : Path) (s : String) (x : List String) :
    (backups (below root [s])).join ⟨"", x⟩ = below root (s :: backupName :: x) := by
  rw [join_eq_below, backups, join_eq_below, below, below, below, below, backupName]
  simp

theorem below_inj {root : Path} {x y : List String} (h : below root x = below root y) : x = y :=
  List.append_cancel_left (congrArg Path.names h)

theorem isPlain_backupName : IsPlain backupName := ⟨by decide, by decide, by decide⟩

/-- The place where an old item is kept is another one than its final place. -/
theorem kept_ne (s : String) (x : List String) : s :: backupName :: x ≠ x := by
  intro heq
  have hlength := congrArg List.length heq
  simp only [List.length_cons] at hlength
  omega

theorem down_dropLast {x : List String} (h : ∀ n ∈ x, IsPlain n) : ".." ∉ x.dropLast :=
  fun hmem => down_of_plain h (List.mem_of_mem_dropLast hmem)

/-- A new file goes to the end of the record. -/
theorem put_record {root : Path} {s : String} {moves : List Move} {x : List String}
    (h : x ∉ moves.map Move.names) (aside : Bool) :
    Keyed.put (below root x) (Move.entry root s ⟨x, aside⟩).2 (record root s moves)
      = record root s (moves ++ [⟨x, aside⟩]) := by
  rw [Keyed.put_of_not_mem]
  · rw [record, record, List.map_append]
    rfl
  · intro hmem
    obtain ⟨e, he, heq⟩ := List.mem_map.mp hmem
    obtain ⟨m, hm, rfl⟩ := List.mem_map.mp he
    exact h (List.mem_map.mpr ⟨m, hm, below_inj heq⟩)

section Moving

variable {b : Disk} {root : Path} {R : Place} {s : String} {names : List (List String)}

/-- The names of the place where an old item is kept are plain. -/
theorem Site.plain_kept (site : Site b root R s names) {x : List String} (hx : x ∈ names) :
    ∀ n ∈ s :: backupName :: x, IsPlain n :=
  List.forall_mem_cons.mpr
    ⟨site.stage, List.forall_mem_cons.mpr ⟨isPlain_backupName, site.plain x hx⟩⟩

/-! ## §3. The record and the calls. -/

/-- A record of files of a bundle, each once. -/
structure OnRecord (names : List (List String)) (moves : List Move) : Prop where
  known : ∀ m ∈ moves, m.names ∈ names
  distinct : (moves.map Move.names).Nodup

theorem OnRecord.add {moves : List Move} {x : List String} (h : OnRecord names moves)
    (hx : x ∈ names) (hnew : x ∉ moves.map Move.names) (aside : Bool) :
    OnRecord names (moves ++ [⟨x, aside⟩]) := by
  refine ⟨fun m hm => ?_, ?_⟩
  · rcases List.mem_append.mp hm with hm | hm
    · exact h.known m hm
    · rwa [List.mem_singleton.mp hm]
  · rw [List.map_append, List.nodup_append]
    refine ⟨h.distinct, List.nodup_singleton _, ?_⟩
    intro y hy z hz hyz
    rw [List.map_singleton, List.mem_singleton] at hz
    rw [hyz, hz] at hy
    exact hnew hy

/-- Files on record are others than one that is not. -/
theorem OnRecord.others {moves : List Move} {x : List String} (h : OnRecord names moves)
    (hnew : x ∉ moves.map Move.names) : ∀ m ∈ moves, m.names ∈ names ∧ m.names ≠ x := by
  intro m hm
  refine ⟨h.known m hm, ?_⟩
  rintro rfl
  exact hnew (List.mem_map.mpr ⟨m, hm, rfl⟩)

/-- The files before the last one on record. -/
theorem OnRecord.init {moves : List Move} {m : Move} (h : OnRecord names (moves ++ [m])) :
    OnRecord names moves := by
  refine ⟨fun m hm => h.known m (List.mem_append_left _ hm), ?_⟩
  have hdistinct := h.distinct
  rw [List.map_append, List.nodup_append] at hdistinct
  exact hdistinct.1

theorem OnRecord.last {moves : List Move} {m : Move} (h : OnRecord names (moves ++ [m])) :
    m.names ∈ names ∧ m.names ∉ moves.map Move.names := by
  refine ⟨h.known m (List.mem_append_right _ (List.mem_singleton.mpr rfl)), fun hmem => ?_⟩
  have hdistinct := h.distinct
  rw [List.map_append, List.nodup_append] at hdistinct
  exact hdistinct.2.2 _ hmem _ (List.mem_singleton.mpr rfl) rfl

/-- **Making directories** below the directory of the bundle, which makes them or some of them. -/
theorem leaves_built {r : Rehearsal} {entries : Moves}
    {post : Except Fault Unit → Moves → Rehearsal → Prop} (hleads : Leads r.disk root R)
    (htree : r.disk.IsTree) {y : List String} (hdown : ".." ∉ y)
    (hok : ∀ r', Built r.disk r'.disk (way R y) → r'.disk.at? (R ++ y) = some .directory →
      post (.ok ()) entries r')
    (herror : ∀ e r', Built r.disk r'.disk (way R y) → post (.error e) entries r') :
    Leaves (askMoving (.makeDirectories (below root y))) entries r post := by
  obtain ⟨hbuilt, hmade⟩ := makeDirectories_spec htree (below root y)
  have hbuilt := hleads.built_below hbuilt
  refine leaves_ask ?_
  generalize onDisk (.makeDirectories (below root y)) r = answered at hbuilt hmade
  obtain ⟨answer, r'⟩ := answered
  cases answer with
  | error e => exact herror e r' hbuilt
  | ok _ =>
    obtain ⟨hmade, hdisk⟩ := hmade rfl
    refine hok r' hbuilt ?_
    simp only at hdisk
    rw [hdisk]
    exact (hleads.makeDirectories_ok htree hdown hmade).2 _ (end_mem_way_down hdown)

/-- Directories that are not made through files on record: whatever comes of it, the record can be
undone. -/
theorem leaves_makeDirectories {moves : List Move} {r : Rehearsal} {entries : Moves}
    {post : Except Fault Unit → Moves → Rehearsal → Prop}
    (h : Undoable b r.disk root R s moves) {y : List String} (hdown : ".." ∉ y)
    (hmoves : ∀ m ∈ moves, ¬ m.names <+: y)
    (hok : ∀ r', Undoable b r'.disk root R s moves → Built r.disk r'.disk (way R y) →
      r'.disk.at? (R ++ y) = some .directory → post (.ok ()) entries r')
    (herror : ∀ e r', Undoable b r'.disk root R s moves → post (.error e) entries r') :
    Leaves (askMoving (.makeDirectories (below root y))) entries r post := by
  have hkeep : ∀ r' : Rehearsal, Built r.disk r'.disk (way R y) →
      Undoable b r'.disk root R s moves := by
    intro r' hbuilt
    apply h.built hbuilt
    intro m hm hmem
    exact hmoves m hm ((List.prefix_append_right_inj R).mp (mem_way_down hdown hmem).2)
  apply leaves_built h.steady.leads h.steady.tree hdown
  · exact fun r' hbuilt hdir => hok r' (hkeep r' hbuilt) hbuilt hdir
  · exact fun e r' hbuilt => herror e r' (hkeep r' hbuilt)

/-- A move between two places below the directory of the bundle, if it goes well. -/
theorem carried_below {d d' : Disk} (hleads : Leads d root R) (htree : d.IsTree)
    {x y : List String} (hx : ".." ∉ x) (hy : ".." ∉ y) (hy0 : y ≠ []) (hne : x ≠ y)
    (h : d.move (below root x) (below root y) = .ok d') :
    Carried d d' (R ++ x) (R ++ y) ∧ (d.at? (R ++ x)).isSome := by
  obtain ⟨source, hsource, hrest⟩ := (Outcome.bind_eq_ok_iff _ _ _).mp h
  obtain ⟨target, htarget, _⟩ := (Outcome.bind_eq_ok_iff _ _ _).mp hrest
  obtain ⟨rfl, _, _⟩ := hleads.place_down hx hsource
  obtain ⟨rfl, _, hdoor⟩ := hleads.place_down hy htarget
  have hapart : R ++ x ≠ R ++ y := fun heq => hne (List.append_cancel_left heq)
  refine ⟨move_carried htree hsource htarget h hapart ?_,
    (carry_of_move hsource htarget h hapart).2.1⟩
  rw [List.dropLast_append_of_ne_nil hy0]
  exact hdoor hy0

/-- **A move** between two such places that happens or does not. -/
theorem leaves_move {r : Rehearsal} {entries : Moves}
    {post : Except Fault Unit → Moves → Rehearsal → Prop} (hleads : Leads r.disk root R)
    (htree : r.disk.IsTree) {x y : List String} (hx : ".." ∉ x) (hy : ".." ∉ y) (hy0 : y ≠ [])
    (hne : x ≠ y)
    (hok : ∀ r', Carried r.disk r'.disk (R ++ x) (R ++ y) → (r.disk.at? (R ++ x)).isSome →
      post (.ok ()) entries r')
    (herror : ∀ e r', r'.disk = r.disk → post (.error e) entries r') :
    Leaves (askMoving (.move (below root x) (below root y))) entries r post := by
  refine leaves_ask ?_
  have hmove := move_spec r (below root x) (below root y)
  generalize onDisk (.move (below root x) (below root y)) r = answered at hmove
  obtain ⟨answer, r'⟩ := answered
  rcases hmove with ⟨hanswer, hmove⟩ | ⟨⟨e, hanswer⟩, hsame⟩
  · simp only at hanswer hmove
    subst hanswer
    obtain ⟨hc, hsome⟩ := carried_below hleads htree hx hy hy0 hne hmove
    exact hok r' hc hsome
  · simp only at hanswer hsame
    subst hanswer
    exact herror e r' hsame

/-! ## §4. One file. -/

/-- What putting aside leaves: the file on record, or what was on record before. -/
def PutAside (b : Disk) (root : Path) (R : Place) (s : String) (names : List (List String))
    (moves : List Move) (x : List String) (outcome : Except Fault (Option Path))
    (entries : Moves) (r : Rehearsal) : Prop :=
  entries = record root s moves ∧
    match outcome with
    | .ok backup => ∃ aside, backup = (Move.entry root s ⟨x, aside⟩).2
        ∧ Undoable b r.disk root R s (moves ++ [⟨x, aside⟩]) ∧ Waiting r.disk R s names moves
    | .error _ => Undoable b r.disk root R s moves

section OneFile

variable {moves : List Move} {x : List String} {r : Rehearsal}

/-- The item that stands at a final place is kept on the stage. -/
theorem keeping_leaves (site : Site b root R s names) (hx : x ∈ names)
    (hnew : x ∉ moves.map Move.names) (hrec : OnRecord names moves)
    (h : Undoable b r.disk root R s moves) (hwait : Waiting r.disk R s names moves)
    (hdoor : r.disk.at? (R ++ x.dropLast) = some .directory) :
    Leaves (askMoving (.makeDirectories (below root (s :: backupName :: x).dropLast))
        >>= fun _ => askMoving (.move (below root x) (below root (s :: backupName :: x)))
        >>= fun _ => pure (some (below root (s :: backupName :: x))))
      (record root s moves) r (PutAside b root R s names moves x) := by
  have hplain := site.plain_kept hx
  have hmoves : ∀ m ∈ moves, ¬ m.names <+: (s :: backupName :: x).dropLast := fun m hm hpre =>
    site.not_above_on_stage (hrec.known m hm) (hpre.trans (List.dropLast_prefix _))
  -- the directory where it is kept
  refine leaves_bind (leaves_makeDirectories h (down_dropLast hplain) hmoves ?_ ?_)
  · intro r₁ h₁ hbuilt _
    -- the item itself
    refine leaves_bind (leaves_move h₁.steady.leads h₁.steady.tree (down_of_plain (site.plain x hx))
      (down_of_plain hplain) (List.cons_ne_nil _ _) (kept_ne s x).symm ?_ ?_)
    · intro r₂ hc hsome
      exact ⟨rfl, true, rfl,
        h₁.putAside site hx (hrec.others hnew) hsome (hbuilt.kept hdoor) hc,
        (hwait.built hbuilt).putAside site hx hc⟩
    · intro e r₂ hsame
      rw [← hsame] at h₁
      exact ⟨rfl, h₁⟩
  · exact fun e r₁ h₁ => ⟨rfl, h₁⟩

/-- **Putting aside**, whatever stands at the final place. -/
theorem putAside_leaves (site : Site b root R s names) (hx : x ∈ names)
    (hnew : x ∉ moves.map Move.names) (hrec : OnRecord names moves)
    (h : Undoable b r.disk root R s moves) (hwait : Waiting r.disk R s names moves)
    (hdoor : r.disk.at? (R ++ x.dropLast) = some .directory) :
    Leaves (putAside (below root [s]) (below root x) ⟨"", x⟩) (record root s moves) r
      (PutAside b root R s names moves x) := by
  have hlook := h.steady.leads.look_below h.steady.tree (site.plain x hx) fun _ => hdoor
  unfold putAside
  refine leaves_bind (leaves_ask ?_)
  obtain ⟨hdisk, hfound⟩ := look_spec (below root x) r
  generalize onDisk (.look (below root x)) r = answered at hdisk hfound
  obtain ⟨answer, r₁⟩ := answered
  simp only at hdisk hfound
  rw [← hdisk] at h hwait hdoor hlook
  cases answer with
  | error e => exact ⟨rfl, h⟩
  | ok found =>
    have hfound : found = (r₁.disk.at? (R ++ x)).map Item.kind := by
      rw [hfound found rfl, ← hdisk, hlook]
    cases hat : r₁.disk.at? (R ++ x) with
    | none =>
      -- nothing is there
      rw [hat] at hfound
      subst hfound
      exact ⟨rfl, false, rfl, h.addFresh site hx (hrec.others hnew) hat hdoor, hwait⟩
    | some i =>
      rw [hat] at hfound
      subst hfound
      have hkeep := keeping_leaves site hx hnew hrec h hwait hdoor
      rw [← parent_below root (List.cons_ne_nil _ _), ← backup_path root s x] at hkeep
      exact hkeep

/-- What moving a file leaves: a record that can be undone, with the file on it if all went
well. -/
structure MoveDone (b : Disk) (root : Path) (R : Place) (s : String) (names : List (List String))
    (moves : List Move) (x : List String) (outcome : Except Fault Unit) (entries : Moves)
    (r : Rehearsal) : Prop where
  undoable : ∃ moves', entries = record root s moves' ∧ OnRecord names moves'
    ∧ Undoable b r.disk root R s moves'
  all : outcome = .ok () → ∃ aside, entries = record root s (moves ++ [⟨x, aside⟩])
    ∧ OnRecord names (moves ++ [⟨x, aside⟩])
    ∧ Undoable b r.disk root R s (moves ++ [⟨x, aside⟩])
    ∧ Waiting r.disk R s names (moves ++ [⟨x, aside⟩])

theorem moveDone_stopped {e : Fault} {r : Rehearsal} (hrec : OnRecord names moves)
    (h : Undoable b r.disk root R s moves) :
    MoveDone b root R s names moves x (.error e) (record root s moves) r :=
  ⟨⟨moves, rfl, hrec, h⟩, fun hok => nomatch hok⟩

/-- A file on record is moved to its final place. -/
theorem moveIn_leaves (site : Site b root R s names) (hx : x ∈ names)
    (hnew : x ∉ moves.map Move.names) {aside : Bool} (hrec : OnRecord names (moves ++ [⟨x, aside⟩]))
    (h : Undoable b r.disk root R s (moves ++ [⟨x, aside⟩]))
    (hwait : Waiting r.disk R s names moves) :
    Leaves (askMoving (.move (below root (s :: x)) (below root x)))
      (record root s (moves ++ [⟨x, aside⟩])) r (MoveDone b root R s names moves x) := by
  have hplain := site.plain x hx
  have hfile := hwait x hx hnew
  have hstaged : ∀ n ∈ s :: x, IsPlain n := List.forall_mem_cons.mpr ⟨site.stage, hplain⟩
  refine leaves_move h.steady.leads h.steady.tree (down_of_plain hstaged) (down_of_plain hplain)
    (site.nonempty x hx) (List.cons_ne_self s x) ?_ ?_
  · intro r' hc _
    have h' := h.moveIn site hx hrec.known (by simp) hfile hc
    exact ⟨⟨_, rfl, hrec, h'⟩, fun _ => ⟨aside, rfl, hrec, h', hwait.moveIn site hx hc⟩⟩
  · intro e r' hsame
    rw [← hsame] at h
    exact ⟨⟨_, rfl, hrec, h⟩, fun hok => nomatch hok⟩

/-- The calls by which a file with a safe name is moved: its directory is made, what stands in its
place is put aside, and that is recorded before the file itself goes there. -/
theorem leaves_moveFile {name : String} (hsafe : safePath name = .ok ⟨"", x⟩) (hne : x ≠ [])
    {entries : Moves} {post : Except Fault Unit → Moves → Rehearsal → Prop}
    (h : Leaves (askMoving (.makeDirectories (below root x.dropLast)) >>= fun _ =>
      putAside (below root [s]) (below root x) ⟨"", x⟩ >>= fun backup =>
        modify (Keyed.put (below root x) backup) >>= fun _ =>
          askMoving (.move (below root (s :: x)) (below root x))) entries r post) :
    Leaves (moveFile root (below root [s]) name) entries r post := by
  refine leaves_bind (leaves_pure ?_)
  rw [hsafe]
  show Leaves (askMoving (.makeDirectories (below root x).parent) >>= fun _ =>
    putAside (below root [s]) (below root x) ⟨"", x⟩ >>= fun backup =>
      modify (Keyed.put (below root x) backup) >>= fun _ =>
        askMoving (.move ((below root [s]).join ⟨"", x⟩) (below root x))) entries r post
  rw [parent_below root hne, staged_path]
  exact h

/-- **Moving one file**, call by call. -/
theorem moveFile_leaves (site : Site b root R s names) {name : String}
    (hsafe : safePath name = .ok ⟨"", x⟩) (hx : x ∈ names) (hnew : x ∉ moves.map Move.names)
    (hrec : OnRecord names moves) (h : Undoable b r.disk root R s moves)
    (hwait : Waiting r.disk R s names moves) :
    Leaves (moveFile root (below root [s]) name) (record root s moves) r
      (MoveDone b root R s names moves x) := by
  refine leaves_moveFile hsafe (site.nonempty x hx) ?_
  have hmoves : ∀ m ∈ moves, ¬ m.names <+: x.dropLast := fun m hm hpre =>
    (hrec.others hnew m hm).2 (site.apart _ (hrec.known m hm) x hx
      (hpre.trans (List.dropLast_prefix x)))
  -- the directory of the file
  refine leaves_bind (leaves_makeDirectories h (down_dropLast (site.plain x hx)) hmoves ?_ ?_)
  · intro r₁ h₁ hbuilt hdoor
    -- what stands in its place
    refine leaves_bind (leaves_imp
      (putAside_leaves site hx hnew hrec h₁ (hwait.built hbuilt) hdoor) ?_)
    rintro outcome entries r₂ ⟨rfl, hput⟩
    cases outcome with
    | error e => exact moveDone_stopped hrec hput
    | ok backup =>
      obtain ⟨aside, rfl, h₂, hwait₂⟩ := hput
      -- the record, and the file itself
      refine leaves_bind (leaves_modify ?_)
      show Leaves (askMoving (.move (below root (s :: x)) (below root x)))
        (Keyed.put (below root x) (Move.entry root s ⟨x, aside⟩).2 (record root s moves)) r₂ _
      rw [put_record hnew]
      exact moveIn_leaves site hx hnew (hrec.add hx hnew aside) h₂ hwait₂
  · exact fun e r₁ h₁ => moveDone_stopped hrec h₁

end OneFile

/-! ## §5. All files. -/

/-- **Wherever the moves end, they can be undone.** -/
theorem moveFiles_leaves (site : Site b root R s names) (files : List String)
    {moves : List Move} {r : Rehearsal} (hsafe : ∀ name ∈ files, safePath name = .ok ⟨"", parts name⟩)
    (hnames : moves.map Move.names ++ files.map parts = names) (hdistinct : names.Nodup)
    (hrec : OnRecord names moves) (h : Undoable b r.disk root R s moves)
    (hwait : Waiting r.disk R s names moves) :
    Leaves (moveFiles root (below root [s]) files) (record root s moves) r
      fun _ entries r' => ∃ moves', entries = record root s moves' ∧ OnRecord names moves'
        ∧ Undoable b r'.disk root R s moves' := by
  induction files generalizing moves r with
  | nil => exact ⟨moves, rfl, hrec, h⟩
  | cons name files ih =>
    have hx : parts name ∈ names := by
      rw [← hnames]
      simp
    have hnew : parts name ∉ moves.map Move.names := by
      intro hmem
      rw [← hnames, List.nodup_append] at hdistinct
      exact hdistinct.2.2 _ hmem _ (List.mem_cons_self ..) rfl
    refine leaves_bind (leaves_imp
      (moveFile_leaves site (hsafe name (List.mem_cons_self ..)) hx hnew hrec h hwait) ?_)
    intro outcome entries r₁ hdone
    cases outcome with
    | error e => exact hdone.undoable
    | ok _ =>
      obtain ⟨aside, rfl, hrec₁, h₁, hwait₁⟩ := hdone.all rfl
      refine ih (fun name hname => hsafe name (List.mem_cons_of_mem _ hname)) ?_ hrec₁ h₁ hwait₁
      rw [← hnames]
      simp

end Moving

/-- A call of the moves that is made to fail ends them. -/
theorem attends_moveFiles (root stage : Path) (files : List String) :
    Attends (moveFiles root stage files) := by
  have haside : ∀ final relative, Attends (putAside stage final relative : Moving Run _) := by
    intro final relative
    refine attends_bind (attends_ask _) fun found => ?_
    cases found with
    | none => exact attends_of_still fun _ _ => rfl
    | some _ =>
      exact attends_bind (attends_ask _) fun _ =>
        attends_bind (attends_ask _) fun _ => attends_of_still fun _ _ => rfl
  have hfile : ∀ name, Attends (moveFile root stage name : Moving Run _) := by
    intro name
    refine attends_bind (attends_of_still fun _ _ => rfl) fun relative => ?_
    refine attends_bind (attends_ask _) fun _ => attends_bind (haside _ _) fun backup => ?_
    exact attends_bind (attends_of_still fun _ _ => rfl) fun _ => attends_ask _
  induction files with
  | nil => exact attends_of_still fun _ _ => rfl
  | cons name files ih => exact attends_bind (hfile name) fun _ => ih

end ControlSurface.Delivery
