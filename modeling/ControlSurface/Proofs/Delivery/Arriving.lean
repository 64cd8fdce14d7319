/-
  ControlSurface.Proofs.Delivery.Arriving
  ───────────────────────────────────────
  A delivery that goes well.  On the stage, and then below the directory of the bundle, lie the files
  that were written so far and the directories that lead to them, and nothing else (`Holds`).  One
  more file whose path is apart from theirs can be written and moved, so in the end the directory
  holds the files of the bundle.

  Main results:
    * `stageFiles_arrives` — all files can be staged.
    * `moveFiles_arrives` — all files can be moved, by induction over them.
    * `writeFolder_arrives` — a bundle whose paths are apart arrives in an empty directory.
-/
import ControlSurface.Proofs.Delivery.Restoring

namespace ControlSurface.Delivery

open Disk FileSystem Rehearsal

/-! ## §1. Files below a directory. -/

/-- Two paths of which neither leads through the other. -/
def Apart (x y : List String) : Prop := ¬ x <+: y ∧ ¬ y <+: x

theorem Apart.symm {x y : List String} (h : Apart x y) : Apart y x := ⟨h.2, h.1⟩

/-- The files of a bundle, each with the names that lead to it. -/
def placed (files : Bundle.Files) : List (Place × Content) :=
  files.map fun (name, content) => (parts name, content)

/-- What lies below a directory: these files and the directories that lead to them.  What lies under
a hidden name does not count, if there is one. -/
structure Holds (d : Disk) (P : Place) (hidden : Option String) (fs : List (Place × Content)) :
    Prop where
  shown : ∀ e ∈ fs, e.1.head? ≠ hidden
  files : ∀ e ∈ fs, d.at? (P ++ e.1) = some (.file e.2)
  nothing : ∀ q, q ≠ [] → q.head? ≠ hidden → (∀ e ∈ fs, ¬ q <+: e.1) → d.at? (P ++ q) = none

/-- A path for one more file. -/
structure Fits (hidden : Option String) (fs : List (Place × Content)) (x : Place) : Prop where
  nonempty : x ≠ []
  plain : ∀ n ∈ x, IsPlain n
  shown : x.head? ≠ hidden
  apart : ∀ e ∈ fs, Apart x e.1

theorem head?_of_above {q x : List String} (h : q <+: x) (hq : q ≠ []) : q.head? = x.head? := by
  obtain ⟨rest, rfl⟩ := h
  rw [List.head?_append_of_ne_nil q hq]

section Holding

variable {d d' : Disk} {p : Path} {P : Place} {hidden : Option String}
  {fs : List (Place × Content)} {x : Place} {c : Content}

theorem Holds.vacant (h : Holds d P hidden fs) (hx : Fits hidden fs x) : d.at? (P ++ x) = none :=
  h.nothing x hx.nonempty hx.shown fun e he => (hx.apart e he).1

/-- No file stands in the way to one more. -/
theorem Holds.free (h : Holds d P hidden fs) (htree : d.IsTree) (hP : d.at? P = some .directory)
    (hx : Fits hidden fs x) : ∀ w ∈ way P x.dropLast, ¬ d.HasFile w := by
  intro w hw hfile
  obtain ⟨⟨q, rfl⟩, hup⟩ := mem_way_down (down_dropLast hx.plain) hw
  have hqx : q <+: x :=
    ((List.prefix_append_right_inj P).mp hup).trans (List.dropLast_prefix x)
  have hnot : d.at? (P ++ q) = some .directory ∨ d.at? (P ++ q) = none := by
    by_cases hq : q = []
    · rw [hq, List.append_nil]
      exact Or.inl hP
    · by_cases hheld : ∃ e ∈ fs, q <+: e.1
      · -- a directory that leads to a file
        obtain ⟨e, he, hqe⟩ := hheld
        left
        apply htree.above _ ((List.prefix_append_right_inj P).mpr hqe)
        · intro heq
          rw [List.append_cancel_left heq] at hqx
          exact (hx.apart e he).2 hqx
        · rw [h.files e he]
          rfl
      · right
        apply h.nothing q hq
        · rw [head?_of_above hqx hq]
          exact hx.shown
        · intro e he hqe
          exact hheld ⟨e, he, hqe⟩
  obtain ⟨c, hc⟩ := hfile
  rw [hc] at hnot
  rcases hnot with hnot | hnot
  · cases hnot
  · cases hnot

/-- The directory of one more file can be made. -/
theorem Holds.door (h : Holds d P hidden fs) (hleads : Leads d p P) (htree : d.IsTree)
    (hx : Fits hidden fs x) :
    ∃ made, d.makeDirectories (below p x.dropLast) = (.ok (), made)
      ∧ Built d made (way P x.dropLast) ∧ made.at? (P ++ x.dropLast) = some .directory := by
  have hplain : ∀ n ∈ x.dropLast, IsPlain n := fun n hn => hx.plain n (List.mem_of_mem_dropLast hn)
  have hok := hleads.makeDirectories_succeeds htree hplain (h.free htree hleads.directory hx)
  have hdown := down_dropLast hx.plain
  refine ⟨_, Prod.ext hok rfl, ?_, ?_⟩
  · exact hleads.built_below (makeDirectories_built htree _)
  · exact (hleads.makeDirectories_ok htree hdown hok).2 _ (end_mem_way_down hdown)

/-- The directories that are made for a file stand above it. -/
theorem not_mem_way_door {q : Place} (hx : ∀ n ∈ x, IsPlain n) (hq : ¬ q <+: x.dropLast) :
    P ++ q ∉ way P x.dropLast := fun hmem =>
  hq ((List.prefix_append_right_inj P).mp (mem_way_down (down_dropLast hx) hmem).2)

theorem not_prefix_dropLast (hx : x ≠ []) : ¬ x <+: x.dropLast := by
  intro hpre
  have hle := hpre.length_le
  have hpos := List.length_pos_iff.mpr hx
  rw [List.length_dropLast] at hle
  omega

/-- The place of a file is still free when its directory is made. -/
theorem Holds.vacant_built (h : Holds d P hidden fs) (hx : Fits hidden fs x)
    (hb : Built d d' (way P x.dropLast)) : d'.at? (P ++ x) = none := by
  rw [hb.unchanged fun hmem =>
    absurd hmem (not_mem_way_door hx.plain (not_prefix_dropLast hx.nonempty))]
  exact h.vacant hx

/-- What does not lie on the way to a file is the same when its directory is made. -/
theorem Fits.beside (hx : Fits hidden fs x) (hb : Built d d' (way P x.dropLast)) {q : Place}
    (hq : ¬ q <+: x) : d'.at? (P ++ q) = d.at? (P ++ q) := by
  apply hb.unchanged
  intro hmem
  refine absurd hmem (not_mem_way_door hx.plain fun hup => ?_)
  exact hq (hup.trans (List.dropLast_prefix x))

/-- One more file stands at its place, and nothing has changed but on the way to it. -/
theorem Holds.add (h : Holds d P hidden fs) (hx : Fits hidden fs x)
    (hnew : d'.at? (P ++ x) = some (.file c))
    (hsame : ∀ q, q.head? ≠ hidden → ¬ q <+: x → d'.at? (P ++ q) = d.at? (P ++ q)) :
    Holds d' P hidden (fs ++ [(x, c)]) := by
  refine ⟨fun e he => ?_, fun e he => ?_, fun q hq hshown hall => ?_⟩
  · rcases List.mem_append.mp he with he | he
    · exact h.shown e he
    · rw [List.mem_singleton.mp he]
      exact hx.shown
  · rcases List.mem_append.mp he with he | he
    · rw [hsame e.1 (h.shown e he) (hx.apart e he).2]
      exact h.files e he
    · rw [List.mem_singleton.mp he]
      exact hnew
  · rw [hsame q hshown (hall (x, c) (by simp))]
    exact h.nothing q hq hshown fun e he => hall e (List.mem_append_left _ he)

end Holding

/-! ## §2. Staging. -/

/-- Files that can be delivered: their paths stay in the bundle, are plain and not hidden, and none
leads through another one. -/
structure Deliverable (files : Bundle.Files) : Prop where
  safe : ∀ name ∈ Keyed.keys files, safePath name = .ok ⟨"", parts name⟩
  plain : ∀ name ∈ Keyed.keys files, ∀ n ∈ parts name, IsPlain n
  apart : ((Keyed.keys files).map parts).Pairwise Apart

section Paths

variable {hidden : String} {fs : List (Place × Content)} {name : String} {content : Content}
  {more : Bundle.Files}

theorem keys_placed (files : Bundle.Files) :
    (placed files).map Prod.fst = (Keyed.keys files).map parts := by
  rw [placed, Keyed.keys, List.map_map, List.map_map]
  rfl

/-- The next file of a bundle fits to those before it. -/
theorem fits_next (hd : Deliverable ((name, content) :: more))
    (hhidden : NothingHidden ((name, content) :: more)) (hdot : hidden.toList.head? = some '.')
    (hfs : ∀ e ∈ fs, Apart (parts name) e.1) : Fits (some hidden) fs (parts name) := by
  have hname : name ∈ Keyed.keys ((name, content) :: more) := List.mem_cons_self ..
  refine ⟨(safePath_eq_ok_iff.mp (hd.safe name hname)).2.2.2, hd.plain name hname, ?_, hfs⟩
  intro hhead
  exact hhidden name hname hidden hhead hdot

theorem Deliverable.rest (hd : Deliverable ((name, content) :: more)) : Deliverable more := by
  refine ⟨fun n hn => hd.safe n (List.mem_cons_of_mem _ hn),
    fun n hn => hd.plain n (List.mem_cons_of_mem _ hn), ?_⟩
  exact (List.pairwise_cons.mp hd.apart).2

theorem NothingHidden.rest (h : NothingHidden ((name, content) :: more)) : NothingHidden more :=
  fun n hn => h n (List.mem_cons_of_mem _ hn)

end Paths

section Staging

variable {b : Disk} {stage : Path} {S : Place} {fs : List (Place × Content)} {r : Rehearsal}

/-- **Writing one file on the stage**, after which staging goes on. -/
theorem stageFile_arrives {x : Place} {content : Content} {next : ExceptT Fault Run Unit}
    {post : Except Fault Unit → Rehearsal → Prop} (hr : r.failsAfter = none)
    (hon : OnStage b r.disk stage S) (h : Holds r.disk S (some backupName) fs)
    (hx : Fits (some backupName) fs x)
    (hnext : ∀ r', r'.failsAfter = none → OnStage b r'.disk stage S →
      Holds r'.disk S (some backupName) (fs ++ [(x, content)]) → Yields next r' post) :
    Yields (ask (.makeDirectories (below stage x.dropLast)) >>= fun _ =>
      ask (.write (below stage x) content) >>= fun _ => next) r post := by
  -- the directory of the file
  obtain ⟨made, hmake, hbuilt, hdoor⟩ := h.door hon.leads hon.tree hx
  have hmade : r.disk.run (.makeDirectories (below stage x.dropLast)) = (.ok (), made) := hmake
  have hon₁ : OnStage b made stage S := by
    have hall := makeDirectories_built hon.tree (below stage x.dropLast)
    rw [hmake] at hall
    exact hon.built (down_dropLast hx.plain) hall
  refine yields_bind (yields_calm hr fun r₁ hr₁ hdisk₁ => ?_)
  rw [hmade] at hdisk₁ ⊢
  dsimp only at hdisk₁ ⊢
  -- the file itself, where nothing is
  have hvacant := h.vacant_built hx hbuilt
  have hplace := hon₁.leads.place_below hon₁.tree hx.plain fun _ => hdoor
  have hwrite : made.write (below stage x) content = .ok (made.set (S ++ x) (.file content)) := by
    refine write_eq_ok_iff.mpr ⟨_, hplace, ?_, rfl⟩
    rw [hvacant]
    exact fun hdir => nomatch hdir
  have hwritten : r₁.disk.run (.write (below stage x) content)
      = (.ok (), made.set (S ++ x) (.file content)) := by
    show r₁.disk.settle (r₁.disk.write (below stage x) content) = _
    rw [hdisk₁, hwrite]
    rfl
  have hroot : S ++ x ≠ [] := by simp [hx.nonempty]
  refine yields_bind (yields_calm hr₁ fun r₂ hr₂ hdisk₂ => ?_)
  rw [hwritten] at hdisk₂ ⊢
  dsimp only at hdisk₂ ⊢
  apply hnext r₂ hr₂
  · rw [hdisk₂]
    refine hon₁.wrote (down_of_plain hx.plain) hx.nonempty (Or.inr ⟨_, content, hplace, ?_, rfl⟩)
    rw [hvacant]
    exact fun hdir => nomatch hdir
  · rw [hdisk₂]
    apply h.add hx
    · rw [at?_set made hroot, if_pos rfl]
    · intro q _ hq
      rw [at?_set made hroot, if_neg, hx.beside hbuilt hq]
      intro heq
      exact hq (List.append_cancel_left heq ▸ List.prefix_refl _)

/-- **All files can be staged**, and then lie on the stage. -/
theorem stageFiles_arrives (files : Bundle.Files) {fs : List (Place × Content)} {r : Rehearsal}
    (hd : Deliverable files) (hhidden : NothingHidden files)
    (hfs : ∀ e ∈ fs, ∀ name ∈ Keyed.keys files, Apart (parts name) e.1)
    (hr : r.failsAfter = none) (hon : OnStage b r.disk stage S)
    (h : Holds r.disk S (some backupName) fs) :
    Yields (stageFiles stage files) r fun outcome r' => outcome = .ok () ∧ r'.failsAfter = none
      ∧ OnStage b r'.disk stage S ∧ Holds r'.disk S (some backupName) (fs ++ placed files) := by
  induction files generalizing fs r with
  | nil =>
    rw [placed, List.map_nil, List.append_nil]
    exact ⟨rfl, hr, hon, h⟩
  | cons file rest ih =>
    obtain ⟨name, content⟩ := file
    have hsafe := hd.safe name (List.mem_cons_self ..)
    have hx : Fits (some backupName) fs (parts name) :=
      fits_next hd hhidden rfl fun e he => hfs e he name (List.mem_cons_self ..)
    refine yields_bind (yields_pure ?_)
    rw [hsafe]
    show Yields (ask (.makeDirectories (below stage (parts name)).parent) >>= fun _ =>
      ask (.write (below stage (parts name)) content) >>= fun _ => stageFiles stage rest) r _
    rw [parent_below stage hx.nonempty]
    apply stageFile_arrives hr hon h hx
    intro r' hr' hon' h'
    have hall : fs ++ placed ((name, content) :: rest)
        = fs ++ [(parts name, content)] ++ placed rest := by
      rw [List.append_assoc]
      rfl
    rw [hall]
    refine ih hd.rest hhidden.rest ?_ hr' hon' h'
    intro e he other hother
    rcases List.mem_append.mp he with he | he
    · exact hfs e he other (List.mem_cons_of_mem _ hother)
    · rw [List.mem_singleton.mp he]
      exact ((List.pairwise_cons.mp hd.apart).1 _ (List.mem_map.mpr ⟨other, hother, rfl⟩)).symm

end Staging

/-! ## §3. Moving. -/

section Moving

variable {b : Disk} {root : Path} {R : Place} {s : String} {names : List (List String)}
  {done left : List (Place × Content)} {x : Place} {c : Content} {moves : Moves} {r : Rehearsal}

theorem leaves_calm {α : Type} {call : FileCall α} {post : Except Fault α → Moves → Rehearsal → Prop}
    (hr : r.failsAfter = none)
    (h : ∀ r', r'.failsAfter = none → r'.disk = (r.disk.run call).2 →
      post (r.disk.run call).1 moves r') : Leaves (askMoving call) moves r post := by
  obtain ⟨hanswer, hdisk, hcalm⟩ := onDisk_of_none call hr
  refine leaves_ask ?_
  rw [hanswer]
  exact h _ hcalm hdisk

/-- A delivery to an empty directory, some of whose files are there and the others on the stage. -/
structure Underway (b d : Disk) (root : Path) (R : Place) (s : String)
    (done left : List (Place × Content)) : Prop where
  steady : Steady b d root R s
  holds : Holds d R (some s) done
  waiting : ∀ e ∈ left, d.at? (R ++ s :: e.1) = some (.file e.2)
  outside : ∀ q, ¬ R <+: q → d.at? q = b.at? q

/-- The file that is next arrives when it is moved to its place. -/
theorem Underway.moveIn {d made d' : Disk} (site : Site b root R s names) (hx : x ∈ names)
    (h : Underway b d root R s done ((x, c) :: left)) (hfits : Fits (some s) done x)
    (hleft : ∀ e ∈ left, Apart x e.1) (hb : Built d made (way R x.dropLast))
    (hc : Carried made d' (R ++ s :: x) (R ++ x)) :
    Underway b d' root R s (done ++ [(x, c)]) left := by
  have hfile : made.at? (R ++ s :: x) = some (.file c) :=
    hb.kept (h.waiting (x, c) (List.mem_cons_self ..))
  have hnew : d'.at? (R ++ x) = some (.file c) := by
    have htarget := hc.target []
    rw [List.append_nil, List.append_nil] at htarget
    rw [htarget, hfile]
  have hcons : ∀ q : Place, q.head? ≠ some s → ¬ R ++ s :: x <+: R ++ q := by
    intro q hq hpre
    obtain ⟨rest, rfl⟩ := (List.prefix_append_right_inj R).mp hpre
    exact hq rfl
  refine ⟨(h.steady.built hb).carried site hx .waiting .final hc, ?_, fun e he => ?_,
    fun q hq => ?_⟩
  · apply h.holds.add hfits hnew
    intro q hshown hq
    by_cases hbelow : x <+: q
    · -- below a file there is nothing, and there was nothing
      have hpre := (List.prefix_append_right_inj R).mpr hbelow
      rw [h.steady.tree.none_below (h.holds.vacant hfits) hpre]
      apply hc.tree.below _ hpre
      · intro heq
        exact hq (List.append_cancel_left heq ▸ List.prefix_refl _)
      · rw [hnew]
        exact fun hdir => nomatch hdir
    · rw [hc.elsewhere _ (hcons q hshown), hfits.beside hb hq]
      rwa [List.prefix_append_right_inj]
  · have hwaits := hb.kept (h.waiting e (List.mem_cons_of_mem _ he))
    rw [hc.elsewhere, hwaits]
    · intro hpre
      have hpre := (List.prefix_append_right_inj R).mp hpre
      exact (hleft e he).1 (List.cons_prefix_cons.mp hpre).2
    · intro hpre
      exact site.not_above_on_stage hx ((List.prefix_append_right_inj R).mp hpre)
  · have hout : ∀ z, ¬ R ++ z <+: q := fun z hpre => hq ((List.prefix_append R z).trans hpre)
    rw [hc.elsewhere q (hout _) (hout _), hb.unchanged, h.outside q hq]
    intro hmem
    exact absurd (mem_way_down (down_dropLast hfits.plain) hmem).1 hq

/-- **Moving one file** to its place, where nothing is. -/
theorem moveFile_arrives (site : Site b root R s names) (hx : x ∈ names) {name : String}
    (hsafe : safePath name = .ok ⟨"", x⟩) (hr : r.failsAfter = none)
    (h : Underway b r.disk root R s done ((x, c) :: left)) (hfits : Fits (some s) done x)
    (hleft : ∀ e ∈ left, Apart x e.1) :
    Leaves (moveFile root (below root [s]) name) moves r fun outcome _ r' =>
      outcome = .ok () ∧ r'.failsAfter = none
        ∧ Underway b r'.disk root R s (done ++ [(x, c)]) left := by
  refine leaves_moveFile hsafe hfits.nonempty ?_
  -- the directory of the file
  obtain ⟨made, hmake, hbuilt, hdoor⟩ := h.holds.door h.steady.leads h.steady.tree hfits
  have hmade : r.disk.run (.makeDirectories (below root x.dropLast)) = (.ok (), made) := hmake
  have hsteady := h.steady.built hbuilt
  have hvacant := h.holds.vacant_built hfits hbuilt
  refine leaves_bind (leaves_calm hr fun r₁ hr₁ hdisk₁ => ?_)
  rw [hmade] at hdisk₁ ⊢
  -- nothing is put aside
  have hlook : r₁.disk.run (.look (below root x)) = (.ok none, r₁.disk) := by
    show (Except.ok (r₁.disk.look (below root x)), _) = _
    rw [hdisk₁, hsteady.leads.look_below hsteady.tree hfits.plain fun _ => hdoor, hvacant]
    rfl
  refine leaves_bind (leaves_bind (leaves_calm hr₁ fun r₂ hr₂ hdisk₂ => ?_))
  rw [hlook] at hdisk₂ ⊢
  refine leaves_pure (x := .ok none) ?_
  refine leaves_bind (leaves_modify ?_)
  -- the file itself
  have hwaits : made.at? (R ++ s :: x) = some (.file c) :=
    hbuilt.kept (h.waiting (x, c) (List.mem_cons_self ..))
  have hplain : ∀ n ∈ s :: x, IsPlain n := List.forall_mem_cons.mpr ⟨site.stage, hfits.plain⟩
  have hsome : (made.at? (R ++ s :: x)).isSome := by
    rw [hwaits]
    rfl
  have hsource : made.place (below root (s :: x)) = .ok (R ++ s :: x) := by
    refine hsteady.leads.place_below hsteady.tree hplain fun _ => ?_
    have hup := hsteady.tree _ hsome
    rwa [List.dropLast_append_of_ne_nil (List.cons_ne_nil _ _)] at hup
  have htarget := hsteady.leads.place_below hsteady.tree hfits.plain fun _ => hdoor
  have hout : ¬ R ++ s :: x <+: R ++ x := by
    intro hpre
    have hle := ((List.prefix_append_right_inj R).mp hpre).length_le
    rw [List.length_cons] at hle
    omega
  obtain ⟨d', hmove⟩ := exists_move hsource htarget hsome hvacant hout
  obtain ⟨hc, _⟩ := carried_below hsteady.leads hsteady.tree (down_of_plain hplain)
    (down_of_plain hfits.plain) hfits.nonempty (List.cons_ne_self s x) hmove
  have hmoved : r₂.disk.run (.move (below root (s :: x)) (below root x)) = (.ok (), d') := by
    show r₂.disk.settle (r₂.disk.move _ _) = _
    rw [hdisk₂, hdisk₁, hmove]
    rfl
  refine leaves_calm hr₂ fun r₃ hr₃ hdisk₃ => ?_
  rw [hmoved] at hdisk₃ ⊢
  refine ⟨rfl, hr₃, ?_⟩
  rw [hdisk₃]
  exact h.moveIn site hx hfits hleft hbuilt hc

/-- **All files can be moved**, and then lie below the directory of the bundle. -/
theorem moveFiles_arrives (site : Site b root R s names) (hdot : s.toList.head? = some '.')
    (files : Bundle.Files) {done : List (Place × Content)} {moves : Moves} {r : Rehearsal}
    (hd : Deliverable files) (hhidden : NothingHidden files)
    (hnames : ∀ name ∈ Keyed.keys files, parts name ∈ names)
    (hdone : ∀ e ∈ done, ∀ name ∈ Keyed.keys files, Apart (parts name) e.1)
    (hr : r.failsAfter = none) (h : Underway b r.disk root R s done (placed files)) :
    Leaves (moveFiles root (below root [s]) (Keyed.keys files)) moves r fun outcome _ r' =>
      outcome = .ok () ∧ r'.failsAfter = none
        ∧ Underway b r'.disk root R s (done ++ placed files) [] := by
  induction files generalizing done moves r with
  | nil =>
    rw [placed, List.map_nil, List.append_nil]
    exact ⟨rfl, hr, h⟩
  | cons file rest ih =>
    obtain ⟨name, content⟩ := file
    have hname : name ∈ Keyed.keys ((name, content) :: rest) := List.mem_cons_self ..
    have hnext : ∀ other ∈ Keyed.keys rest, Apart (parts name) (parts other) := fun other hother =>
      (List.pairwise_cons.mp hd.apart).1 _ (List.mem_map.mpr ⟨other, hother, rfl⟩)
    have hfits : Fits (some s) done (parts name) :=
      fits_next hd hhidden hdot fun e he => hdone e he name hname
    have hleft : ∀ e ∈ placed rest, Apart (parts name) e.1 := by
      intro e he
      obtain ⟨f, hf, rfl⟩ := List.mem_map.mp he
      exact hnext f.1 (Keyed.mem_keys hf)
    refine leaves_bind (leaves_imp
      (moveFile_arrives site (hnames name hname) (hd.safe name hname) hr h hfits hleft) ?_)
    rintro outcome entries r₁ ⟨rfl, hr₁, h₁⟩
    have hall : done ++ placed ((name, content) :: rest)
        = done ++ [(parts name, content)] ++ placed rest := by
      rw [List.append_assoc]
      rfl
    rw [hall]
    refine ih hd.rest hhidden.rest (fun n hn => hnames n (List.mem_cons_of_mem _ hn)) ?_ hr₁ h₁
    intro e he other hother
    rcases List.mem_append.mp he with he | he
    · exact hdone e he other (List.mem_cons_of_mem _ hother)
    · rw [List.mem_singleton.mp he]
      exact (hnext other hother).symm

end Moving

/-! ## §4. An empty directory. -/

/-- A directory with nothing in it. -/
structure EmptyDirectory (d : Disk) (root : Path) (R : Place) : Prop where
  tree : d.IsTree
  leads : Leads d root R
  nothing : ∀ q, R <+: q → q ≠ R → d.at? q = none

section Empty

variable {files : Bundle.Files} {root : Path} {R : Place} {r : Rehearsal}

theorem EmptyDirectory.below {d : Disk} (h : EmptyDirectory d root R) {x : Place} (hx : x ≠ []) :
    d.at? (R ++ x) = none :=
  h.nothing _ (List.prefix_append R x) (by simpa using hx)

/-- No path leads through an empty directory to a place below it. -/
theorem EmptyDirectory.standsClear {d b : Disk} (h : EmptyDirectory d root R)
    (hhere : b.here = d.here) (hfiles : ∀ name ∈ Keyed.keys files, parts name ≠ []) :
    StandsClear b root files := by
  have hstart : b.start root = d.start root := by
    rw [start, start, hhere]
  intro w hw name hname hpre
  rw [wayOf, hstart] at hw
  rw [reachOf, hstart] at hpre
  have hreach : d.reachOf root = R := h.leads.eq_reachOf.symm
  rw [reachOf] at hreach
  rw [hreach] at hpre
  have hdir := h.leads.directories w hw
  rw [h.tree.none_below (h.below (hfiles name hname)) hpre] at hdir
  cases hdir

/-- In an empty directory the first name of a stage is free. -/
theorem freeName_of_empty {d : Disk} (h : EmptyDirectory d root R) :
    d.freeName R stageStem "" = ".faceplate-staging-0" := by
  have hfirst : (fun suffix : String => s!"{stageStem}{0}{suffix}") "" = ".faceplate-staging-0" := by
    decide
  unfold freeName
  cases d.entries.length with
  | zero => exact hfirst
  | succ n =>
    rw [freeFrom, h.below (List.cons_ne_nil _ _)]
    exact hfirst

/-- **A stage is made** in an empty directory, and nothing else. -/
theorem prepareStage_arrives (hr : r.failsAfter = none) (h : EmptyDirectory r.disk root R) :
    ∃ s r₁, (prepareStage root : ExceptT Fault Run Path).run r = (.ok (below root [s]), r₁)
      ∧ r₁.failsAfter = none ∧ Prepared r.disk r₁.disk root (below root [s]) R s
      ∧ Built r.disk r₁.disk [R ++ [s]] := by
  have hplain : IsPlain ".faceplate-staging-0" := ⟨by decide, by decide, by decide⟩
  have hfresh : r.disk.freshPath root stageStem ""
      = .ok (below root [".faceplate-staging-0"]) := by
    rw [← freeName_of_empty h]
    unfold freshPath
    rw [h.leads.place]
    simp only [bind, Except.bind]
    rw [h.leads.directory]
    rfl
  have hfree : ∀ w ∈ way R [".faceplate-staging-0"], ¬ r.disk.HasFile w := by
    rintro w hw ⟨c, hc⟩
    rcases List.mem_cons.mp hw with rfl | hw
    · rw [h.leads.directory] at hc
      cases hc
    · rw [List.mem_singleton.mp hw, step_down hplain.down, h.below (List.cons_ne_nil _ _)] at hc
      cases hc
  have hmade := h.leads.makeDirectories_succeeds h.tree (List.forall_mem_singleton.mpr hplain) hfree
  have hrun : Yields (prepareStage root) r fun outcome r₁ =>
      outcome = .ok (below root [".faceplate-staging-0"]) ∧ r₁.failsAfter = none
        ∧ Built r.disk r₁.disk [R ++ [".faceplate-staging-0"]] := by
    refine yields_orElseFault (yields_bind (yields_calm hr fun r' hr' hdisk' => ?_))
    have hthere : r.disk.run (.makeDirectories root) = (.ok (), r.disk) :=
      h.leads.makeDirectories_there
    rw [hthere] at hdisk' ⊢
    refine yields_calm hr' fun r₁ hr₁ hdisk₁ => ?_
    dsimp only at hdisk'
    rw [hdisk', run_makeFreshDirectory hfresh, hmade] at hdisk₁ ⊢
    refine ⟨rfl, hr₁, ?_⟩
    rw [hdisk₁]
    exact h.leads.makeDirectory_built h.tree hplain.down
  obtain ⟨hok, hr₁, hbuilt⟩ := hrun
  have hprepared := prepareStage_yields h.tree root
  obtain ⟨R', s, hprepared⟩ := hprepared _ hok
  -- the directory and the name are those that were found
  have hR : R' = R := by
    have hplace := (hbuilt.leads h.leads).place
    rw [hprepared.leads.place] at hplace
    exact Except.ok.inj hplace
  have hs : [".faceplate-staging-0"] = [s] := below_inj hprepared.path
  rw [hs] at hok hbuilt hprepared
  rw [hR] at hprepared
  exact ⟨s, _, Prod.ext hok rfl, hr₁, hprepared, hbuilt⟩

/-- What a delivery comes to that goes well. -/
theorem run_writeFolder_ok {stage : Path} {moves : Moves} {r₁ r₂ : Rehearsal}
    (hprepare : (prepareStage root : ExceptT Fault Run Path).run r = (.ok stage, r₁))
    (hrun : (transfer files root stage : Run _) r₁ = ((.ok (), moves), r₂)) :
    (writeFolder files root : ExceptT Fault Run Path).run r
      = (.ok root, (onDisk (.removeTree stage) r₂).2) := by
  unfold writeFolder
  rw [run_bind, hprepare]
  simp only
  rw [run_bind, run_liftM, hrun]
  simp only
  rw [run_bind, run_liftM]
  rfl

/-- A stage in an empty directory is empty, and so is the directory beside it. -/
structure EmptyStage (d b : Disk) (root : Path) (R : Place) (s : String) : Prop where
  prepared : Prepared d b root (below root [s]) R s
  stage : ∀ q, q ≠ [] → b.at? (R ++ [s] ++ q) = none
  beside : ∀ q, q ≠ [] → q.head? ≠ some s → b.at? (R ++ q) = none
  outside : ∀ q, ¬ (R <+: q ∧ q ≠ R) → b.at? q = d.at? q

theorem emptyStage_of_built {d b : Disk} {s : String} (h : EmptyDirectory d root R)
    (hprepared : Prepared d b root (below root [s]) R s) (hb : Built d b [R ++ [s]]) :
    EmptyStage d b root R s := by
  have hsame : ∀ q, q ≠ R ++ [s] → b.at? q = d.at? q := fun q hq =>
    hb.unchanged fun hmem => absurd (List.mem_singleton.mp hmem) hq
  refine ⟨hprepared, fun q hq => ?_, fun q hq hhead => ?_, fun q hq => ?_⟩
  · rw [hsame _ (by simpa using hq), List.append_assoc]
    exact h.below (by simp)
  · rw [hsame]
    · exact h.below hq
    · intro heq
      rw [List.append_cancel_left heq] at hhead
      exact hhead rfl
  · apply hsame
    rintro rfl
    exact hq ⟨List.prefix_append R [s], by simp⟩

/-- All files that are staged wait there. -/
theorem staged_of_holds {d : Disk} {S : Place} {hidden : Option String} (hd : Deliverable files)
    (h : Holds d S hidden (placed files)) :
    ∀ name ∈ Keyed.keys files, Staged d S name := by
  intro name hname
  obtain ⟨f, hf, rfl⟩ := List.mem_map.mp hname
  have hsafe := hd.safe _ hname
  exact ⟨hsafe, (safePath_eq_ok_iff.mp hsafe).2.2.2, hd.plain _ hname, f.2,
    h.files (parts f.1, f.2) (List.mem_map.mpr ⟨f, hf, rfl⟩)⟩

/-- **Staging and moving go well**, and leave nothing below the directory but the files and the
stage. -/
theorem transfer_arrives {d : Disk} {s : String} (hr : r.failsAfter = none)
    (h : EmptyDirectory d root R) (hstage : EmptyStage d r.disk root R s)
    (hd : Deliverable files) (hhidden : NothingHidden files) :
    ∃ moves r', (transfer files root (below root [s]) : Run _) r = ((.ok (), moves), r')
      ∧ r'.failsAfter = none ∧ Underway r.disk r'.disk root R s (placed files) [] := by
  have hprepared := hstage.prepared
  -- the files are staged
  have hstart : OnStage r.disk r.disk (below root [s]) (R ++ [s]) :=
    ⟨rfl, hprepared.tree, hprepared.leads_stage, fun _ _ => rfl⟩
  have hnone : Holds r.disk (R ++ [s]) (some backupName) [] :=
    ⟨by simp, by simp, fun q hq _ _ => hstage.stage q hq⟩
  have hstaging := stageFiles_arrives files hd hhidden (fun e he => absurd he List.not_mem_nil)
    hr hstart hnone
  obtain ⟨outcome, moves, r₂, hrun⟩ : ∃ outcome moves r₂,
      (transfer files root (below root [s]) : Run _) r = ((outcome, moves), r₂) := ⟨_, _, _, rfl⟩
  suffices harrived : outcome = .ok () ∧ r₂.failsAfter = none
      ∧ Underway r.disk r₂.disk root R s (placed files) [] by
    obtain ⟨rfl, harrived⟩ := harrived
    exact ⟨moves, r₂, hrun, harrived⟩
  refine of_transfer (P := fun outcome _ r₂ => outcome = .ok () ∧ r₂.failsAfter = none
    ∧ Underway r.disk r₂.disk root R s (placed files) []) hrun (yields_imp hstaging ?_)
  rintro staged r' ⟨rfl, hr', hon, hheld⟩
  -- they go to places that are apart
  have hstaged := staged_of_holds hd hheld
  have site := site_of_staged hprepared hon.tree hstaged hhidden
    (h.standsClear hprepared.here fun name hname => (hstaged name hname).nonempty)
  have hstarted : Underway r.disk r'.disk root R s [] (placed files) := by
    refine ⟨(hon.undoable hprepared.leads hprepared.clear).steady, ⟨by simp, by simp, ?_⟩, ?_, ?_⟩
    · intro q hq hhead _
      rw [hon.outside]
      · exact hstage.beside q hq hhead
      · intro hpre
        obtain ⟨rest, rfl⟩ := (List.prefix_append_right_inj R).mp hpre
        exact hhead rfl
    · intro e he
      have hfile := hheld.files e he
      rwa [List.append_assoc] at hfile
    · intro q hq
      exact hon.outside q fun hpre => hq ((List.prefix_append R [s]).trans hpre)
  have hnames : ∀ name ∈ Keyed.keys files, parts name ∈ (Keyed.keys files).map parts :=
    fun name hname => List.mem_map.mpr ⟨name, hname, rfl⟩
  exact moveFiles_arrives site hprepared.hidden files hd hhidden hnames
    (fun e he => absurd he List.not_mem_nil) hr' hstarted

/-- **A bundle arrives in an empty directory** if its paths are apart: in the end the directory holds
its files, and nothing else has changed. -/
theorem writeFolder_arrives (hr : r.failsAfter = none) (h : EmptyDirectory r.disk root R)
    (hd : Deliverable files) (hhidden : NothingHidden files) :
    ∃ r', (writeFolder files root : ExceptT Fault Run Path).run r = (.ok root, r')
      ∧ r'.disk.IsTree ∧ Holds r'.disk R none (placed files)
      ∧ ∀ q, ¬ (R <+: q ∧ q ≠ R) → r'.disk.at? q = r.disk.at? q := by
  obtain ⟨s, r₁, hprepare, hr₁, hprepared, hbuilt⟩ := prepareStage_arrives hr h
  have hstage := emptyStage_of_built h hprepared hbuilt
  obtain ⟨moves, r₂, hrun, hr₂, harrived⟩ := transfer_arrives hr₁ h hstage hd hhidden
  -- the stage goes
  have hat := at?_removeStage hprepared.plain hr₂ harrived.steady
  have hkeep : ∀ q : Place, q.head? ≠ some s → ¬ R ++ [s] <+: R ++ q := by
    intro q hq hpre
    obtain ⟨rest, rfl⟩ := (List.prefix_append_right_inj R).mp hpre
    exact hq rfl
  refine ⟨_, run_writeFolder_ok hprepare hrun, fun q hq => ?_,
    ⟨fun e he => ?_, fun e he => ?_, fun q hq _ hall => ?_⟩, fun q hq => ?_⟩
  · rw [hat] at hq ⊢
    by_cases hout : R ++ [s] <+: q
    · rw [if_pos hout] at hq
      cases hq
    · rw [if_neg hout] at hq
      rw [if_neg fun hpre => hout (hpre.trans (List.dropLast_prefix q))]
      exact harrived.steady.tree q hq
  · obtain ⟨f, hf, rfl⟩ := List.mem_map.mp he
    have hne := (safePath_eq_ok_iff.mp (hd.safe f.1 (Keyed.mem_keys hf))).2.2.2
    rw [ne_eq, List.head?_eq_none_iff]
    exact hne
  · rw [hat, if_neg (hkeep _ (harrived.holds.shown e he))]
    exact harrived.holds.files e he
  · rw [hat]
    by_cases hhead : q.head? = some s
    · obtain ⟨rest, rfl⟩ := List.head?_eq_some_iff.mp hhead
      exact if_pos ((List.prefix_append_right_inj R).mpr (by simp))
    · rw [if_neg (hkeep q hhead)]
      exact harrived.holds.nothing q hq hhead hall
  · have hout : ¬ R ++ [s] <+: q := by
      intro hpre
      refine hq ⟨(List.prefix_append R [s]).trans hpre, ?_⟩
      rintro rfl
      have hle := hpre.length_le
      rw [List.length_append, List.length_singleton] at hle
      omega
    rw [hat, if_neg hout]
    by_cases hR : q = R
    · rw [hR, harrived.steady.leads.directory, h.leads.directory]
    · rw [harrived.outside q fun hpre => hq ⟨hpre, hR⟩, hstage.outside q hq]

end Empty

end ControlSurface.Delivery
