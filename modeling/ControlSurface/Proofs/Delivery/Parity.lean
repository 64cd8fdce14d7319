/-
  ControlSurface.Proofs.Delivery.Parity
  ─────────────────────────────────────
  A bundle as an archive and as files in an empty directory.  A path that leads out of the bundle is
  refused in both forms.  Every other bundle whose paths are not too long becomes an archive; in a
  directory it arrives exactly if the file system takes its names and no path leads through another
  one, and then both hold the same.

  Main results:
    * `transfer_reports` — staging and moving fail with a fault that is reported.
    * `deliverable_of_transfer` — what arrives has paths that are apart.
    * `archive_eq_ok_iff` — what becomes an archive.
    * `archive_folder_agree` — what an archive and a directory of one bundle come to.
    * `spelledTwice_differs` — two fonts whose paths lead to one place become an archive and do not
      arrive in a directory.
-/
import Mathlib.Data.List.TakeWhile
import ControlSurface.Proofs.Delivery.AllOrNothing
import ControlSurface.Proofs.Delivery.Arriving

namespace ControlSurface.Delivery

open Disk FileSystem Rehearsal

/-! ## §1. Faults of a delivery. -/

section Reporting

variable {α β : Type}

/-- A fault that a delivery reports: one of the file system, or a path that leads out of the
bundle. -/
def IsReported (e : Fault) : Prop := e.isFileFault = true ∨ ∃ name, e = .outsideBundle name

/-- A program that fails with such a fault only. -/
def Reports (x : ExceptT Fault Run α) : Prop :=
  ∀ r, Yields x r fun outcome _ => ∀ e, outcome = .error e → IsReported e

/-- A program with a record that fails with such a fault only. -/
def ReportsMoving (x : Moving Run α) : Prop :=
  ∀ moves r, Leaves x moves r fun outcome _ _ => ∀ e, outcome = .error e → IsReported e

theorem reports_ask {c : FileCall α} (h : FailsOnDisk c) : Reports (ask c : ExceptT Fault Run α) :=
  fun r => yields_ask fun e he => Or.inl (h r e he)

theorem reports_bind {x : ExceptT Fault Run α} {f : α → ExceptT Fault Run β} (hx : Reports x)
    (hf : ∀ a, Reports (f a)) : Reports (x >>= f) := by
  intro r
  refine yields_bind (yields_imp (hx r) ?_)
  intro outcome r' hreported
  cases outcome with
  | ok a => exact hf a r'
  | error e =>
    intro e' he
    cases he
    exact hreported e rfl

theorem reportsMoving_ask {c : FileCall α} (h : FailsOnDisk c) :
    ReportsMoving (askMoving c : Moving Run α) :=
  fun _ r => leaves_ask fun e he => Or.inl (h r e he)

theorem reportsMoving_pure (a : α) : ReportsMoving (pure a : Moving Run α) :=
  fun _ _ => leaves_pure (x := .ok a) fun _ he => nomatch he

theorem reportsMoving_modify (f : Moves → Moves) : ReportsMoving (modify f : Moving Run PUnit) :=
  fun _ _ => leaves_modify fun _ he => nomatch he

theorem reportsMoving_bind {x : Moving Run α} {f : α → Moving Run β} (hx : ReportsMoving x)
    (hf : ∀ a, ReportsMoving (f a)) : ReportsMoving (x >>= f) := by
  intro moves r
  refine leaves_bind (leaves_imp (hx moves r) ?_)
  intro outcome moves' r' hreported
  cases outcome with
  | ok a => exact hf a moves' r'
  | error e =>
    intro e' he
    cases he
    exact hreported e rfl

end Reporting

section Names

variable {root stage : Path} {s : String} {files : Bundle.Files} {r r' : Rehearsal}

/-- No name of a file holds the character that ends names. -/
def WithoutNul (files : Bundle.Files) : Prop := ∀ name ∈ Keyed.keys files, '\x00' ∉ name.toList

theorem hasNul_below_eq_false {p : Path} {names : List String} (hp : hasNul p = false)
    (hnames : ∀ n ∈ names, '\x00' ∉ n.toList) : hasNul (below p names) = false := by
  rw [hasNul, List.any_eq_false] at hp ⊢
  intro name hname
  rcases List.mem_append.mp hname with hname | hname
  · exact hp name hname
  · simpa using hnames name hname

/-- The characters of the names of a path are those of its text. -/
theorem nul_not_mem_parts {name : String} (h : '\x00' ∉ name.toList) :
    ∀ n ∈ parts name, '\x00' ∉ n.toList := by
  intro n hn
  obtain ⟨piece, hpiece, rfl⟩ := List.mem_map.mp (List.mem_of_mem_filter hn)
  rw [String.toList_ofList]
  have hall : ∀ c ∈ name.toList, c ≠ '\x00' := by
    rintro c hc rfl
    exact h hc
  exact fun hmem => Text.of_mem_splitAt hall piece hpiece _ hmem rfl

theorem fault_of_safePath {name : String} {e : Fault} (h : safePath name = .error e) :
    e = .outsideBundle name := by
  unfold safePath at h
  dsimp only at h
  split at h
  next =>
    cases h
    rfl
  next => cases h

theorem reports_stageFiles (hstage : hasNul stage = false) (hfiles : WithoutNul files) :
    Reports (stageFiles stage files) := by
  induction files with
  | nil => exact fun r => yields_pure (x := .ok ()) fun _ he => nomatch he
  | cons file rest ih =>
    obtain ⟨name, content⟩ := file
    have hrest : WithoutNul rest := fun n hn => hfiles n (List.mem_cons_of_mem _ hn)
    intro r
    refine yields_bind (yields_pure ?_)
    cases hsafe : safePath name with
    | error e =>
      intro e' he
      cases he
      exact Or.inr ⟨name, fault_of_safePath hsafe⟩
    | ok relative =>
      obtain ⟨rfl, _⟩ := safePath_eq_ok_iff.mp hsafe
      have hfile : hasNul (stage.join ⟨"", parts name⟩) = false :=
        hasNul_below_eq_false hstage (nul_not_mem_parts (hfiles name (List.mem_cons_self ..)))
      have hdoor : hasNul (stage.join ⟨"", parts name⟩).parent = false :=
        hasNul_of_subset hfile (List.dropLast_subset _)
      exact reports_bind (reports_ask (failsOnDisk_makeDirectories hdoor))
        (fun _ => reports_bind (reports_ask (failsOnDisk_write hfile content)) fun _ => ih hrest) r

theorem reportsMoving_moveFile (hroot : hasNul root = false) (hs : IsPlain s) {name : String}
    (hname : '\x00' ∉ name.toList) : ReportsMoving (moveFile root (below root [s]) name) := by
  intro moves r
  refine leaves_bind (leaves_pure ?_)
  cases hsafe : safePath name with
  | error e =>
    intro e' he
    cases he
    exact Or.inr ⟨name, fault_of_safePath hsafe⟩
  | ok relative =>
    obtain ⟨rfl, _⟩ := safePath_eq_ok_iff.mp hsafe
    -- all paths are made of the names of the path where an old item is kept
    have hkept : hasNul (below root (s :: backupName :: parts name)) = false := by
      refine hasNul_below_eq_false hroot (List.forall_mem_cons.mpr ⟨?_, ?_⟩)
      · simpa using hs.noNul
      · exact List.forall_mem_cons.mpr ⟨by decide, nul_not_mem_parts hname⟩
    have hpart : ∀ names, names ⊆ s :: backupName :: parts name →
        hasNul (below root names) = false := by
      intro names hnames
      apply hasNul_of_subset hkept
      exact List.append_subset.mpr
        ⟨List.subset_append_left _ _, List.subset_append_of_subset_right _ hnames⟩
    have hfinal : hasNul (below root (parts name)) = false := hpart _ (by simp)
    have hstaged : hasNul ((below root [s]).join ⟨"", parts name⟩) = false := by
      rw [staged_path]
      exact hpart _ (by simp)
    have hbackup : hasNul ((backups (below root [s])).join ⟨"", parts name⟩) = false := by
      rw [backup_path]
      exact hkept
    have haside : ReportsMoving
        (putAside (below root [s]) (below root (parts name)) ⟨"", parts name⟩) := by
      refine reportsMoving_bind (reportsMoving_ask (failsOnDisk_look _)) fun found => ?_
      cases found with
      | none => exact reportsMoving_pure _
      | some _ =>
        refine reportsMoving_bind (reportsMoving_ask (failsOnDisk_makeDirectories ?_)) fun _ => ?_
        · exact hasNul_of_subset hbackup (List.dropLast_subset _)
        · exact reportsMoving_bind (reportsMoving_ask (failsOnDisk_move hfinal hbackup))
            fun _ => reportsMoving_pure _
    refine reportsMoving_bind (reportsMoving_ask (failsOnDisk_makeDirectories ?_))
      (fun _ => reportsMoving_bind haside fun backup => reportsMoving_bind
        (reportsMoving_modify _) fun _ => reportsMoving_ask (failsOnDisk_move hstaged hfinal))
      moves r
    exact hasNul_of_subset hfinal (List.dropLast_subset _)

theorem reportsMoving_moveFiles (hroot : hasNul root = false) (hs : IsPlain s) {names : List String}
    (hnames : ∀ name ∈ names, '\x00' ∉ name.toList) :
    ReportsMoving (moveFiles root (below root [s]) names) := by
  induction names with
  | nil => exact reportsMoving_pure _
  | cons name names ih =>
    obtain ⟨hname, hnames⟩ := List.forall_mem_cons.mp hnames
    exact reportsMoving_bind (reportsMoving_moveFile hroot hs hname) fun _ => ih hnames

/-- **Staging and moving fail with a fault that is reported**, unless a name holds the character that
ends names. -/
theorem transfer_reports (hroot : hasNul root = false) (hs : IsPlain s) (hfiles : WithoutNul files)
    {e : Fault} {moves : Moves}
    (hrun : (transfer files root (below root [s]) : Run _) r = ((.error e, moves), r')) :
    IsReported e := by
  have hstage : hasNul (below root [s]) = false :=
    hasNul_below_eq_false hroot (List.forall_mem_singleton.mpr (by simpa using hs.noNul))
  refine of_transfer (P := fun outcome _ _ => ∀ e, outcome = .error e → IsReported e) hrun
    (yields_imp (reports_stageFiles hstage hfiles r) fun staged r₁ hstaging => ?_) e rfl
  cases staged with
  | error e => exact hstaging
  | ok _ => exact reportsMoving_moveFiles hroot hs hfiles [] r₁

end Names

/-! ## §2. What arrives. -/

/-- A delivery some of whose files are not on the stage any more. -/
structure Emptied (b d : Disk) (root : Path) (R : Place) (s : String) (gone : List Place) :
    Prop where
  steady : Steady b d root R s
  gone : ∀ y ∈ gone, d.at? (R ++ s :: y) = none

section Emptying

variable {b d d' : Disk} {root : Path} {R source target : Place} {s : String}
  {names : List (List String)} {gone : List Place} {x : Place} {moves : Moves} {r : Rehearsal}

theorem Emptied.built (h : Emptied b d root R s gone) {z : Place} (hb : Built d d' (way R z))
    (hz : ".." ∉ z) (hnot : ∀ y ∈ gone, ¬ s :: y <+: z) : Emptied b d' root R s gone := by
  refine ⟨h.steady.built hb, fun y hy => ?_⟩
  rw [hb.unchanged, h.gone y hy]
  intro hmem
  have hup := (mem_way_down hz hmem).2
  exact absurd ((List.prefix_append_right_inj R).mp hup) (hnot y hy)

theorem Emptied.carried (h : Emptied b d root R s gone) (site : Site b root R s names)
    (hx : x ∈ names) (hsource : Owns R s x source) (htarget : Owns R s x target)
    (hc : Carried d d' source target) (hnot : ∀ y ∈ gone, ¬ target <+: R ++ s :: y) :
    Emptied b d' root R s gone := by
  refine ⟨h.steady.carried site hx hsource htarget hc, fun y hy => ?_⟩
  by_cases hbelow : source <+: R ++ s :: y
  · exact hc.source _ hbelow (hnot y hy)
  · rw [hc.elsewhere _ hbelow (hnot y hy), h.gone y hy]

/-- Putting aside what stands at a final place brings nothing back to the stage. -/
theorem putAside_empties (site : Site b root R s names) (hx : x ∈ names)
    (hgone : ∀ y ∈ gone, y ∈ names) (h : Emptied b r.disk root R s gone) :
    Leaves (putAside (below root [s]) (below root x) ⟨"", x⟩) moves r fun outcome _ r' =>
      ∀ backup, outcome = .ok backup → Emptied b r'.disk root R s gone := by
  have hplain := site.plain_kept hx
  refine leaves_bind (leaves_ask ?_)
  obtain ⟨hdisk, _⟩ := look_spec (below root x) r
  generalize onDisk (.look (below root x)) r = answered at hdisk
  obtain ⟨answer, r₁⟩ := answered
  dsimp only at hdisk
  rw [← hdisk] at h
  cases answer with
  | error e => exact fun _ hok => nomatch hok
  | ok found =>
    cases found with
    | none => exact leaves_pure (x := .ok none) fun _ _ => h
    | some kind =>
      show Leaves (askMoving (.makeDirectories
          ((backups (below root [s])).join ⟨"", x⟩).parent) >>= fun _ =>
        askMoving (.move (below root x) ((backups (below root [s])).join ⟨"", x⟩)) >>= fun _ =>
          pure (some ((backups (below root [s])).join ⟨"", x⟩))) moves r₁ _
      rw [backup_path, parent_below root (List.cons_ne_nil _ _)]
      refine leaves_bind (leaves_built h.steady.leads h.steady.tree (down_dropLast hplain) ?_ ?_)
      · intro r₂ hbuilt _
        have h₂ : Emptied b r₂.disk root R s gone := by
          apply h.built hbuilt (down_dropLast hplain)
          intro y hy hpre
          have hpre := (hpre.trans (List.dropLast_prefix _))
          exact site.not_above_backup (hgone y hy) (List.cons_prefix_cons.mp hpre).2
        refine leaves_bind (leaves_move h₂.steady.leads h₂.steady.tree
          (down_of_plain (site.plain x hx)) (down_of_plain hplain) (List.cons_ne_nil _ _)
          (kept_ne s x).symm ?_ ?_)
        · intro r₃ hc _
          refine leaves_pure (x := .ok (some _)) fun _ _ => ?_
          exact h₂.carried site hx .final .keeping hc fun y hy =>
            (site.waiting_apart hx (hgone y hy)).2
        · exact fun _ _ _ _ hok => nomatch hok
      · exact fun _ _ _ _ hok => nomatch hok

/-- **A file that is moved** was on the stage until then, and is not there any more. -/
theorem moveFile_empties (site : Site b root R s names) {name : String}
    (hsafe : safePath name = .ok ⟨"", x⟩) (hx : x ∈ names) (hgone : ∀ y ∈ gone, y ∈ names)
    (h : Emptied b r.disk root R s gone) :
    Leaves (moveFile root (below root [s]) name) moves r fun outcome _ r' =>
      outcome = .ok () → x ∉ gone ∧ Emptied b r'.disk root R s (x :: gone) := by
  have hplain := site.plain x hx
  refine leaves_moveFile hsafe (site.nonempty x hx) ?_
  refine leaves_bind (leaves_built h.steady.leads h.steady.tree (down_dropLast hplain) ?_ ?_)
  · intro r₁ hbuilt _
    have h₁ : Emptied b r₁.disk root R s gone := by
      apply h.built hbuilt (down_dropLast hplain)
      intro y hy hpre
      have hpre : s :: y <+: x ++ [] := by
        rw [List.append_nil]
        exact hpre.trans (List.dropLast_prefix x)
      exact site.stage_not_above hx hpre
    refine leaves_bind (leaves_imp (putAside_empties site hx hgone h₁) ?_)
    intro outcome entries r₂ haside
    cases outcome with
    | error e => exact fun hok => nomatch hok
    | ok backup =>
      have h₂ := haside backup rfl
      have hstaged : ∀ n ∈ s :: x, IsPlain n := List.forall_mem_cons.mpr ⟨site.stage, hplain⟩
      refine leaves_bind (leaves_modify ?_)
      refine leaves_move h₂.steady.leads h₂.steady.tree (down_of_plain hstaged)
        (down_of_plain hplain) (site.nonempty x hx) (List.cons_ne_self s x) ?_ ?_
      · intro r₃ hc hsome _
        have hapart : ∀ y ∈ names, ¬ R ++ x <+: R ++ s :: y := fun y hy =>
          (site.waiting_apart (z := []) hx hy).1
        have h₃ := h₂.carried site hx .waiting .final hc fun y hy => hapart y (hgone y hy)
        refine ⟨fun hmem => ?_, h₃.steady, List.forall_mem_cons.mpr ⟨?_, h₃.gone⟩⟩
        · rw [h₂.gone x hmem] at hsome
          cases hsome
        · exact hc.source _ (List.prefix_refl _) (hapart x hx)
      · exact fun _ _ _ hok => nomatch hok
  · exact fun _ _ _ hok => nomatch hok

/-- **No path is moved twice.** -/
theorem moveFiles_empties (site : Site b root R s names) (files : List String)
    {gone : List Place} {moves : Moves} {r : Rehearsal}
    (hsafe : ∀ name ∈ files, safePath name = .ok ⟨"", parts name⟩)
    (hnames : ∀ name ∈ files, parts name ∈ names) (hgone : ∀ y ∈ gone, y ∈ names)
    (h : Emptied b r.disk root R s gone) :
    Leaves (moveFiles root (below root [s]) files) moves r fun outcome _ _ =>
      outcome = .ok () → (∀ name ∈ files, parts name ∉ gone) ∧ (files.map parts).Nodup := by
  induction files generalizing gone moves r with
  | nil => exact fun _ => ⟨by simp, by simp⟩
  | cons name rest ih =>
    obtain ⟨hname, hrest⟩ := List.forall_mem_cons.mp hnames
    obtain ⟨hfirst, hothers⟩ := List.forall_mem_cons.mp hsafe
    refine leaves_bind (leaves_imp (moveFile_empties site hfirst hname hgone h) ?_)
    intro outcome entries r₁ hmoved
    cases outcome with
    | error e => exact fun hok => nomatch hok
    | ok _ =>
      obtain ⟨hnew, h₁⟩ := hmoved rfl
      refine leaves_imp (ih hothers hrest (List.forall_mem_cons.mpr ⟨hname, hgone⟩) h₁) ?_
      intro outcome' entries' r₂ hall hok
      obtain ⟨hout, hnodup⟩ := hall hok
      refine ⟨List.forall_mem_cons.mpr ⟨hnew, fun other hother hmem => ?_⟩, ?_⟩
      · exact hout other hother (List.mem_cons_of_mem _ hmem)
      · refine List.nodup_cons.mpr ⟨fun hmem => ?_, hnodup⟩
        obtain ⟨other, hother, heq⟩ := List.mem_map.mp hmem
        exact hout other hother (heq ▸ List.mem_cons_self ..)

end Emptying

/-- **What arrives is deliverable**: if staging and moving go well, the paths of the bundle are plain
and apart. -/
theorem deliverable_of_transfer {d : Disk} {root : Path} {R : Place} {s : String}
    {files : Bundle.Files} {moves : Moves} {r r' : Rehearsal}
    (h : Prepared d r.disk root (below root [s]) R s) (hhidden : NothingHidden files)
    (hclear : StandsClear r.disk root files)
    (hrun : (transfer files root (below root [s]) : Run _) r = ((.ok (), moves), r')) :
    Deliverable files := by
  have hstaging := stageFiles_yields files
    (⟨rfl, h.tree, h.leads_stage, fun _ _ => rfl⟩ : OnStage r.disk r.disk (below root [s]) _)
  refine of_transfer (P := fun outcome _ _ => outcome = .ok () → Deliverable files) hrun
    (yields_imp hstaging fun staged r₁ hstaging => ?_) rfl
  cases staged with
  | error e => exact fun hok => nomatch hok
  | ok _ =>
    have hall := hstaging.all rfl
    have site := site_of_staged h hstaging.staging.1.tree hall hhidden hclear
    have hstart : Emptied r.disk r₁.disk root R s [] :=
      ⟨(hstaging.staging.1.undoable h.leads h.clear).steady, by simp⟩
    refine leaves_imp (moveFiles_empties site (Keyed.keys files)
      (fun name hname => (hall name hname).safe) (fun name hname => List.mem_map_of_mem hname)
      (fun y hy => absurd hy List.not_mem_nil) hstart) fun _ _ _ hmoved hok => ?_
    obtain ⟨_, hnodup⟩ := hmoved hok
    refine ⟨fun name hname => (hall name hname).safe, fun name hname => (hall name hname).plain, ?_⟩
    -- different files, of which neither lies in the other
    refine hnodup.imp_of_mem ?_
    intro x y hx hy hne
    exact ⟨fun hpre => hne (site.apart x hx y hy hpre),
      fun hpre => hne (site.apart y hy x hx hpre).symm⟩

/-! ## §3. Archives. -/

/-- A name in a path: no part of it is another name. -/
structure IsName (n : String) : Prop where
  whole : '/' ∉ n.toList
  nonempty : n ≠ ""
  notHere : n ≠ "."

theorem isName_of_mem_parts {name n : String} (h : n ∈ parts name) : IsName n := by
  obtain ⟨hmem, hkeep⟩ := List.mem_filter.mp h
  obtain ⟨piece, hpiece, rfl⟩ := List.mem_map.mp hmem
  simp only [Bool.and_eq_true, decide_eq_true_eq] at hkeep
  refine ⟨?_, hkeep.1, hkeep.2⟩
  rw [String.toList_ofList]
  exact Text.not_mem_splitAt name.toList piece hpiece

section Texts

variable {ns : List String}

/-- The text of a relative path. -/
theorem toString_relative (hne : ns ≠ []) (h : ∀ n ∈ ns, IsName n) :
    (⟨"", ns⟩ : Path).toString = "/".intercalate ns
      ∧ Text.split ("/".intercalate ns) "/" = ns := by
  have hwords : ∀ w ∈ ns.map String.toList, '/' ∉ w := by
    intro w hw
    obtain ⟨n, hn, rfl⟩ := List.mem_map.mp hw
    exact (h n hn).whole
  have hsplit : Text.split ("/".intercalate ns) "/" = ns := by
    show (Text.splitAt ['/'] ("/".intercalate ns).toList).map String.ofList = ns
    rw [String.toList_intercalate]
    show (Text.splitAt ['/'] (['/'].intercalate _)).map String.ofList = ns
    rw [Text.splitAt_intercalate (by simpa using hne) hwords, List.map_map]
    exact List.map_id'' (fun n => String.ofList_toList) ns
  refine ⟨?_, hsplit⟩
  show (if "" ++ "/".intercalate ns = "" then "." else "" ++ "/".intercalate ns) = _
  rw [String.empty_append, if_neg]
  -- an empty text has one name, which is empty
  intro hempty
  rw [hempty] at hsplit
  have hone : ns = [""] := hsplit.symm
  exact (h "" (hone ▸ List.mem_singleton.mpr rfl)).nonempty rfl

/-- A text that does not begin with a slash is a relative path. -/
theorem rootOf_eq_empty {c : Char} (h : c ≠ '/') (cs : List Char) : Path.rootOf (c :: cs) = "" := by
  unfold Path.rootOf
  split
  next heq => exact absurd (List.cons.inj heq).1 h
  next heq => exact absurd (List.cons.inj heq).1 h
  next heq => exact absurd (List.cons.inj heq).1 h
  next => rfl

/-- **The text of a relative path is read back.** -/
theorem ofString_toString (hne : ns ≠ []) (h : ∀ n ∈ ns, IsName n) :
    Path.ofString (⟨"", ns⟩ : Path).toString = ⟨"", ns⟩ := by
  obtain ⟨htext, hsplit⟩ := toString_relative hne h
  rw [htext]
  have hnames : (Path.ofString ("/".intercalate ns)).names = ns := by
    show (Text.split ("/".intercalate ns) "/").filter _ = ns
    rw [hsplit, List.filter_eq_self]
    intro n hn
    simp [(h n hn).nonempty, (h n hn).notHere]
  have hroot : (Path.ofString ("/".intercalate ns)).root = "" := by
    obtain ⟨n, rest, rfl⟩ := List.exists_cons_of_ne_nil hne
    have hn := h n (List.mem_cons_self ..)
    have hchars : n.toList ≠ [] := by simpa using hn.nonempty
    obtain ⟨c, cs, hcs⟩ := List.exists_cons_of_ne_nil hchars
    have hc : c ≠ '/' := by
      rintro rfl
      exact hn.whole (by simp [hcs])
    have hbegins : ∃ more, ("/".intercalate (n :: rest)).toList = c :: more := by
      rw [String.toList_intercalate, List.map_cons]
      cases rest with
      | nil => exact ⟨cs, by rw [List.map_nil, List.intercalate_singleton, hcs]⟩
      | cons m rest =>
        rw [List.map_cons, List.intercalate_cons_cons, hcs]
        exact ⟨_, rfl⟩
    obtain ⟨more, hmore⟩ := hbegins
    show Path.rootOf ("/".intercalate (n :: rest)).toList = ""
    rw [hmore]
    exact rootOf_eq_empty hc more
  exact congrArg₂ Path.mk hroot hnames

end Texts

/-- The entry of a file whose path stays in the bundle. -/
def entryOf (f : String × Content) : Entry := ⟨beforeNul (⟨"", parts f.1⟩ : Path).toString, f.2⟩

/-- No file has a path that is too long for the headers of an archive. -/
def ShortNames (files : Bundle.Files) : Prop :=
  ∀ f ∈ files, (entryOf f).name.utf8ByteSize ≤ Entry.nameLimit

/-- A file whose path leads out of the bundle. -/
def LeadsOut (files : Bundle.Files) : Prop :=
  ∃ name ∈ Keyed.keys files, ∀ p, safePath name ≠ .ok p

section Archiving

variable {files : Bundle.Files} {name : String} {c : Content}

theorem pack_eq_ok_iff {p : Path} {e : Entry} :
    pack p c = .ok e ↔ (beforeNul p.toString).utf8ByteSize ≤ Entry.nameLimit
      ∧ e = ⟨beforeNul p.toString, c⟩ := by
  rw [pack]
  split
  next hlong =>
    constructor
    · intro h
      cases h
    · rintro ⟨hshort, _⟩
      omega
  next hshort =>
    constructor
    · intro h
      cases h
      exact ⟨by omega, rfl⟩
    · rintro ⟨_, rfl⟩
      rfl

/-- The entry of one file is made exactly if its path stays in the bundle and is not too long. -/
theorem packed_eq_ok_iff {f : String × Content} {e : Entry} :
    (safePath f.1 >>= fun p => pack p f.2) = .ok e ↔
      safePath f.1 = .ok ⟨"", parts f.1⟩ ∧ (entryOf f).name.utf8ByteSize ≤ Entry.nameLimit
        ∧ e = entryOf f := by
  rw [Outcome.bind_eq_ok_iff]
  constructor
  · rintro ⟨p, hp, hpack⟩
    obtain ⟨rfl, _⟩ := safePath_eq_ok_iff.mp hp
    exact ⟨hp, pack_eq_ok_iff.mp hpack⟩
  · rintro ⟨hp, hpack⟩
    exact ⟨_, hp, pack_eq_ok_iff.mpr hpack⟩

/-- **A bundle becomes an archive** exactly if no path leads out of it and none is too long; the
archive has one entry for each file. -/
theorem archive_eq_ok_iff {z : Archive} :
    archive files = .ok z ↔ ¬ LeadsOut files ∧ ShortNames files ∧ z = files.map entryOf := by
  have hall : ¬ LeadsOut files → ShortNames files → archive files = .ok (files.map entryOf) := by
    intro hin hshort
    rw [archive, Outcome.mapM_eq_ok_iff, List.forall₂_map_right_iff, List.forall₂_same]
    intro f hf
    refine packed_eq_ok_iff.mpr ⟨?_, hshort f hf, rfl⟩
    by_contra hnot
    refine hin ⟨f.1, Keyed.mem_keys hf, fun p hp => hnot ?_⟩
    obtain ⟨rfl, _⟩ := safePath_eq_ok_iff.mp hp
    exact hp
  constructor
  · intro h
    have heach : ∀ f ∈ files, safePath f.1 = .ok ⟨"", parts f.1⟩
        ∧ (entryOf f).name.utf8ByteSize ≤ Entry.nameLimit := by
      intro f hf
      obtain ⟨e, he⟩ := Outcome.exists_of_mapM h hf
      obtain ⟨hsafe, hshort, _⟩ := packed_eq_ok_iff.mp he
      exact ⟨hsafe, hshort⟩
    have hin : ¬ LeadsOut files := by
      rintro ⟨name, hname, hout⟩
      obtain ⟨f, hf, rfl⟩ := List.mem_map.mp hname
      exact hout _ (heach f hf).1
    have hshort : ShortNames files := fun f hf => (heach f hf).2
    refine ⟨hin, hshort, ?_⟩
    exact Except.ok.inj (h.symm.trans (hall hin hshort))
  · rintro ⟨hin, hshort, rfl⟩
    exact hall hin hshort

/-- **What an archive is refused for**: a path that leads out of the bundle, or one that is too
long. -/
theorem fault_of_archive {e : Fault} (h : archive files = .error e) :
    (∃ name, e = .outsideBundle name) ∨ ¬ ShortNames files := by
  obtain ⟨f, hf, hfault⟩ := Outcome.exists_of_mapM_error h
  have hfault : (safePath f.1 >>= fun p => pack p f.2) = .error e := hfault
  cases hsafe : safePath f.1 with
  | error e' =>
    rw [hsafe] at hfault
    cases hfault
    exact Or.inl ⟨f.1, fault_of_safePath hsafe⟩
  | ok p =>
    obtain ⟨rfl, _⟩ := safePath_eq_ok_iff.mp hsafe
    refine Or.inr fun hshort => ?_
    have hok := packed_eq_ok_iff.mpr ⟨hsafe, hshort f hf, rfl⟩
    cases hfault.symm.trans hok

theorem beforeNul_eq {t : String} (h : '\x00' ∉ t.toList) : beforeNul t = t := by
  have hall : t.toList.takeWhile (fun c => decide (c ≠ '\x00')) = t.toList := by
    rw [List.takeWhile_eq_self_iff]
    intro c hc
    refine decide_eq_true ?_
    rintro rfl
    exact h hc
  rw [beforeNul, hall, String.ofList_toList]

/-- **The path of an entry** is that of its file. -/
theorem ofString_entryOf (hne : parts name ≠ []) (hplain : ∀ n ∈ parts name, IsPlain n) :
    Path.ofString (entryOf (name, c)).name = ⟨"", parts name⟩ := by
  have hnames : ∀ n ∈ parts name, IsName n := fun n hn => isName_of_mem_parts hn
  have hnul : '\x00' ∉ (⟨"", parts name⟩ : Path).toString.toList := by
    rw [(toString_relative hne hnames).1, String.toList_intercalate]
    have hwords : ∀ w ∈ (parts name).map String.toList, ∀ c ∈ w, c ≠ '\x00' := by
      intro w hw c hc
      obtain ⟨n, hn, rfl⟩ := List.mem_map.mp hw
      rintro rfl
      have := (hplain n hn).noNul
      simp [hc] at this
    intro hmem
    have hslash : ∀ c ∈ "/".toList, c ≠ '\x00' := by simp
    exact Text.of_mem_joinWith hslash hwords _ hmem rfl
  rw [entryOf, beforeNul_eq hnul]
  exact ofString_toString hne hnames

theorem Deliverable.place_entryOf (hd : Deliverable files) (hf : (name, c) ∈ files) :
    safePath (entryOf (name, c)).name = .ok ⟨"", parts name⟩
      ∧ parts (entryOf (name, c)).name = parts name := by
  have hname := Keyed.mem_keys hf
  obtain ⟨_, _, hdown, hne⟩ := safePath_eq_ok_iff.mp (hd.safe name hname)
  have hpath := ofString_entryOf (c := c) hne (hd.plain name hname)
  have hparts : parts (entryOf (name, c)).name = parts name := by
    rw [parts, hpath]
  refine ⟨safePath_eq_ok_iff.mpr ?_, hparts⟩
  rw [hparts, hpath]
  exact ⟨rfl, rfl, hdown, hne⟩

end Archiving

/-! ## §4. Both. -/

/-- The files that unpacking an archive leaves; of two entries with one path the later one counts. -/
def unpacked (z : Archive) : List (Place × Content) :=
  Keyed.ofList (z.map fun e => (parts e.name, e.content))

/-- An archive and a directory that hold the same files of a bundle; `d` is the disk before, `d'` the
one after. -/
structure SameByBoth (d d' : Disk) (R : Place) (files : Bundle.Files) (z : Archive) : Prop where
  /-- The archive has one entry for each file, in order. -/
  entries : List.Forall₂ (fun f e => parts e.name = parts f.1 ∧ e.content = f.2) files z
  /-- The path of an entry leads down from where the archive is unpacked. -/
  inside : ∀ e ∈ z, safePath e.name = .ok ⟨"", parts e.name⟩
  /-- The files below the directory are those that the archive unpacks to. -/
  files : ∀ x, d'.content? (R ++ x) = Keyed.find? x (unpacked z)
  /-- The directories below it are those that lead to such files. -/
  directories : ∀ x, x ≠ [] →
    (d'.at? (R ++ x) = some .directory ↔ ∃ e ∈ z, x <+: parts e.name ∧ x ≠ parts e.name)
  /-- Everything else is as before. -/
  outside : ∀ q, ¬ (R <+: q ∧ q ≠ R) → d'.at? q = d.at? q

section Same

variable {d d' : Disk} {R : Place} {files : Bundle.Files}

theorem Apart.ne {x y : List String} (h : Apart x y) : x ≠ y := by
  rintro rfl
  exact h.1 (List.prefix_refl x)

theorem unpacked_entries (hd : Deliverable files) : unpacked (files.map entryOf) = placed files := by
  have hplaces : (files.map entryOf).map (fun e => (parts e.name, e.content)) = placed files := by
    rw [List.map_map, placed]
    refine List.map_congr_left ?_
    rintro ⟨name, c⟩ hf
    show (parts (entryOf (name, c)).name, c) = (parts name, c)
    rw [(hd.place_entryOf hf).2]
  rw [unpacked, hplaces, Keyed.ofList_of_nodup]
  show ((placed files).map Prod.fst).Nodup
  rw [keys_placed]
  exact hd.apart.imp Apart.ne

/-- **A directory that holds the files of a bundle** holds what its archive unpacks to. -/
theorem sameByBoth_of_holds (hd : Deliverable files) (hR : d'.at? R = some .directory)
    (htree : d'.IsTree) (h : Holds d' R none (placed files))
    (hout : ∀ q, ¬ (R <+: q ∧ q ≠ R) → d'.at? q = d.at? q) :
    SameByBoth d d' R files (files.map entryOf) := by
  have hparts : ∀ f ∈ files, parts (entryOf f).name = parts f.1 := fun f hf =>
    (hd.place_entryOf hf).2
  -- a place on the way to a file is a directory, one that is not holds nothing
  have hway : ∀ e ∈ placed files, ∀ x, x <+: e.1 → x ≠ e.1 →
      d'.at? (R ++ x) = some .directory := by
    intro e he x hpre hne
    refine htree.above ?_ ((List.prefix_append_right_inj R).mpr hpre) fun heq => ?_
    · rw [h.files e he]
      rfl
    · exact hne (List.append_cancel_left heq)
  refine ⟨?_, ?_, fun x => ?_, fun x hx => ?_, hout⟩
  · rw [List.forall₂_map_right_iff, List.forall₂_same]
    exact fun f hf => ⟨hparts f hf, rfl⟩
  · intro e he
    obtain ⟨f, hf, rfl⟩ := List.mem_map.mp he
    rw [hparts f hf]
    exact (hd.place_entryOf hf).1
  · rw [unpacked_entries hd]
    cases hfind : Keyed.find? x (placed files) with
    | some c =>
      rw [content?, h.files (x, c) (Keyed.exists_of_find? hfind)]
    | none =>
      have hnot := Keyed.find?_eq_none_iff.mp hfind
      by_cases hx : x = []
      · rw [hx, List.append_nil]
        exact content?_of_directory hR
      · by_cases hlead : ∃ e ∈ placed files, x <+: e.1
        · obtain ⟨e, he, hpre⟩ := hlead
          exact content?_of_directory (hway e he x hpre (hnot e he).symm)
        · refine content?_of_none (h.nothing x hx ?_ fun e he hpre => hlead ⟨e, he, hpre⟩)
          simpa using hx
  · constructor
    · intro hdir
      by_contra hlead
      have hnone : d'.at? (R ++ x) = none := by
        refine h.nothing x hx (by simpa using hx) fun e he hpre => hlead ?_
        obtain ⟨f, hf, rfl⟩ := List.mem_map.mp he
        refine ⟨entryOf f, List.mem_map.mpr ⟨f, hf, rfl⟩, ?_, ?_⟩
        · rw [hparts f hf]
          exact hpre
        · rw [hparts f hf]
          rintro rfl
          rw [h.files _ he] at hdir
          cases hdir
      rw [hdir] at hnone
      cases hnone
    · rintro ⟨e, he, hpre, hne⟩
      obtain ⟨f, hf, rfl⟩ := List.mem_map.mp he
      rw [hparts f hf] at hpre hne
      exact hway (parts f.1, f.2) (List.mem_map.mpr ⟨f, hf, rfl⟩) x hpre hne

end Same

/-! ## §5. Agreement. -/

section Agreement

variable {files : Bundle.Files} {root stage : Path} {R : Place} {r r₁ r₂ : Rehearsal}

/-- What a delivery comes to that goes wrong. -/
theorem exists_run_writeFolder {moves : Moves} {e : Fault}
    (hprepare : (prepareStage root : ExceptT Fault Run Path).run r = (.ok stage, r₁))
    (hrun : (transfer files root stage : Run _) r₁ = ((.error e, moves), r₂)) :
    ∃ r', (writeFolder files root : ExceptT Fault Run Path).run r
      = (.error (deliveryFault root e), r') := by
  cases hundone : isUndone e with
  | true => exact ⟨_, run_writeFolder hprepare hrun hundone⟩
  | false =>
    refine ⟨r₂, ?_⟩
    unfold writeFolder
    rw [run_bind, hprepare]
    simp only
    rw [run_bind, run_liftM, hrun]
    simp only [hundone]
    rfl

/-- The bundle arrives in the directory. -/
def Arrives (files : Bundle.Files) (root : Path) (r : Rehearsal) : Prop :=
  ∃ r', (writeFolder files root : ExceptT Fault Run Path).run r = (.ok root, r')

/-- The delivery to the directory fails, and says so. -/
def Refuses (files : Bundle.Files) (root : Path) (r : Rehearsal) : Prop :=
  ∃ e r', (writeFolder files root : ExceptT Fault Run Path).run r = (.error e, r')
    ∧ (e = .deliveryFailed root.toString ∨ ∃ name, e = .outsideBundle name)

/-- A delivery to an empty directory that goes wrong. -/
theorem exists_fault_of_not_deliverable (hr : r.failsAfter = none)
    (h : EmptyDirectory r.disk root R) (hhidden : NothingHidden files)
    (hpaths : ∀ name ∈ Keyed.keys files, parts name ≠ []) (hd : ¬ Deliverable files) :
    ∃ e r', (writeFolder files root : ExceptT Fault Run Path).run r
        = (.error (deliveryFault root e), r') ∧ (WithoutNul files → IsReported e) := by
  obtain ⟨s, r₁, hprepare, hr₁, hprepared, hbuilt⟩ := prepareStage_arrives hr h
  obtain ⟨outcome, moves, r₂, hrun⟩ : ∃ outcome moves r₂,
      (transfer files root (below root [s]) : Run _) r₁ = ((outcome, moves), r₂) := ⟨_, _, _, rfl⟩
  cases outcome with
  | ok _ =>
    have hclear := h.standsClear hprepared.here hpaths
    exact absurd (deliverable_of_transfer hprepared hhidden hclear hrun) hd
  | error e =>
    obtain ⟨r', hfails⟩ := exists_run_writeFolder hprepare hrun
    refine ⟨e, r', hfails, fun hnul => ?_⟩
    have hroot := ((place_eq_ok_iff _).mp h.leads.place).1
    exact transfer_reports hroot hprepared.plain hnul hrun

/-- What a delivery says of a fault that it reports. -/
theorem deliveryFault_of_isReported {e : Fault} (h : IsReported e) :
    deliveryFault root e = .deliveryFailed root.toString
      ∨ ∃ name, deliveryFault root e = .outsideBundle name := by
  rcases h with hfile | ⟨name, rfl⟩
  · left
    rw [deliveryFault, if_pos hfile]
  · exact Or.inr ⟨name, rfl⟩

/-- **What arrives in an empty directory** are the bundles that can be delivered. -/
theorem arrives_iff (hr : r.failsAfter = none) (h : EmptyDirectory r.disk root R)
    (hhidden : NothingHidden files) (hpaths : ∀ name ∈ Keyed.keys files, parts name ≠ []) :
    Arrives files root r ↔ Deliverable files := by
  constructor
  · rintro ⟨r', hrun⟩
    by_contra hd
    obtain ⟨e, r'', hfails, _⟩ := exists_fault_of_not_deliverable hr h hhidden hpaths hd
    cases hrun.symm.trans hfails
  · intro hd
    obtain ⟨r', hrun, _⟩ := writeFolder_arrives hr h hd hhidden
    exact ⟨r', hrun⟩

/-- **What an archive unpacks to is what the directory holds**, if there are both. -/
theorem sameByBoth_of_runs (hr : r.failsAfter = none) (h : EmptyDirectory r.disk root R)
    (hhidden : NothingHidden files) (hpaths : ∀ name ∈ Keyed.keys files, parts name ≠ [])
    {z : Archive} {r' : Rehearsal} (hz : archive files = .ok z)
    (hrun : (writeFolder files root : ExceptT Fault Run Path).run r = (.ok root, r')) :
    SameByBoth r.disk r'.disk R files z := by
  obtain ⟨_, _, rfl⟩ := archive_eq_ok_iff.mp hz
  have hd := (arrives_iff hr h hhidden hpaths).mp ⟨r', hrun⟩
  obtain ⟨r'', hrun', htree, hholds, hout⟩ := writeFolder_arrives hr h hd hhidden
  cases hrun.symm.trans hrun'
  refine sameByBoth_of_holds hd ?_ htree hholds hout
  rw [hout R fun hbelow => hbelow.2 rfl]
  exact h.leads.directory

theorem Deliverable.not_leadsOut (hd : Deliverable files) : ¬ LeadsOut files := by
  rintro ⟨name, hname, hout⟩
  exact hout _ (hd.safe name hname)

/-- **A path that leads out of the bundle** is refused in both forms. -/
theorem refused_of_leadsOut (hr : r.failsAfter = none) (h : EmptyDirectory r.disk root R)
    (hhidden : NothingHidden files) (hpaths : ∀ name ∈ Keyed.keys files, parts name ≠ [])
    (hshort : ShortNames files) (hnul : WithoutNul files) (hout : LeadsOut files) :
    (∃ name, archive files = .error (.outsideBundle name)) ∧ Refuses files root r := by
  constructor
  · cases hz : archive files with
    | ok z => exact absurd hout (archive_eq_ok_iff.mp hz).1
    | error e =>
      rcases fault_of_archive hz with ⟨name, rfl⟩ | hlong
      · exact ⟨name, rfl⟩
      · exact absurd hshort hlong
  · obtain ⟨e, r', hfails, hreported⟩ :=
      exists_fault_of_not_deliverable hr h hhidden hpaths fun hd => hd.not_leadsOut hout
    exact ⟨_, r', hfails, deliveryFault_of_isReported (hreported hnul)⟩

/-- **A bundle as an archive and in an empty directory.**  If it becomes an archive and arrives in the
directory, both hold the same files, and nothing else is in the directory.  If no path is too long for
an archive, the bundle is delivered in both forms exactly if its paths are plain and none leads
through another one; and it is refused in both forms exactly if a path leads out of it, as long as no
path holds the character that ends names. -/
theorem archive_folder_agree {p : Project} {o : ExportOptions} {windowId : Option String}
    {a : Bundle.Assembly} (h : Bundle.assemble p o windowId = .ok a) {root : Path} {R : Place}
    {r : Rehearsal} (hcalm : r.failsAfter = none) (hempty : EmptyDirectory r.disk root R) :
    (∀ z r', archive a.files = .ok z →
        (writeFolder a.files root : ExceptT Fault Run Path).run r = (.ok root, r') →
        SameByBoth r.disk r'.disk R a.files z)
      ∧ (ShortNames a.files →
        ((∃ z, archive a.files = .ok z) ∧ Arrives a.files root r ↔ Deliverable a.files)
        ∧ (WithoutNul a.files →
          ((∃ name, archive a.files = .error (.outsideBundle name)) ∧ Refuses a.files root r
            ↔ LeadsOut a.files))) := by
  obtain ⟨hpaths, hhidden⟩ := shown_of_assemble h
  have harrives := arrives_iff hcalm hempty hhidden hpaths
  refine ⟨fun z r' => sameByBoth_of_runs hcalm hempty hhidden hpaths,
    fun hshort => ⟨?_, fun hnul => ?_⟩⟩
  · constructor
    · exact fun hboth => harrives.mp hboth.2
    · intro hd
      exact ⟨⟨_, archive_eq_ok_iff.mpr ⟨hd.not_leadsOut, hshort, rfl⟩⟩, harrives.mpr hd⟩
  · constructor
    · rintro ⟨⟨name, hname⟩, _⟩
      by_contra hin
      -- all that stays in the bundle becomes an archive
      cases hname.symm.trans (archive_eq_ok_iff.mpr ⟨hin, hshort, rfl⟩)
    · exact refused_of_leadsOut hcalm hempty hhidden hpaths hshort hnul

end Agreement

instance (n : String) : Decidable (IsPlain n) :=
  decidable_of_iff (n ≠ ".." ∧ n.utf8ByteSize ≤ longestName ∧ n.toList.contains '\x00' = false)
    ⟨fun ⟨hdown, hfits, hnul⟩ => ⟨hdown, hfits, hnul⟩, fun h => ⟨h.down, h.fits, h.noNul⟩⟩

instance (x y : List String) : Decidable (Apart x y) :=
  inferInstanceAs (Decidable (¬ x <+: y ∧ ¬ y <+: x))

instance (files : Bundle.Files) : Decidable (Deliverable files) :=
  decidable_of_iff
    ((∀ name ∈ Keyed.keys files, safePath name = .ok ⟨"", parts name⟩)
      ∧ (∀ name ∈ Keyed.keys files, ∀ n ∈ parts name, IsPlain n)
      ∧ ((Keyed.keys files).map parts).Pairwise Apart)
    ⟨fun ⟨hsafe, hplain, hapart⟩ => ⟨hsafe, hplain, hapart⟩,
      fun h => ⟨h.safe, h.plain, h.apart⟩⟩

instance (files : Bundle.Files) : Decidable (ShortNames files) :=
  inferInstanceAs (Decidable (∀ f ∈ files, _))

/-- A directory at which no path of the disk leads further is empty. -/
theorem emptyDirectory_of_entries {d : Disk} {root : Path} {R : Place}
    (htree : ∀ e ∈ d.entries, d.at? e.1.dropLast = some .directory) (hplace : d.place root = .ok R)
    (hdir : d.at? R = some .directory) (h : ∀ e ∈ d.entries, R <+: e.1 → e.1 = R) :
    EmptyDirectory d root R := by
  refine ⟨isTree_of_entries htree, ⟨hplace, hdir⟩, fun q hpre hne => ?_⟩
  have hq : q ≠ [] := by
    rintro rfl
    exact hne (List.prefix_nil.mp hpre).symm
  rw [at?_of_ne_nil d hq, Keyed.find?_eq_none_iff]
  rintro e he rfl
  exact hne (h e he hpre)

theorem emptyDirectory_emptyOut : EmptyDirectory emptyOut.disk out ["out"] :=
  emptyDirectory_of_entries (by decide) (by decide) (by decide) (by decide)

/-- The files of two windows can be delivered. -/
theorem deliverable_empty :
    (Bundle.assemble (Bundle.emptyProject ["Main", "Other"]) Bundle.plainOptions none >>= fun a =>
      .ok (decide (Deliverable a.files) && decide (ShortNames a.files))) = .ok true := by
  rw [Bundle.assemble, Bundle.select_empty]
  show ((Bundle.prepare _ _ >>= _) >>= _) = _
  rw [Bundle.prepare_empty]
  decide +kernel

/-- **Two windows in both forms**: the archive unpacks to what the directory holds. -/
theorem twoWindows_agree :
    ∃ a z r',
      Bundle.assemble (Bundle.emptyProject ["Main", "Other"]) Bundle.plainOptions none = .ok a
      ∧ emptyOut.failsAfter = none ∧ EmptyDirectory emptyOut.disk out ["out"]
      ∧ archive a.files = .ok z
      ∧ (writeFolder a.files out : ExceptT Fault Run Path).run emptyOut = (.ok out, r')
      ∧ SameByBoth emptyOut.disk r'.disk ["out"] a.files z := by
  obtain ⟨a, ha, hrest⟩ := (Outcome.bind_eq_ok_iff _ _ _).mp deliverable_empty
  obtain ⟨hd, hshort⟩ := Bool.and_eq_true_iff.mp (Except.ok.inj hrest)
  obtain ⟨hsame, hforms⟩ := archive_folder_agree ha rfl emptyDirectory_emptyOut
  obtain ⟨⟨z, hz⟩, r', hrun⟩ := (hforms (of_decide_eq_true hshort)).1.mpr (of_decide_eq_true hd)
  exact ⟨a, z, r', ha, rfl, emptyDirectory_emptyOut, hz, hrun, hsame z r' hz hrun⟩

/-- Whether files become an archive but do not arrive in an empty directory. -/
def onlyArchived (files : Bundle.Files) : Bool :=
  (archive files).isOk && decide (((writeFolder files out : ExceptT Fault Run Path).run emptyOut).1
    = .error (.deliveryFailed out.toString))

theorem onlyArchived_spelledTwice :
    (Bundle.assemble spelledTwice Bundle.plainOptions none >>= fun a =>
      .ok (onlyArchived a.files)) = .ok true := by
  have hselected : Bundle.select spelledTwice Bundle.plainOptions none
      = .ok [firstWindow, secondWindow] := rfl
  rw [Bundle.assemble, hselected]
  show ((Bundle.prepare _ _ >>= _) >>= _) = _
  rw [prepare_spelledTwice]
  show ((Bundle.equip _ _ _ >>= _) >>= _) = _
  rw [equip_spelledTwice]
  decide +kernel

/-- **Two fonts whose paths lead to one place** become an archive, but the same bundle does not arrive
in an empty directory. -/
theorem spelledTwice_differs :
    ∃ a z r', Bundle.assemble spelledTwice Bundle.plainOptions none = .ok a
      ∧ emptyOut.failsAfter = none ∧ EmptyDirectory emptyOut.disk out ["out"]
      ∧ archive a.files = .ok z
      ∧ (writeFolder a.files out : ExceptT Fault Run Path).run emptyOut
        = (.error (.deliveryFailed out.toString), r') := by
  obtain ⟨a, ha, hrest⟩ := (Outcome.bind_eq_ok_iff _ _ _).mp onlyArchived_spelledTwice
  obtain ⟨hpacked, hfails⟩ := Bool.and_eq_true_iff.mp (Except.ok.inj hrest)
  obtain ⟨z, hz⟩ := Outcome.exists_of_isOk hpacked
  exact ⟨a, z, _, ha, rfl, emptyDirectory_emptyOut, hz, Prod.ext (of_decide_eq_true hfails) rfl⟩

end ControlSurface.Delivery
