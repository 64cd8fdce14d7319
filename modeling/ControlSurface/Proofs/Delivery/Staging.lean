/-
  ControlSurface.Proofs.Delivery.Staging
  ──────────────────────────────────────
  Staging a bundle.  Whatever happens while files are written on the stage, nothing changes outside
  of it (`stageFiles_yields`); and when all went well, every file of the bundle waits there under
  its name.
-/
import ControlSurface.Delivery.Folder
import ControlSurface.Proofs.Machine.Running

namespace ControlSurface.Delivery

open Disk FileSystem Rehearsal

/-! ## §1. Names of bundle files. -/

/-- The names that lead to a bundle file from where the bundle lies. -/
def parts (name : String) : List String := (Path.ofString name).names

/-- A name is let in iff it leads down from where the bundle lies. -/
theorem safePath_eq_ok_iff {name : String} {p : Path} :
    safePath name = .ok p
      ↔ p = ⟨"", parts name⟩ ∧ (Path.ofString name).isAbsolute = false
        ∧ ".." ∉ parts name ∧ parts name ≠ [] := by
  unfold safePath parts
  have hroot : (Path.ofString name).isAbsolute = false ↔ (Path.ofString name).root = "" := by
    simp [Path.isAbsolute]
  constructor
  · intro h
    simp only at h
    split at h
    · cases h
    next hno =>
      cases h
      simp only [Bool.or_eq_true, not_or, Bool.not_eq_true] at hno
      obtain ⟨⟨habs, hdots⟩, hempty⟩ := hno
      refine ⟨?_, habs, by simpa using hdots, by simpa using hempty⟩
      rw [← hroot.mp habs]
  · rintro ⟨rfl, habs, hdots, hempty⟩
    have hdots : (Path.ofString name).names.contains ".." = false := by simpa using hdots
    have hempty : (Path.ofString name).names.isEmpty = false := by simpa using hempty
    simp only [habs, hdots, hempty, Bool.or_false, Bool.false_eq_true, if_false]
    rw [← hroot.mp habs]

theorem join_eq_below (p : Path) (names : List String) : p.join ⟨"", names⟩ = below p names := rfl

theorem parent_below (p : Path) {names : List String} (h : names ≠ []) :
    (below p names).parent = below p names.dropLast := by
  rw [below, below, Path.parent, List.dropLast_append_of_ne_nil h]

/-! ## §2. The stage. -/

/-- A disk on which only the stage has changed. -/
structure OnStage (b d : Disk) (stage : Path) (S : Place) : Prop where
  here : d.here = b.here
  tree : d.IsTree
  leads : Leads d stage S
  outside : ∀ q, ¬ S <+: q → d.at? q = b.at? q

/-- A file of a bundle waits on the stage. -/
structure Staged (d : Disk) (S : Place) (name : String) : Prop where
  safe : safePath name = .ok ⟨"", parts name⟩
  nonempty : parts name ≠ []
  plain : ∀ n ∈ parts name, IsPlain n
  file : d.HasFile (S ++ parts name)

variable {b d d' : Disk} {stage : Path} {S : Place} {names : List String}

namespace OnStage

/-- Directories are made on the stage only. -/
theorem built (h : OnStage b d stage S) (hdown : ".." ∉ names)
    (hb : Built d d' (d.wayOf (below stage names))) : OnStage b d' stage S := by
  have hway := h.leads.built_below hb
  refine ⟨hb.here.trans h.here, hb.tree, hb.leads h.leads, fun q hq => ?_⟩
  rw [hway.unchanged, h.outside q hq]
  intro hmem
  exact absurd (mem_way_down hdown hmem).1 hq

/-- A file is written on the stage only. -/
theorem wrote (h : OnStage b d stage S) (hdown : ".." ∉ names) (hne : names ≠ [])
    (hw : Wrote d d' (below stage names)) : OnStage b d' stage S := by
  rcases hw with rfl | ⟨q, c, hq, hold, rfl⟩
  · exact h
  · obtain ⟨rfl, _, hdir⟩ := h.leads.place_down hdown hq
    have hroot : S ++ names ≠ [] := by simp [hne]
    have hup : d.at? (S ++ names).dropLast = some .directory := by
      rw [List.dropLast_append_of_ne_nil hne]
      exact hdir hne
    refine ⟨h.here, isTree_set h.tree hroot hup hold _, ?_, fun q hq => ?_⟩
    · -- the file stands where no directory was, so no way is cut
      refine h.leads.keep rfl fun w hw => ?_
      have hthere := h.leads.directories w hw
      rw [at?_set d hroot, if_neg ?_]
      · exact hthere
      · rintro rfl
        exact hold hthere
    · rw [at?_set d hroot, if_neg ?_]
      · exact h.outside q hq
      · rintro rfl
        exact hq (List.prefix_append S names)

end OnStage

theorem Staged.built {ps : List Place} {name : String} (h : Staged d S name)
    (hb : Built d d' ps) : Staged d' S name := by
  obtain ⟨c, hc⟩ := h.file
  exact ⟨h.safe, h.nonempty, h.plain, c, hb.kept hc⟩

/-- A file that is written is there, and every file that was there still is one. -/
theorem Staged.set {name : String} (h : Staged d S name) {q : Place} (hq : q ≠ []) (c : Content) :
    Staged (d.set q (.file c)) S name := by
  refine ⟨h.safe, h.nonempty, h.plain, ?_⟩
  by_cases heq : S ++ parts name = q
  · exact ⟨c, by rw [at?_set d hq, if_pos heq]⟩
  · obtain ⟨c', hc'⟩ := h.file
    exact ⟨c', by rw [at?_set d hq, if_neg heq, hc']⟩

theorem Staged.wrote {name : String} (h : Staged d S name) {p : Path} (hw : Wrote d d' p) :
    Staged d' S name := by
  rcases hw with rfl | ⟨q, c, _, hold, rfl⟩
  · exact h
  · refine h.set ?_ c
    rintro rfl
    exact hold d.at?_nil

/-! ## §3. One file. -/

/-- A machine after a part of staging: only the stage has changed, and on it everything that waited
still waits. -/
def Staging (b : Disk) (stage : Path) (S : Place) (r r' : Rehearsal) : Prop :=
  OnStage b r'.disk stage S ∧ ∀ name, Staged r.disk S name → Staged r'.disk S name

/-- **Writing one file on the stage**, after which staging goes on. -/
theorem stageFile_yields {name : String} (hsafe : safePath name = .ok ⟨"", parts name⟩)
    (content : Content) (rest : ExceptT Fault Run Unit) {r : Rehearsal}
    {post : Except Fault Unit → Rehearsal → Prop} (h : OnStage b r.disk stage S)
    (hrest : ∀ r', Staging b stage S r r' → Staged r'.disk S name → Yields rest r' post)
    (hstop : ∀ e r', Staging b stage S r r' → post (.error e) r') :
    Yields (ask (.makeDirectories (below stage (parts name).dropLast)) >>= fun _ =>
      ask (.write (below stage (parts name)) content) >>= fun _ => rest) r post := by
  obtain ⟨_, _, hdown, hne⟩ := safePath_eq_ok_iff.mp hsafe
  -- the directory of the file
  refine yields_bind (yields_ask ?_)
  obtain ⟨hbuilt, -⟩ := makeDirectories_spec h.tree (below stage (parts name).dropLast)
  generalize onDisk (.makeDirectories (below stage (parts name).dropLast)) r = answered at hbuilt
  obtain ⟨answer, r₁⟩ := answered
  have hon := h.built (fun hmem => hdown (List.mem_of_mem_dropLast hmem)) hbuilt
  have hkept := fun other (hother : Staged r.disk S other) => hother.built hbuilt
  cases answer with
  | error e => exact hstop e r₁ ⟨hon, hkept⟩
  | ok _ =>
    -- the file itself
    refine yields_bind (yields_ask ?_)
    obtain ⟨hwrote, hwritten⟩ := write_spec r₁ (below stage (parts name)) content
    generalize onDisk (.write (below stage (parts name)) content) r₁ = answered at hwrote hwritten
    obtain ⟨answer, r₂⟩ := answered
    have hon₂ := hon.wrote hdown hne hwrote
    have hkept₂ := fun other hother => (hkept other hother).wrote hwrote
    cases answer with
    | error e => exact hstop e r₂ ⟨hon₂, hkept₂⟩
    | ok _ =>
      obtain ⟨q, hq, hold, hset⟩ := write_eq_ok_iff.mp (hwritten rfl)
      obtain ⟨rfl, hplain, _⟩ := hon.leads.place_down hdown hq
      refine hrest r₂ ⟨hon₂, hkept₂⟩ ⟨hsafe, hne, hplain, content, ?_⟩
      rw [hset, at?_set r₁.disk (by simp [hne]), if_pos rfl]

/-! ## §4. All files. -/

/-- What staging leaves: a change of the stage only, on which everything that waited still waits,
and all files if it went well. -/
structure StagingDone (b : Disk) (stage : Path) (S : Place) (files : Bundle.Files) (r : Rehearsal)
    (outcome : Except Fault Unit) (r' : Rehearsal) : Prop where
  staging : Staging b stage S r r'
  all : outcome = .ok () → ∀ name ∈ Keyed.keys files, Staged r'.disk S name

/-- **Staging changes nothing but the stage**, and leaves all files there if it goes well. -/
theorem stageFiles_yields (files : Bundle.Files) {r : Rehearsal}
    (h : OnStage b r.disk stage S) :
    Yields (stageFiles stage files) r (StagingDone b stage S files r) := by
  induction files generalizing r with
  | nil => exact ⟨⟨h, fun _ hname => hname⟩, fun _ name hname => absurd hname List.not_mem_nil⟩
  | cons file rest ih =>
    obtain ⟨name, content⟩ := file
    refine yields_bind (yields_pure ?_)
    cases hsafe : safePath name with
    | error e => exact ⟨⟨h, fun _ hname => hname⟩, fun hok => nomatch hok⟩
    | ok relative =>
      obtain ⟨rfl, _, _, hne⟩ := safePath_eq_ok_iff.mp hsafe
      show Yields (ask (.makeDirectories (below stage (parts name)).parent) >>= fun _ =>
        ask (.write (below stage (parts name)) content) >>= fun _ => stageFiles stage rest) r _
      rw [parent_below stage hne]
      refine stageFile_yields hsafe content _ h ?_ fun e r' hstaging =>
        ⟨hstaging, fun hok => nomatch hok⟩
      rintro r₁ ⟨hon, hkept⟩ hthere
      refine yields_imp (ih hon) fun outcome r' ⟨⟨hon', hkept'⟩, hall⟩ => ⟨⟨hon', ?_⟩, ?_⟩
      · exact fun other hother => hkept' other (hkept other hother)
      · intro hok other hother
        rcases List.mem_cons.mp hother with rfl | hother
        · exact hkept' _ hthere
        · exact hall hok other hother

/-- A call of staging that is made to fail ends it. -/
theorem heeds_stageFiles (stage : Path) (files : Bundle.Files) :
    Heeds (stageFiles stage files) := by
  induction files with
  | nil => exact heeds_of_still fun r => rfl
  | cons file rest ih =>
    refine heeds_bind (heeds_of_still fun r => rfl) fun relative => ?_
    exact heeds_bind (heeds_ask _) fun _ => heeds_bind (heeds_ask _) fun _ => ih

end ControlSurface.Delivery
