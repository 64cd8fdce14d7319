/-
  ControlSurface.Proofs.Settings.Choices
  ──────────────────────────────────────
  What comes of a settings file.  Settings are loaded whatever the file holds, and what is missing in
  it is filled in without changing what the rest says.  The choices about exports can be told unless
  a question of yes or no is answered by something that is no text (`choices_iff`); of the form and
  the target of a bundle every answer is taken.
-/
import ControlSurface.Proofs.CommandLine.Exit

namespace ControlSurface.Settings

open ControlSurface.Outcome ControlSurface.Rehearsal ControlSurface.Value

/-! ## §1. Loading. -/

/-- What a settings file holds: the fields of its object, or nothing if there is no such file or if it
cannot be read as an object. -/
def kept (d : Disk) (p : Path) : Fields :=
  (do ofText (← (← d.read p).string) : Except Fault Fields).toOption.getD []

/-- What fails while a settings file is read is passed over. -/
theorem failsWith_reading (d : Disk) (p : Path) :
    FailsWith (fun e => isPassedOver e = true)
      (do ofText (← (← d.read p).string) : Except Fault Fields) := by
  have hvalue : isPassedOver .badValue = true := rfl
  refine failsWith_bind ((CommandLine.failsWith_read d p).imp ?_) fun content => ?_
  · intro e he
    cases he with
    | inl hfile => rw [isPassedOver, hfile, Bool.true_or]
    | inr hname => exact hname ▸ hvalue
  · refine failsWith_bind ((CommandLine.failsWith_string content).imp ?_) fun text => ?_
    · intro e he
      exact he ▸ hvalue
    · refine failsWith_bind ((Json.failsWith_read text).imp ?_) fun v => ?_
      · intro e he
        cases he with
        | inl hjson => exact hjson ▸ rfl
        | inr hdigits => exact hdigits ▸ hvalue
      · -- a value that is no object counts as an empty one
        split <;> exact failsWith_ok _

/-- A file that is not there cannot be read. -/
theorem kept_of_look {d : Disk} {p : Path} (h : d.look p = none) : kept d p = [] := by
  have hread : ∃ e, d.read p = .error e := by
    unfold Disk.look at h
    cases hplace : d.place p with
    | error e =>
      exact ⟨e, by rw [Disk.read, hplace, error_bind]⟩
    | ok q =>
      rw [hplace] at h
      have hnone : d.at? q = none := Option.map_eq_none_iff.mp h
      refine ⟨.fileNotFound, ?_⟩
      rw [Disk.read, hplace, ok_bind, hnone]
  obtain ⟨e, he⟩ := hread
  rw [kept, he]
  rfl

section Loading

variable {p : Path} {r : Rehearsal}

theorem run_present (h : r.failsAfter = none) (p : Path) :
    (FileSystem.present p : ExceptT Fault Run Bool).run r = (.ok (r.disk.look p).isSome, r) := by
  obtain ⟨disk, failsAfter⟩ := r
  cases h
  rfl

theorem run_read (h : r.failsAfter = none) (p : Path) :
    (FileSystem.ask (.read p) : ExceptT Fault Run Content).run r = (r.disk.read p, r) := by
  obtain ⟨disk, failsAfter⟩ := r
  cases h
  rfl

theorem run_readFile (h : r.failsAfter = none) (p : Path) :
    (readFile p : ExceptT Fault Run Fields).run r
      = (if (r.disk.look p).isSome then (do ofText (← (← r.disk.read p).string)) else .ok [], r) := by
  rw [readFile, run_bind_ok (run_present h p)]
  cases r.disk.look p with
  | none => rfl
  | some kind =>
    have hread := run_read h p
    cases hcontent : r.disk.read p with
    | error e =>
      rw [hcontent] at hread
      exact run_bind_error hread
    | ok content =>
      rw [hcontent] at hread
      exact run_bind_ok hread

/-- **Reading settings never fails**, and finds what the file holds. -/
theorem run_reading (h : r.failsAfter = none) (p : Path) :
    (tryCatch (readFile p) fun e => if isPassedOver e then pure [] else throw e :
      ExceptT Fault Run Fields).run r = (.ok (kept r.disk p), r) := by
  have hpassed := failsWith_reading r.disk p
  rw [run_tryCatch, run_readFile h]
  cases hlook : r.disk.look p with
  | none =>
    rw [kept_of_look hlook]
    rfl
  | some kind =>
    -- the file is there, and what fails from here on leaves nothing
    rw [kept, Option.isSome_some, if_pos rfl]
    cases hread : (do ofText (← (← r.disk.read p).string) : Except Fault Fields) with
    | ok fields => rfl
    | error e =>
      dsimp only
      rw [if_pos (hpassed e hread)]
      rfl

/-- Settings are written, or what fails on the way is passed over. -/
theorem run_writing (s : Settings) (hp : Disk.hasNul s.file = false) (r : Rehearsal) :
    ∃ r', (tryCatch s.save fun e => if e.isFileFault then pure () else throw e :
      ExceptT Fault Run Unit).run r = (.ok (), r') := by
  have hparent : Disk.hasNul s.file.parent = false :=
    Disk.hasNul_of_subset hp (List.dropLast_subset _)
  have hfails : FailsWith (fun e => e.isFileFault = true)
      ((s.save : ExceptT Fault Run Unit).run r).1 :=
    failsWith_run_bind (failsOnDisk_makeDirectories hparent r) fun _ r' =>
      failsOnDisk_write hp _ r'
  rw [run_tryCatch]
  obtain ⟨outcome, r', hrun⟩ : ∃ outcome r', (s.save : ExceptT Fault Run Unit).run r = (outcome, r') :=
    ⟨_, _, rfl⟩
  rw [hrun] at hfails ⊢
  cases outcome with
  | ok _ => exact ⟨r', rfl⟩
  | error e =>
    refine ⟨r', ?_⟩
    dsimp only
    rw [if_pos (hfails e rfl)]
    rfl

/-- Fields with the defaults that are missing in them. -/
def filled (values : Fields) : Fields := Keyed.putAll values (missing values)

/-- **Settings are loaded whatever their file holds**: what it holds, filled in. -/
theorem load_eq (h : r.failsAfter = none) (hp : Disk.hasNul p = false) :
    ((load p : ExceptT Fault Run Settings).run r).1 = .ok ⟨p, filled (kept r.disk p)⟩ := by
  rw [load, run_bind_ok (run_reading h p)]
  dsimp only
  -- without anything missing the file is not written again
  split
  next hempty =>
    have hnone : missing (kept r.disk p) = [] := List.isEmpty_iff.mp hempty
    rw [filled, hnone]
    rfl
  next =>
    obtain ⟨r', hr'⟩ := run_writing ⟨p, filled (kept r.disk p)⟩ hp r
    rw [filled] at hr'
    rw [run_bind_ok hr']
    rfl

end Loading

/-! ## §2. Defaults. -/

theorem isMissing_iff {values : Fields} {key : String} : isMissing values key = true
    ↔ find? values key = none ∨ find? values key = some (.text "") := by
  rw [isMissing, Layout.same_text]
  cases find? values key <;> simp

/-- What is missing is no text but the empty one. -/
theorem eq_empty_of_missing {values : Fields} {key : String} {v : Value}
    (h : isMissing values key = true) (hfound : find? values key = some v) : v = .text "" := by
  cases isMissing_iff.mp h with
  | inl hnone => cases hnone.symm.trans hfound
  | inr hempty => exact Option.some.inj (hfound.symm.trans hempty)

theorem ne_text_of_missing {values : Fields} {key t : String} (h : isMissing values key = true)
    (ht : t ≠ "") : find? values key ≠ some (.text t) := by
  intro hfound
  cases eq_empty_of_missing h hfound
  exact ht rfl

theorem nodup_keys_missing (values : Fields) : (Keyed.keys (missing values)).Nodup := by
  have hkeys : Keyed.keys (missing values)
      = (defaults.filter fun d => isMissing values d.1 && d.2 ≠ "").map Prod.fst := by
    rw [missing, Keyed.keys, List.map_map]
    rfl
  have hall : (defaults.map Prod.fst).Nodup := by decide
  rw [hkeys]
  exact hall.sublist (List.filter_sublist.map _)

/-- A default takes the place of an answer that is missing. -/
theorem find?_filled {values : Fields} {key word : String} (h : (key, word) ∈ defaults)
    (hword : word ≠ "") : find? (filled values) key
      = if isMissing values key then some (.text word) else find? values key := by
  cases hmissing : isMissing values key with
  | true =>
    have hmem : (key, Value.text word) ∈ missing values := by
      refine List.mem_map.mpr ⟨(key, word), List.mem_filter.mpr ⟨h, ?_⟩, rfl⟩
      rw [Bool.and_eq_true, decide_eq_true_eq]
      exact ⟨hmissing, hword⟩
    exact Keyed.find?_putAll_of_mem (nodup_keys_missing values) hmem
  | false =>
    have hnot : key ∉ Keyed.keys (missing values) := by
      intro hkey
      obtain ⟨f, hf, rfl⟩ := List.mem_map.mp hkey
      obtain ⟨d, hd, rfl⟩ := List.mem_map.mp hf
      have hkept := (List.mem_filter.mp hd).2
      rw [Bool.and_eq_true] at hkept
      exact Bool.false_ne_true (hmissing.symm.trans hkept.1)
    exact Keyed.find?_putAll_of_not_mem hnot

/-- An answer that is no default is there after the defaults are filled in iff it was before. -/
theorem find?_filled_iff {values : Fields} {key word t : String} (h : (key, word) ∈ defaults)
    (hword : word ≠ "") (ht : t ≠ "") (hne : t ≠ word) :
    find? (filled values) key = some (.text t) ↔ find? values key = some (.text t) := by
  rw [find?_filled h hword]
  cases hmissing : isMissing values key with
  | false => exact Iff.rfl
  | true =>
    -- the default is there, and it is another text
    refine iff_of_false (fun hsame => ?_) (ne_text_of_missing hmissing ht)
    rw [if_pos rfl] at hsame
    cases hsame
    exact hne rfl

/-! ## §3. Questions of yes or no. -/

/-- Whether a text says yes. -/
def saysYes (t : String) : Bool := yesWords.contains (String.ofList (Text.lower (Text.trim t.toList)))

/-- The questions of yes or no, each with what holds without an answer. -/
def questions : List (String × Bool) :=
  [("optimize_assets", true), ("responsive_scaling", true), ("include_developer_windows", false),
    ("custom_scrollbars", true)]

/-- The answer that is filled in says what holds without it. -/
theorem exists_default : ∀ q ∈ questions, ∃ d ∈ defaults, d.1 = q.1 ∧ d.2 ≠ "" ∧ saysYes d.2 = q.2 := by
  decide

/-- An answer to a question of yes or no, if it is there at all, is a text. -/
def Answerable (values : Fields) (key : String) : Prop :=
  ∀ v, find? values key = some v → ∃ t, v = .text t

/-- Fields say yes to a question: by their answer, or by default where there is none. -/
def Says (values : Fields) (key : String) (default : Bool) : Prop :=
  (∃ t, t ≠ "" ∧ find? values key = some (.text t) ∧ saysYes t = true)
    ∨ default = true ∧ ∀ t, t ≠ "" → find? values key ≠ some (.text t)

section Flags

variable {p : Path} {values : Fields} {key : String} {default : Bool}

theorem flag_of_missing (h : isMissing values key = true) :
    flag ⟨p, values⟩ key default = .ok default := by
  unfold flag Settings.get
  cases isMissing_iff.mp h with
  | inl hnone =>
    rw [hnone]
    rfl
  | inr hempty =>
    rw [hempty]
    rfl

theorem flag_of_text {t : String} (ht : t ≠ "") (h : find? values key = some (.text t)) :
    flag ⟨p, values⟩ key default = .ok (saysYes t) := by
  have hget : Settings.get ⟨p, values⟩ key (.text "") = .text t := by
    rw [Settings.get, h]
    rfl
  -- the empty text has a case of its own, so the match does not reduce at `t`
  unfold flag
  split
  next hempty =>
    cases hget.symm.trans hempty
    exact absurd rfl ht
  next hother =>
    cases hget.symm.trans hother
    rfl
  next hno => exact absurd hget (hno t)

/-- Filling in defaults answers no question otherwise. -/
theorem flag_filled (h : (key, default) ∈ questions) :
    flag ⟨p, filled values⟩ key default = flag ⟨p, values⟩ key default := by
  obtain ⟨⟨name, word⟩, hmem, hname, hword, hsays⟩ := exists_default _ h
  have hname : name = key := hname
  rw [hname] at hmem
  have hfound : find? (filled values) key = _ := find?_filled hmem hword
  cases hmissing : isMissing values key with
  | true =>
    -- the answer filled in says what held without one
    rw [hmissing, if_pos rfl] at hfound
    rw [flag_of_missing hmissing, flag_of_text hword hfound]
    exact congrArg Except.ok hsays
  | false =>
    rw [hmissing, if_neg Bool.false_ne_true] at hfound
    unfold flag Settings.get
    rw [hfound]

theorem flag_of_other {v : Value} (h : find? values key = some v) (hv : ∀ t, v ≠ .text t) :
    flag ⟨p, values⟩ key default = .error .noSuchPart := by
  unfold flag Settings.get
  rw [h]
  cases v with
  | text t => exact absurd rfl (hv t)
  | _ => rfl

/-- An answer is missing, a text or something else. -/
theorem answer_cases (values : Fields) (key : String) : isMissing values key = true
    ∨ (∃ t, t ≠ "" ∧ find? values key = some (.text t))
    ∨ ∃ v, find? values key = some v ∧ ∀ t, v ≠ .text t := by
  cases hfound : find? values key with
  | none => exact Or.inl (isMissing_iff.mpr (Or.inl hfound))
  | some v =>
    cases v with
    | text t =>
      by_cases ht : t = ""
      · exact Or.inl (isMissing_iff.mpr (Or.inr (ht ▸ hfound)))
      · exact Or.inr (Or.inl ⟨t, ht, rfl⟩)
    | _ => exact Or.inr (Or.inr ⟨_, rfl, fun _ h => nomatch h⟩)

/-- A question gets an answer iff what is given for it can be read. -/
theorem exists_flag_iff :
    (∃ b, flag ⟨p, values⟩ key default = .ok b) ↔ Answerable values key := by
  rcases answer_cases values key with hmissing | ⟨t, ht, hfound⟩ | ⟨v, hfound, hv⟩
  · exact iff_of_true ⟨_, flag_of_missing hmissing⟩ fun v hv => ⟨"", eq_empty_of_missing hmissing hv⟩
  · refine iff_of_true ⟨_, flag_of_text ht hfound⟩ fun v hv => ?_
    cases hfound.symm.trans hv
    exact ⟨t, rfl⟩
  · refine iff_of_false ?_ fun h => ?_
    · intro hflag
      obtain ⟨b, hb⟩ := hflag
      cases (flag_of_other hfound hv).symm.trans hb
    · obtain ⟨t, rfl⟩ := h v hfound
      exact hv t rfl

/-- An answer is what the fields say. -/
theorem says_of_flag {b : Bool} (h : flag ⟨p, values⟩ key default = .ok b) :
    b = true ↔ Says values key default := by
  rcases answer_cases values key with hmissing | ⟨t, ht, hfound⟩ | ⟨v, hfound, hv⟩
  · cases (flag_of_missing hmissing).symm.trans h
    have hnone : ∀ t, t ≠ "" → find? values key ≠ some (.text t) :=
      fun t ht => ne_text_of_missing hmissing ht
    refine ⟨fun hdefault => Or.inr ⟨hdefault, hnone⟩, fun hsays => ?_⟩
    obtain ⟨t, ht, hfound, -⟩ | ⟨hdefault, -⟩ := hsays
    · exact absurd hfound (hnone t ht)
    · exact hdefault
  · cases (flag_of_text ht hfound).symm.trans h
    refine ⟨fun hyes => Or.inl ⟨t, ht, hfound, hyes⟩, fun hsays => ?_⟩
    obtain ⟨t', -, hfound', hyes⟩ | ⟨-, hnone⟩ := hsays
    · cases hfound.symm.trans hfound'
      exact hyes
    · exact absurd hfound (hnone t ht)
  · cases (flag_of_other hfound hv).symm.trans h

theorem failsWith_flag (s : Settings) (key : String) (default : Bool) :
    FailsWith (· = .noSuchPart) (s.flag key default) := by
  unfold flag
  split
  · exact failsWith_ok _
  · exact failsWith_ok _
  · exact failsWith_error rfl

end Flags

/-! ## §4. Words. -/

/-- A word is told iff the settings hold it as text. -/
theorem word_eq_iff {s : Settings} {key w : String} (hw : w ≠ "") :
    s.word key = w ↔ find? s.values key = some (.text w) := by
  unfold word Settings.get
  cases find? s.values key with
  | none => exact iff_of_false (Ne.symm hw) fun h => nomatch h
  | some v =>
    cases v with
    | text t => simp
    | _ => exact iff_of_false (Ne.symm hw) fun h => by cases h

theorem ofName?_eq_folder_iff (w : String) :
    (DeliveryForm.ofName? w).getD .archive = .folder ↔ w = "folder" := by
  by_cases harchive : w = "archive"
  · subst harchive
    decide
  · by_cases hfolder : w = "folder"
    · subst hfolder
      decide
    · refine iff_of_false ?_ hfolder
      simp [DeliveryForm.ofName?, DeliveryForm.name, Ne.symm harchive, Ne.symm hfolder]

theorem ofName?_eq_standalone_iff (w : String) :
    (BundleTarget.ofName? w).getD .host = .standalone ↔ w = "standalone" := by
  by_cases hhost : w = "host"
  · subst hhost
    decide
  · by_cases hstandalone : w = "standalone"
    · subst hstandalone
      decide
    · refine iff_of_false ?_ hstandalone
      simp [BundleTarget.ofName?, BundleTarget.name, Ne.symm hhost, Ne.symm hstandalone]

/-! ## §5. The choices about exports. -/

/-- Options that are chosen in some fields: questions as the fields say, and a folder or a target of
its own only where the fields name them. -/
structure Chosen (values : Fields) (o : ExportOptions) : Prop where
  optimizeAssets : o.optimizeAssets = true ↔ Says values "optimize_assets" true
  responsive : o.responsive = true ↔ Says values "responsive_scaling" true
  developerWindows : o.developerWindows = true ↔ Says values "include_developer_windows" false
  customScrollbars : o.customScrollbars = true ↔ Says values "custom_scrollbars" true
  delivery : o.delivery = .folder ↔ find? values "delivery" = some (.text "folder")
  target : o.target = .standalone ↔ find? values "target" = some (.text "standalone")

section Choices

variable {p : Path} {values : Fields}

theorem failsWith_forExport (s : Settings) : FailsWith (· = .noSuchPart) s.forExport :=
  failsWith_bind (failsWith_flag s _ _) fun _ => failsWith_bind (failsWith_flag s _ _) fun _ =>
    failsWith_bind (failsWith_flag s _ _) fun _ => failsWith_bind (failsWith_flag s _ _) fun _ =>
      failsWith_ok _

/-- The choices after the defaults are filled in, with the questions asked of what was there
before. -/
theorem forExport_filled : forExport ⟨p, filled values⟩ = (do
    let optimizeAssets ← flag ⟨p, values⟩ "optimize_assets" true
    let responsive ← flag ⟨p, values⟩ "responsive_scaling" true
    let developerWindows ← flag ⟨p, values⟩ "include_developer_windows" false
    let customScrollbars ← flag ⟨p, values⟩ "custom_scrollbars" true
    .ok { optimizeAssets, responsive, developerWindows, customScrollbars
          delivery := (DeliveryForm.ofName? (word ⟨p, filled values⟩ "delivery")).getD .archive
          target := (BundleTarget.ofName? (word ⟨p, filled values⟩ "target")).getD .host
          lastDirectory := Settings.get ⟨p, filled values⟩ Settings.lastDirectory (.text "") }) := by
  rw [forExport, flag_filled (by decide), flag_filled (by decide), flag_filled (by decide),
    flag_filled (by decide)]

theorem exists_forExport_iff : (∃ c, forExport ⟨p, filled values⟩ = .ok c)
    ↔ ∀ q ∈ questions, Answerable values q.1 := by
  rw [forExport_filled]
  constructor
  · intro htold
    obtain ⟨c, h⟩ := htold
    obtain ⟨optimizeAssets, hoptimize, h⟩ := (bind_eq_ok_iff _ _ _).mp h
    obtain ⟨responsive, hresponsive, h⟩ := (bind_eq_ok_iff _ _ _).mp h
    obtain ⟨developerWindows, hdeveloper, h⟩ := (bind_eq_ok_iff _ _ _).mp h
    obtain ⟨customScrollbars, hscrollbars, -⟩ := (bind_eq_ok_iff _ _ _).mp h
    simp only [questions, List.forall_mem_cons]
    exact ⟨exists_flag_iff.mp ⟨_, hoptimize⟩, exists_flag_iff.mp ⟨_, hresponsive⟩,
      exists_flag_iff.mp ⟨_, hdeveloper⟩, exists_flag_iff.mp ⟨_, hscrollbars⟩,
      fun _ hq => absurd hq List.not_mem_nil⟩
  · intro h
    have hanswer : ∀ q ∈ questions, ∃ b, flag ⟨p, values⟩ q.1 q.2 = .ok b :=
      fun q hq => exists_flag_iff.mpr (h q hq)
    simp only [questions, List.forall_mem_cons] at hanswer
    obtain ⟨⟨a, ha⟩, ⟨b, hb⟩, ⟨c, hc⟩, ⟨d, hd⟩, -⟩ := hanswer
    rw [ha, ok_bind, hb, ok_bind, hc, ok_bind, hd]
    exact ⟨_, rfl⟩

/-- What is chosen, where all can be told, is what the fields say. -/
theorem chosen_of_forExport {c : ForExport} (h : forExport ⟨p, filled values⟩ = .ok c) :
    Chosen values c.options := by
  rw [forExport_filled] at h
  obtain ⟨optimizeAssets, hoptimize, h⟩ := (bind_eq_ok_iff _ _ _).mp h
  obtain ⟨responsive, hresponsive, h⟩ := (bind_eq_ok_iff _ _ _).mp h
  obtain ⟨developerWindows, hdeveloper, h⟩ := (bind_eq_ok_iff _ _ _).mp h
  obtain ⟨customScrollbars, hscrollbars, h⟩ := (bind_eq_ok_iff _ _ _).mp h
  cases h
  refine ⟨says_of_flag hoptimize, says_of_flag hresponsive, says_of_flag hdeveloper,
    says_of_flag hscrollbars, ?_, ?_⟩
  · have hdefault : ("delivery", "archive") ∈ defaults := by decide
    rw [ForExport.options, ofName?_eq_folder_iff, word_eq_iff (by decide)]
    exact find?_filled_iff hdefault (by decide) (by decide) (by decide)
  · have hdefault : ("target", "host") ∈ defaults := by decide
    rw [ForExport.options, ofName?_eq_standalone_iff, word_eq_iff (by decide)]
    exact find?_filled_iff hdefault (by decide) (by decide) (by decide)

end Choices

/-- **Settings are loaded from any file, but not all can be told.**  Whatever stands in the place of
the file, loading ends with settings.  The choices about exports can be told exactly if each answer
to a question of yes or no is a text, and are then what the file says: an archive for a host unless
it names the other form or target.  Where they cannot be told, a value is asked for a part that it
does not have. -/
theorem choices_iff {p : Path} {r : Rehearsal} (hcalm : r.failsAfter = none)
    (hp : Disk.hasNul p = false) :
    ∃ s, ((load p : ExceptT Fault Run Settings).run r).1 = .ok s
      ∧ ((∃ c, s.forExport = .ok c) ↔ ∀ q ∈ questions, Answerable (kept r.disk p) q.1)
      ∧ (∀ c, s.forExport = .ok c → Chosen (kept r.disk p) c.options)
      ∧ ∀ e, s.forExport = .error e → e = .noSuchPart :=
  ⟨_, load_eq hcalm hp, exists_forExport_iff, fun _ => chosen_of_forExport, failsWith_forExport _⟩

/-- The place of a settings file. -/
def place : Path := ⟨"/", ["settings.json"]⟩

/-- A machine with a settings file. -/
def machineWith (text : String) : Rehearsal :=
  { disk := ⟨[(["settings.json"], .file (.text text))], []⟩ }

/-- A settings file with a number for a form, a list for a target, and an answer in capitals. -/
def oddText : String :=
  "\x7b\"delivery\": 5, \"target\": [\"standalone\"], \"custom_scrollbars\": \" NO \"\x7d"

theorem oddText_chosen :
    ∃ s c, ((load place : ExceptT Fault Run Settings).run (machineWith oddText)).1 = .ok s
      ∧ s.forExport = .ok c ∧ c.delivery = .archive ∧ c.target = .host
      ∧ c.customScrollbars = false ∧ Chosen (kept (machineWith oddText).disk place) c.options := by
  obtain ⟨s, hs, -, hchosen, -⟩ :=
    choices_iff (p := place) (r := machineWith oddText) rfl (by decide)
  have hfound : ((load place : ExceptT Fault Run Settings).run
      (machineWith oddText)).1.toOption.all (fun s => s.forExport.toOption.any fun c =>
        c.delivery = .archive ∧ c.target = .host ∧ c.customScrollbars = false) = true := by
    decide +kernel
  rw [hs] at hfound
  obtain ⟨c, hc, htold⟩ := exists_of_any hfound
  obtain ⟨hdelivery, htarget, hscrollbars⟩ := of_decide_eq_true htold
  exact ⟨s, c, hs, hc, hdelivery, htarget, hscrollbars, hchosen c hc⟩

/-- A truth value is no answer. -/
theorem truth_value_untold :
    ∃ s, ((load place : ExceptT Fault Run Settings).run
        (machineWith "\x7b\"optimize_assets\": true\x7d")).1 = .ok s
      ∧ s.forExport = .error .noSuchPart := by
  have hfound : ((load place : ExceptT Fault Run Settings).run
      (machineWith "\x7b\"optimize_assets\": true\x7d")).1.toOption.any
        (fun s => !s.forExport.isOk) = true := by
    decide +kernel
  obtain ⟨s, hs, huntold⟩ := exists_of_any hfound
  refine ⟨s, hs, ?_⟩
  cases hfor : s.forExport with
  | ok c =>
    rw [hfor] at huntold
    cases huntold
  | error e => rw [failsWith_forExport s e hfor]

end ControlSurface.Settings
