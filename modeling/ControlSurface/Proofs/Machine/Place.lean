/-
  ControlSurface.Proofs.Machine.Place
  ───────────────────────────────────
  Where paths lead.  On a disk that is a tree everything lies in a directory.  The names of a path
  are looked up one after the other, each in the directory that the ones before it lead to (`way`);
  as long as these directories stay, the path leads to the same place, whatever else changes on the
  disk.

  Main results:
    * `IsTree.above` — above something that is there, there are only directories.
    * `Leads.keep` — a path leads to the same directory as long as all that it passes stay.
    * `Leads.place_below` — plain names below a directory are looked up as they are written.
-/
import ControlSurface.Machine.Disk
import ControlSurface.Proofs.Keyed.Entries
import Mathlib.Data.List.Infix

namespace ControlSurface.Disk

/-! ## §1. What stands at a place. -/

theorem at?_nil (d : Disk) : d.at? [] = some .directory := rfl

theorem at?_of_ne_nil (d : Disk) {p : Place} (h : p ≠ []) : d.at? p = Keyed.find? p d.entries := by
  rw [at?, if_neg (by simpa using h)]

/-- A file stands at a place. -/
def HasFile (d : Disk) (p : Place) : Prop := ∃ c, d.at? p = some (.file c)

/-- The content of the file at a place. -/
def content? (d : Disk) (p : Place) : Option Content :=
  match d.at? p with
  | some (.file c) => some c
  | _ => none

theorem content?_of_directory {d : Disk} {p : Place} (h : d.at? p = some .directory) :
    d.content? p = none := by
  rw [content?, h]

theorem content?_of_none {d : Disk} {p : Place} (h : d.at? p = none) : d.content? p = none := by
  rw [content?, h]

theorem content?_congr {d d' : Disk} {p p' : Place} (h : d'.at? p' = d.at? p) :
    d'.content? p' = d.content? p := by
  rw [content?, content?, h]

/-! ## §2. Trees. -/

/-- A disk is a tree: everything lies in a directory. -/
def IsTree (d : Disk) : Prop := ∀ p, (d.at? p).isSome → d.at? p.dropLast = some .directory

/-- A disk is a tree if its entries are in order. -/
theorem isTree_of_entries {d : Disk} (h : ∀ e ∈ d.entries, d.at? e.1.dropLast = some .directory) :
    d.IsTree := by
  intro p hp
  by_cases hnil : p = []
  · subst hnil
    rfl
  · obtain ⟨i, hi⟩ := Option.isSome_iff_exists.mp hp
    rw [d.at?_of_ne_nil hnil] at hi
    exact h (p, i) (Keyed.exists_of_find? hi)

/-- **Above something that is there, there are only directories.** -/
theorem IsTree.above {d : Disk} (h : d.IsTree) {p q : Place} (hq : (d.at? q).isSome)
    (hp : p <+: q) (hne : p ≠ q) : d.at? p = some .directory := by
  obtain ⟨rest, rfl⟩ := hp
  induction rest using List.reverseRecOn with
  | nil => exact absurd (List.append_nil p).symm hne
  | append_singleton rest name ih =>
    have hup : d.at? (p ++ rest) = some .directory := by
      have := h _ hq
      rwa [← List.append_assoc, List.dropLast_concat] at this
    by_cases hrest : rest = []
    · rwa [hrest, List.append_nil] at hup
    · exact ih (by rw [hup]; rfl) (by simpa using hrest)

/-- Below something that is no directory there is nothing. -/
theorem IsTree.below {d : Disk} (h : d.IsTree) {p q : Place} (hp : d.at? p ≠ some .directory)
    (hq : p <+: q) (hne : p ≠ q) : d.at? q = none := by
  by_contra hsome
  exact hp (h.above (Option.isSome_iff_ne_none.mpr hsome) hq hne)

/-- At and below a place where nothing is there is nothing. -/
theorem IsTree.none_below {d : Disk} (h : d.IsTree) {p q : Place} (hp : d.at? p = none)
    (hq : p <+: q) : d.at? q = none := by
  by_cases hne : p = q
  · rwa [← hne]
  · exact h.below (by rw [hp]; exact fun hc => nomatch hc) hq hne

/-! ## §3. Looking up names. -/

/-- The place that a name leads to from a directory. -/
def step (p : Place) (name : String) : Place := if name = ".." then p.dropLast else p ++ [name]

/-- The places that names pass, from the one where they begin to the one they lead to. -/
def way (p : Place) : List String → List Place
  | [] => [p]
  | name :: rest => p :: way (step p name) rest

/-- The place that names lead to, if they lead anywhere. -/
def reach (p : Place) (names : List String) : Place := names.foldl step p

theorem start_mem_way (p : Place) (names : List String) : p ∈ way p names := by
  cases names with
  | nil => exact List.mem_singleton.mpr rfl
  | cons name rest => exact List.mem_cons_self ..

/-- A name can be entered iff it is not too long and stands in a directory. -/
theorem enter_eq_ok_iff (d : Disk) {p q : Place} {name : String} :
    d.enter p name = .ok q
      ↔ d.at? p = some .directory ∧ (name = ".." ∨ name.utf8ByteSize ≤ longestName)
        ∧ q = step p name := by
  unfold enter step
  cases d.at? p with
  | none => simp
  | some i =>
    cases i with
    | file c => simp
    | directory =>
      by_cases hname : name = ".."
      · simp [hname, eq_comm]
      · by_cases hlong : longestName < name.utf8ByteSize
        · simp [hname, hlong, Nat.not_le.mpr hlong]
        · simp [hname, hlong, Nat.not_lt.mp hlong, eq_comm]

theorem foldlM_enter_cons (d : Disk) {p q : Place} {name : String} {names : List String} :
    (name :: names).foldlM d.enter p = .ok q
      ↔ d.at? p = some .directory ∧ (name = ".." ∨ name.utf8ByteSize ≤ longestName)
        ∧ names.foldlM d.enter (step p name) = .ok q := by
  rw [List.foldlM_cons]
  cases hname : d.enter p name with
  | error e =>
    constructor
    · intro h
      cases h
    · rintro ⟨hdir, hfits, _⟩
      have := (enter_eq_ok_iff _).mpr ⟨hdir, hfits, rfl⟩
      rw [hname] at this
      cases this
  | ok r =>
    obtain ⟨hdir, hfits, rfl⟩ := (enter_eq_ok_iff _).mp hname
    exact ⟨fun h => ⟨hdir, hfits, h⟩, fun h => h.2.2⟩

theorem eq_reach {d : Disk} {p q : Place} {names : List String}
    (h : names.foldlM d.enter p = .ok q) : q = reach p names := by
  induction names generalizing p with
  | nil =>
    cases h
    rfl
  | cons name names ih => exact ih ((foldlM_enter_cons _).mp h).2.2

/-- Names lead to where they did, as long as what they pass are directories. -/
theorem foldlM_enter_keep {d d' : Disk} {p q : Place} {names : List String}
    (h : names.foldlM d.enter p = .ok q) (hway : ∀ w ∈ way p names, d'.at? w = some .directory) :
    names.foldlM d'.enter p = .ok q := by
  induction names generalizing p with
  | nil => exact h
  | cons name names ih =>
    obtain ⟨_, hfits, h⟩ := (foldlM_enter_cons _).mp h
    refine (foldlM_enter_cons _).mpr ⟨hway p (List.mem_cons_self ..), hfits, ?_⟩
    exact ih h fun w hw => hway w (List.mem_cons_of_mem _ hw)

/-- All that names pass before they lead to a directory are directories. -/
theorem directory_of_mem_way {d : Disk} {p q : Place} {names : List String}
    (h : names.foldlM d.enter p = .ok q) (hq : d.at? q = some .directory) :
    ∀ w ∈ way p names, d.at? w = some .directory := by
  induction names generalizing p with
  | nil =>
    cases h
    intro w hw
    rw [List.mem_singleton.mp hw]
    exact hq
  | cons name names ih =>
    obtain ⟨hdir, _, h⟩ := (foldlM_enter_cons _).mp h
    intro w hw
    rcases List.mem_cons.mp hw with rfl | hw
    · exact hdir
    · exact ih h w hw

/-! ## §4. Plain names. -/

theorem step_down {p : Place} {name : String} (h : name ≠ "..") : step p name = p ++ [name] :=
  if_neg h

/-- What names without two dots pass lies below the place where they begin, and above the one they
lead to. -/
theorem mem_way_down {p w : Place} {names : List String} (h : ".." ∉ names)
    (hw : w ∈ way p names) : p <+: w ∧ w <+: p ++ names := by
  induction names generalizing p with
  | nil =>
    rw [List.mem_singleton.mp hw, List.append_nil]
    exact ⟨List.prefix_refl p, List.prefix_refl p⟩
  | cons name names ih =>
    obtain ⟨hname, hnames⟩ := List.ne_and_not_mem_of_not_mem_cons h
    rcases List.mem_cons.mp hw with rfl | hw
    · exact ⟨List.prefix_refl w, List.prefix_append w _⟩
    · rw [step_down (Ne.symm hname)] at hw
      obtain ⟨hbegin, hend⟩ := ih hnames hw
      rw [List.append_assoc] at hend
      exact ⟨(List.prefix_append p _).trans hbegin, hend⟩

/-- The place that names without two dots lead to is among those they pass. -/
theorem end_mem_way_down {p : Place} {names : List String} (h : ".." ∉ names) :
    p ++ names ∈ way p names := by
  induction names generalizing p with
  | nil =>
    rw [List.append_nil]
    exact List.mem_singleton.mpr rfl
  | cons name names ih =>
    obtain ⟨hname, hnames⟩ := List.ne_and_not_mem_of_not_mem_cons h
    have := ih (p := p ++ [name]) hnames
    rw [List.append_assoc] at this
    refine List.mem_cons_of_mem _ ?_
    rwa [step_down (Ne.symm hname)]

theorem reach_down {p : Place} {names : List String} (h : ".." ∉ names) :
    reach p names = p ++ names := by
  induction names generalizing p with
  | nil => exact (List.append_nil p).symm
  | cons name names ih =>
    obtain ⟨hname, hnames⟩ := List.ne_and_not_mem_of_not_mem_cons h
    show reach (step p name) names = _
    rw [step_down (Ne.symm hname), ih hnames, List.append_assoc]
    rfl

/-- Names without two dots are looked up as they are written; the last one stands in a
directory. -/
theorem foldlM_enter_down {d : Disk} {p q : Place} {names : List String} (h : ".." ∉ names)
    (hq : names.foldlM d.enter p = .ok q) :
    q = p ++ names ∧ (∀ name ∈ names, name.utf8ByteSize ≤ longestName)
      ∧ (names ≠ [] → d.at? (p ++ names.dropLast) = some .directory) := by
  induction names generalizing p with
  | nil =>
    cases hq
    exact ⟨(List.append_nil q).symm, by simp, fun hne => absurd rfl hne⟩
  | cons name names ih =>
    obtain ⟨hname, hnames⟩ := List.ne_and_not_mem_of_not_mem_cons h
    obtain ⟨hdir, hfits, hq⟩ := (foldlM_enter_cons _).mp hq
    rw [step_down (Ne.symm hname)] at hq
    obtain ⟨rfl, hall, hlast⟩ := ih hnames hq
    refine ⟨by simp, ?_, fun _ => ?_⟩
    · exact List.forall_mem_cons.mpr ⟨hfits.resolve_left (Ne.symm hname), hall⟩
    · by_cases hrest : names = []
      · subst hrest
        simpa using hdir
      · have := hlast hrest
        rwa [List.append_assoc, List.singleton_append,
          ← List.dropLast_cons_of_ne_nil hrest] at this

/-- A name that leads down: not two dots, not too long, and without the character that ends
names. -/
structure IsPlain (name : String) : Prop where
  down : name ≠ ".."
  fits : name.utf8ByteSize ≤ longestName
  noNul : name.toList.contains '\x00' = false

theorem down_of_plain {names : List String} (h : ∀ name ∈ names, IsPlain name) : ".." ∉ names :=
  fun hmem => (h _ hmem).down rfl

/-- Plain names are looked up, if the last one stands in a directory. -/
theorem foldlM_enter_plain {d : Disk} (htree : d.IsTree) {p : Place} {names : List String}
    (h : ∀ name ∈ names, IsPlain name)
    (hdir : names ≠ [] → d.at? (p ++ names.dropLast) = some .directory) :
    names.foldlM d.enter p = .ok (p ++ names) := by
  induction names generalizing p with
  | nil =>
    rw [List.append_nil]
    rfl
  | cons name names ih =>
    have hname := h name (List.mem_cons_self ..)
    have hlast := hdir (List.cons_ne_nil _ _)
    have hp : d.at? p = some .directory := by
      by_cases hrest : (name :: names).dropLast = []
      · rwa [hrest, List.append_nil] at hlast
      · exact htree.above (by rw [hlast]; rfl) (List.prefix_append p _) (by simpa using hrest)
    refine (foldlM_enter_cons _).mpr ⟨hp, Or.inr hname.fits, ?_⟩
    rw [step_down hname.down, ih fun n hn => h n (List.mem_cons_of_mem _ hn)]
    · rw [List.append_assoc]
      rfl
    · intro hrest
      rwa [List.append_assoc, List.singleton_append, ← List.dropLast_cons_of_ne_nil hrest]

/-! ## §5. Paths that lead to a directory. -/

/-- The places that a path passes. -/
def wayOf (d : Disk) (p : Path) : List Place := way (d.start p) p.names

/-- The place that a path leads to, if it leads anywhere. -/
def reachOf (d : Disk) (p : Path) : Place := reach (d.start p) p.names

/-- A path leads to a directory. -/
structure Leads (d : Disk) (p : Path) (q : Place) : Prop where
  place : d.place p = .ok q
  directory : d.at? q = some .directory

/-- Names below a path. -/
def below (p : Path) (names : List String) : Path := ⟨p.root, p.names ++ names⟩

theorem place_eq_ok_iff (d : Disk) {p : Path} {q : Place} :
    d.place p = .ok q ↔ hasNul p = false ∧ p.names.foldlM d.enter (d.start p) = .ok q := by
  unfold place
  cases hasNul p with
  | true => simp
  | false => simp

/-- What begins a path, or stands in it, has none of the characters that it lacks. -/
theorem hasNul_of_subset {p q : Path} (hp : hasNul p = false) (h : q.names ⊆ p.names) :
    hasNul q = false := by
  rw [hasNul, List.any_eq_false] at hp ⊢
  exact fun name hname => hp name (h hname)

theorem hasNul_below {p : Path} {names : List String} (hp : hasNul p = false)
    (h : ∀ name ∈ names, IsPlain name) : hasNul (below p names) = false := by
  have hnames : names.any (fun name => name.toList.contains '\x00') = false := by
    rw [List.any_eq_false]
    intro name hname
    rw [(h name hname).noNul]
    exact Bool.false_ne_true
  show ((p.names ++ names).any fun name => name.toList.contains '\x00') = false
  rw [List.any_append, hnames, Bool.or_false]
  exact hp

namespace Leads

variable {d d' : Disk} {p : Path} {q : Place}

theorem eq_reachOf (h : Leads d p q) : q = d.reachOf p :=
  eq_reach ((place_eq_ok_iff _).mp h.place).2

theorem directories (h : Leads d p q) : ∀ w ∈ d.wayOf p, d.at? w = some .directory :=
  directory_of_mem_way ((place_eq_ok_iff _).mp h.place).2 h.directory

theorem mem_way {p q : Place} {names : List String} (h : names.foldlM d.enter p = .ok q) :
    q ∈ way p names := by
  induction names generalizing p with
  | nil =>
    cases h
    exact List.mem_singleton.mpr rfl
  | cons name names ih => exact List.mem_cons_of_mem _ (ih ((foldlM_enter_cons _).mp h).2.2)

/-- The place that a path leads to is among those it passes. -/
theorem mem_wayOf (h : Leads d p q) : q ∈ d.wayOf p := mem_way ((place_eq_ok_iff _).mp h.place).2

/-- **A path leads to the same directory as long as all that it passes stay.** -/
theorem keep (h : Leads d p q) (hhere : d'.here = d.here)
    (hway : ∀ w ∈ d.wayOf p, d'.at? w = some .directory) : Leads d' p q := by
  have hstart : d'.start p = d.start p := by
    rw [start, start, hhere]
  obtain ⟨hnul, hplace⟩ := (place_eq_ok_iff _).mp h.place
  refine ⟨(place_eq_ok_iff _).mpr ⟨hnul, ?_⟩, hway q h.mem_wayOf⟩
  rw [hstart]
  exact foldlM_enter_keep hplace hway

/-- Names without two dots below a directory are looked up as they are written, if at all. -/
theorem place_down (h : Leads d p q) {names : List String} (hdown : ".." ∉ names) {r : Place}
    (hr : d.place (below p names) = .ok r) :
    r = q ++ names ∧ (∀ name ∈ names, IsPlain name)
      ∧ (names ≠ [] → d.at? (q ++ names.dropLast) = some .directory) := by
  obtain ⟨hnul, hr⟩ := (place_eq_ok_iff _).mp hr
  have hr : (p.names ++ names).foldlM d.enter (d.start p) = .ok r := hr
  rw [List.foldlM_append, ((place_eq_ok_iff _).mp h.place).2] at hr
  obtain ⟨hr, hfits, hdir⟩ := foldlM_enter_down hdown hr
  refine ⟨hr, fun name hname => ⟨?_, hfits name hname, ?_⟩, hdir⟩
  · rintro rfl
    exact hdown hname
  · exact Bool.eq_false_iff.mpr (List.any_eq_false.mp hnul name (List.mem_append_right _ hname))

/-- **Plain names below a directory are looked up as they are written**, if the last one stands in
a directory. -/
theorem place_below (h : Leads d p q) (htree : d.IsTree) {names : List String}
    (hnames : ∀ name ∈ names, IsPlain name)
    (hdir : names ≠ [] → d.at? (q ++ names.dropLast) = some .directory) :
    d.place (below p names) = .ok (q ++ names) := by
  obtain ⟨hnul, hplace⟩ := (place_eq_ok_iff _).mp h.place
  refine (place_eq_ok_iff _).mpr ⟨hasNul_below hnul hnames, ?_⟩
  show (p.names ++ names).foldlM d.enter (d.start p) = _
  rw [List.foldlM_append, hplace]
  exact foldlM_enter_plain htree hnames hdir

/-- What stands at plain names below a directory is found there. -/
theorem look_below (h : Leads d p q) (htree : d.IsTree) {names : List String}
    (hnames : ∀ name ∈ names, IsPlain name)
    (hdir : names ≠ [] → d.at? (q ++ names.dropLast) = some .directory) :
    d.look (below p names) = (d.at? (q ++ names)).map Item.kind := by
  rw [look, h.place_below htree hnames hdir]

end Leads

end ControlSurface.Disk
