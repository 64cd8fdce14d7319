/-
  ControlSurface.Proofs.Markup.PathTree
  ─────────────────────────────────────
  What a tree of items shows.  Its items are read off the markup, as the labels on the way to each,
  with whether it looks like a folder and whether the list inside it is hidden.  One path put into
  an outline adds one label below each beginning of the path, unless the label is there already
  (`map_label_under_insert`), and everything else follows from that by induction on the paths.

  Main result:
    * `treeView_shows_paths` — the items are the non-empty beginnings of the paths, each once,
      siblings in the order in which they first appear; what some path goes beyond is a folder; and
      a list inside an item is hidden exactly when the tree is not expanded.
-/
import ControlSurface.Markup.Element
import ControlSurface.Proofs.Fault.Outcome
import ControlSurface.Proofs.Markup.Marks
import Mathlib.Data.List.Induction
import Mathlib.Data.List.Nodup

namespace ControlSurface.Markup

open ControlSurface.Outcome

/-! ## §1. The items of a tree. -/

/-- An item of a tree as it is shown. -/
structure TreeItem where
  /-- The labels from the root to the item. -/
  path : List String
  folder : Bool
  /-- Whether the list inside the item is hidden, if there is one. -/
  hides : Option Bool
  deriving DecidableEq

/-- The label that an item begins with. -/
def labelIn : List Node → String
  | .element _ _ [.text l] :: _ => l
  | _ => ""

/-- Whether a list is hidden; what is no list is neither. -/
def hiddenList? : Node → Option Bool
  | .element name attributes _ => if name = "ul" then some (carries attributes "hidden") else none
  | _ => none

mutual
/-- The items that a piece of markup shows below some labels. -/
def treeItems (above : List String) : Node → List TreeItem
  | .text _ => []
  | .raw _ => []
  | .element name attributes body =>
    if name = "li" then
      ⟨above ++ [labelIn body], hasClass attributes "tree-folder", body.findSome? hiddenList?⟩
        :: treeItemsAll (above ++ [labelIn body]) body
    else treeItemsAll above body

/-- The items that pieces of markup show below some labels. -/
def treeItemsAll (above : List String) : List Node → List TreeItem
  | [] => []
  | n :: ns => treeItems above n ++ treeItemsAll above ns
end

namespace Outline

theorem treeItemsAll_items_cons (above : List String) (expanded : Bool) (t : Outline)
    (ts : List Outline) :
    treeItemsAll above (items expanded (t :: ts))
      = treeItems above (item expanded t) ++ treeItemsAll above (items expanded ts) := by
  rw [items, treeItemsAll]

/-- **An item and what it shows below itself.** -/
theorem treeItems_item (above : List String) (expanded : Bool) (l : String) (ts : List Outline) :
    treeItems above (item expanded (node l ts))
      = ⟨above ++ [l], !ts.isEmpty, if ts.isEmpty then none else some (!expanded)⟩
        :: treeItemsAll (above ++ [l]) (items expanded ts) := by
  have hleaf : "tree-folder" ∉ Text.split "tree-leaf" " " := by decide +kernel
  have hfolder : "tree-folder" ∈ Text.split "tree-folder" " " := by decide +kernel
  cases ts with
  | nil =>
    simp [item, items, treeItems, treeItemsAll, tag, part, labelIn, hasClass, hiddenList?,
      Value.find?, Keyed.find?, hleaf]
  | cons t ts =>
    cases expanded <;>
      simp [item, items, treeItems, treeItemsAll, tag, part, labelIn, hasClass, hiddenList?,
        carries, Value.find?, Keyed.find?, hfolder]

/-! ## §2. Outlines by the labels below a place. -/

/-- What lies under a place of an outline, which the labels on the way to it give. -/
def under : List String → List Outline → List Outline
  | [], ts => ts
  | l :: p, ts => ((ts.find? fun t => t.label == l).map fun t => under p t.children).getD []

/-- The label that comes in a path right after a beginning of it. -/
def next? : List String → List String → Option String
  | [], q => q.head?
  | _ :: _, [] => none
  | l :: p, m :: q => if l = m then next? p q else none

theorem next?_eq_some_iff {p q : List String} {l : String} :
    next? p q = some l ↔ p ++ [l] <+: q := by
  induction p generalizing q with
  | nil =>
    cases q with
    | nil => simp [next?]
    | cons m q => simp [next?, List.cons_prefix_cons, eq_comm]
  | cons k p ih =>
    cases q with
    | nil => simp [next?]
    | cons m q =>
      rw [next?, List.cons_append, List.cons_prefix_cons, ← ih]
      split
      next heq => simp [heq]
      next hne => simp [hne]

/-- Some label comes after a beginning of a path that is not the whole path. -/
theorem exists_next?_iff {p q : List String} :
    (∃ l, next? p q = some l) ↔ p <+: q ∧ p ≠ q := by
  simp only [next?_eq_some_iff]
  constructor
  · rintro ⟨l, rest, rfl⟩
    exact ⟨⟨l :: rest, by simp⟩, by simp⟩
  · rintro ⟨⟨rest, rfl⟩, hne⟩
    cases rest with
    | nil => exact absurd (List.append_nil p).symm hne
    | cons l rest => exact ⟨l, rest, by simp⟩

/-- Labels with one more, at the end, if it is not among them. -/
def withLabel (ls : List String) : Option String → List String
  | none => ls
  | some l => if l ∈ ls then ls else ls ++ [l]

theorem any_label_iff {l : String} {ts : List Outline} :
    (ts.any fun t => t.label == l) = true ↔ l ∈ ts.map label := by
  simp [List.any_eq_true]

theorem under_nil (p : List String) : under p [] = [] := by
  cases p <;> rfl

theorem under_of_not_mem {l : String} {ts : List Outline} (h : l ∉ ts.map label)
    (p : List String) : under (l :: p) ts = [] := by
  have hnone : (ts.find? fun t => t.label == l) = none := by
    rw [List.find?_eq_none]
    intro t ht heq
    exact h (List.mem_map.mpr ⟨t, ht, eq_of_beq heq⟩)
  rw [under, hnone]
  rfl

/-- The node of a label after the nodes of this label have been changed below it. -/
theorem find?_changed {l m : String} (f : List Outline → List Outline) (ts : List Outline) :
    ((ts.map fun t => if t.label == l then node l (f t.children) else t).find?
        fun t => t.label == m)
      = (ts.find? fun t => t.label == m).map fun t =>
          if t.label == l then node l (f t.children) else t := by
  have hlabel : ∀ t : Outline, (if t.label == l then node l (f t.children) else t).label
      = t.label := by
    intro t
    split
    next heq => exact (eq_of_beq heq).symm
    next => rfl
  rw [List.find?_map]
  congr 2
  funext t
  show ((if t.label == l then node l (f t.children) else t).label == m) = (t.label == m)
  rw [hlabel]

/-- **Putting a path into an outline** adds one label below each beginning of the path, unless it is
there already, and nothing anywhere else. -/
theorem map_label_under_insert (p q : List String) (ts : List Outline) :
    (under p (insert q ts)).map label = withLabel ((under p ts).map label) (next? p q) := by
  -- the way down is followed label by label, in the outline and in the path at once
  induction p generalizing q ts with
  | nil =>
    cases q with
    | nil => rfl
    | cons l q =>
      rw [under, under, insert, next?, List.head?_cons, withLabel]
      split
      next hmem =>
        rw [if_pos (any_label_iff.mp hmem), List.map_map]
        refine List.map_congr_left fun t _ => ?_
        show (if t.label == l then node l (insert q t.children) else t).label = t.label
        split
        next heq => exact (eq_of_beq heq).symm
        next => rfl
      next hmem =>
        rw [if_neg (fun h => hmem (any_label_iff.mpr h)), List.map_append]
        rfl
  | cons m p ih =>
    cases q with
    | nil => rfl
    | cons l q =>
      rw [insert, next?]
      split
      next hmem =>
        rw [under, find?_changed, under]
        cases hfind : ts.find? fun t => t.label == m with
        | none =>
          have hne : m ≠ l := by
            rintro rfl
            obtain ⟨t, ht, htl⟩ := List.any_eq_true.mp hmem
            exact absurd htl (List.find?_eq_none.mp hfind t ht)
          rw [if_neg hne]
          rfl
        | some t =>
          have hbeq := List.find?_some hfind
          have htm : t.label = m := eq_of_beq hbeq
          simp only [Option.map_some, Option.getD_some, htm, beq_iff_eq]
          split
          next heq => exact ih q t.children
          next => rfl
      next hmem =>
        have habsent : l ∉ ts.map label := fun h => hmem (any_label_iff.mpr h)
        rw [under, List.find?_append]
        by_cases heq : m = l
        · subst heq
          have hnone : (ts.find? fun t => t.label == m) = none :=
            List.find?_eq_none.mpr fun t ht htm =>
              habsent (List.mem_map.mpr ⟨t, ht, eq_of_beq htm⟩)
          have hput := ih q []
          rw [under_nil] at hput
          rw [hnone, under_of_not_mem habsent, if_pos rfl, Option.none_or,
            List.find?_cons_of_pos (by simp [label])]
          exact hput
        · rw [List.find?_cons_of_neg (by simpa [label] using Ne.symm heq), List.find?_nil,
            Option.or_none, ← under, if_neg heq]
          rfl

/-- Labels of which each is kept once, with one more. -/
theorem eraseDups_append_toList (ls : List String) (l? : Option String) :
    (ls ++ l?.toList).eraseDups = withLabel ls.eraseDups l? := by
  rw [List.eraseDups_append]
  cases l? with
  | none => simp [withLabel]
  | some l =>
    rw [Option.toList_some, withLabel, List.removeAll]
    by_cases hmem : l ∈ ls
    · simp [hmem]
    · simp [hmem, List.eraseDups_cons]

/-- **The labels below a place are those that come after it in some path**, each once, in the order
in which they first appear. -/
theorem map_label_under_ofPaths (paths : List String) (p : List String) :
    (under p (ofPaths paths)).map label
      = ((paths.map labels).filterMap (next? p)).eraseDups := by
  -- the last path is put into the outline of the others
  induction paths using List.reverseRecOn with
  | nil =>
    rw [ofPaths, List.foldl_nil, under_nil]
    rfl
  | append_singleton paths path ih =>
    have hput : ofPaths (paths ++ [path]) = insert (labels path) (ofPaths paths) := by
      rw [ofPaths, List.foldl_append]
      rfl
    have hlast : ((paths ++ [path]).map labels).filterMap (next? p)
        = (paths.map labels).filterMap (next? p) ++ (next? p (labels path)).toList := by
      rw [List.map_append, List.filterMap_append]
      rfl
    rw [hput, map_label_under_insert, ih, hlast, eraseDups_append_toList]

theorem nodup_eraseDups (ls : List String) : ls.eraseDups.Nodup := by
  induction ls using List.reverseRecOn with
  | nil => exact List.nodup_nil
  | append_singleton ls l ih =>
    have hlast := eraseDups_append_toList ls (some l)
    rw [Option.toList_some] at hlast
    rw [hlast, withLabel]
    split
    next => exact ih
    next hmem => exact ih.append (List.nodup_singleton l) (List.disjoint_singleton.mpr hmem)

/-! ## §3. Items and places. -/

/-- An outline in which no two siblings have one label. -/
def Apart (ts : List Outline) : Prop := ∀ p, ((under p ts).map label).Nodup

theorem apart_ofPaths (paths : List String) : Apart (ofPaths paths) := by
  intro p
  rw [map_label_under_ofPaths]
  exact nodup_eraseDups _

theorem under_cons_self (t : Outline) (ts : List Outline) (p : List String) :
    under (t.label :: p) (t :: ts) = under p t.children := by
  have hfound : (t :: ts).find? (fun u => u.label == t.label) = some t :=
    List.find?_cons_eq_some.mpr (.inl ⟨beq_self_eq_true t.label, rfl⟩)
  rw [under, hfound]
  rfl

theorem under_cons_of_ne {l : String} {t : Outline} (h : t.label ≠ l) (ts : List Outline)
    (p : List String) : under (l :: p) (t :: ts) = under (l :: p) ts := by
  have hpast : (t :: ts).find? (fun u => u.label == l) = ts.find? fun u => u.label == l := by
    rw [List.find?_cons, beq_eq_false_iff_ne.mpr h]
  rw [under, hpast, under]

theorem Apart.head {t : Outline} {ts : List Outline} (h : Apart (t :: ts)) : Apart t.children :=
  fun p => under_cons_self t ts p ▸ h (t.label :: p)

theorem Apart.label_not_mem {t : Outline} {ts : List Outline} (h : Apart (t :: ts)) :
    t.label ∉ ts.map label := (List.nodup_cons.mp (h [])).1

theorem Apart.tail {t : Outline} {ts : List Outline} (h : Apart (t :: ts)) : Apart ts := by
  intro p
  cases p with
  | nil => exact (List.nodup_cons.mp (h [])).2
  | cons l p =>
    by_cases heq : t.label = l
    · subst heq
      rw [under_of_not_mem h.label_not_mem]
      exact List.nodup_nil
    · exact under_cons_of_ne heq ts p ▸ h (l :: p)

/-- The places of an outline as it is printed, each as the labels on the way to it. -/
def places : List Outline → List (List String)
  | [] => []
  | node l us :: ts => ([l] :: (places us).map (l :: ·)) ++ places ts

theorem exists_of_mem_places {ts : List Outline} {p : List String} (h : p ∈ places ts) :
    ∃ l ∈ ts.map label, ∃ q, p = l :: q := by
  induction ts with
  | nil =>
    rw [places] at h
    cases h
  | cons t ts ih =>
    obtain ⟨l, us⟩ := t
    rw [places, List.mem_append] at h
    rcases h with here | later
    · rcases List.mem_cons.mp here with rfl | below
      · exact ⟨l, List.mem_cons_self, [], rfl⟩
      · obtain ⟨q, -, rfl⟩ := List.mem_map.mp below
        exact ⟨l, List.mem_cons_self, q, rfl⟩
    · obtain ⟨m, hm, q, rfl⟩ := ih later
      exact ⟨m, List.mem_cons_of_mem _ hm, q, rfl⟩

/-- What is shown at a place of an outline. -/
def itemAt (above : List String) (expanded : Bool) (ts : List Outline) (p : List String) :
    TreeItem :=
  ⟨above ++ p, !(under p ts).isEmpty,
    if (under p ts).isEmpty then none else some (!expanded)⟩

/-- **One item is shown for each place of an outline.** -/
theorem treeItemsAll_items (expanded : Bool) : ∀ (ts : List Outline) (above : List String),
    Apart ts →
      treeItemsAll above (items expanded ts) = (places ts).map (itemAt above expanded ts)
  | [], _, _ => by rw [items, treeItemsAll, places, List.map_nil]
  | node l us :: ts, above, h => by
    have hbelow : (places us).map (itemAt (above ++ [l]) expanded us)
        = ((places us).map (l :: ·)).map (itemAt above expanded (node l us :: ts)) := by
      rw [List.map_map]
      refine List.map_congr_left fun p _ => ?_
      have hunder := under_cons_self (node l us) ts p
      show _ = itemAt above expanded (node l us :: ts) ((node l us).label :: p)
      rw [itemAt, itemAt, hunder, List.append_assoc]
      rfl
    have hlater : (places ts).map (itemAt above expanded ts)
        = (places ts).map (itemAt above expanded (node l us :: ts)) := by
      refine List.map_congr_left fun p hp => ?_
      obtain ⟨m, hm, q, rfl⟩ := exists_of_mem_places hp
      have hne : (node l us).label ≠ m := fun heq => h.label_not_mem (heq ▸ hm)
      rw [itemAt, itemAt, under_cons_of_ne hne]
    have hself := under_cons_self (node l us) ts []
    rw [treeItemsAll_items_cons, treeItems_item, treeItemsAll_items expanded us _ h.head,
      treeItemsAll_items expanded ts _ h.tail, hbelow, hlater, places, List.map_append,
      List.map_cons]
    congr 2
    show _ = itemAt above expanded (node l us :: ts) [(node l us).label]
    rw [itemAt, hself]
    rfl

/-- The last label of a path, if the others are the given ones. -/
def lastBelow? (p path : List String) : Option String :=
  if path.dropLast = p then path.getLast? else none

theorem lastBelow?_eq_some_iff {p q : List String} {l : String} :
    lastBelow? p q = some l ↔ q = p ++ [l] := by
  rcases List.eq_nil_or_concat' q with rfl | ⟨q, m, rfl⟩
  · simp [lastBelow?]
  · rw [lastBelow?, List.dropLast_concat, List.getLast?_concat]
    split
    next heq => simp [heq]
    next hne => simp [hne]

theorem lastBelow?_nil_cons {l : String} {q : List String} (h : q ≠ []) :
    lastBelow? [] (l :: q) = none := by
  rw [lastBelow?, List.dropLast_cons_of_ne_nil h, if_neg (List.cons_ne_nil _ _)]

theorem lastBelow?_cons_cons {l m : String} {q : List String} (h : q ≠ []) (p : List String) :
    lastBelow? (m :: p) (l :: q) = if l = m then lastBelow? p q else none := by
  rw [lastBelow?, lastBelow?, List.dropLast_cons_of_ne_nil h, List.getLast?_cons_of_ne_nil h]
  by_cases heq : l = m <;> simp [heq]

theorem ne_nil_of_mem_places {ts : List Outline} {p : List String} (h : p ∈ places ts) :
    p ≠ [] := by
  obtain ⟨l, -, q, rfl⟩ := exists_of_mem_places h
  exact List.cons_ne_nil l q

/-- What lies right below a label, among the places under it. -/
theorem filterMap_below (l m : String) (p : List String) (us : List Outline) :
    ((places us).map (l :: ·)).filterMap (lastBelow? (m :: p))
      = if l = m then (places us).filterMap (lastBelow? p) else [] := by
  rw [List.filterMap_map]
  split
  next heq =>
    refine List.filterMap_congr fun q hq => ?_
    rw [Function.comp_apply, lastBelow?_cons_cons (ne_nil_of_mem_places hq), if_pos heq]
  next hne =>
    refine List.filterMap_eq_nil_iff.mpr fun q hq => ?_
    rw [Function.comp_apply, lastBelow?_cons_cons (ne_nil_of_mem_places hq), if_neg hne]

/-- **The places right below a place come in the order of its children.** -/
theorem filterMap_places : ∀ (ts : List Outline) (p : List String), Apart ts →
    (places ts).filterMap (lastBelow? p) = (under p ts).map label
  | [], p, _ => by
    rw [places, under_nil]
    rfl
  | node l us :: ts, [], h => by
    have hbelow : ((places us).map (l :: ·)).filterMap (lastBelow? []) = [] := by
      rw [List.filterMap_map]
      exact List.filterMap_eq_nil_iff.mpr fun q hq =>
        lastBelow?_nil_cons (ne_nil_of_mem_places hq)
    have hself : lastBelow? [] [l] = some l := lastBelow?_eq_some_iff.mpr rfl
    rw [places, List.filterMap_append, List.filterMap_cons_some hself, hbelow,
      filterMap_places ts [] h.tail]
    rfl
  | node l us :: ts, m :: p, h => by
    have hself : lastBelow? (m :: p) [l] = none := if_neg (List.cons_ne_nil m p).symm
    rw [places, List.filterMap_append, List.filterMap_cons_none hself, filterMap_below]
    by_cases heq : l = m
    · subst heq
      have hlater : (places ts).filterMap (lastBelow? (l :: p)) = [] := by
        rw [filterMap_places ts _ h.tail, under_of_not_mem (l := l) h.label_not_mem, List.map_nil]
      have hunder : under (l :: p) (node l us :: ts) = under p us :=
        under_cons_self (node l us) ts p
      rw [if_pos rfl, hlater, List.append_nil, filterMap_places us p h.head, hunder]
    · rw [if_neg heq, List.nil_append, filterMap_places ts _ h.tail,
        under_cons_of_ne (t := node l us) heq]

/-! ## §4. What the items show. -/

/-- The items that show some paths. -/
structure ShowsPaths (paths : List (List String)) (expanded : Bool) (items : List TreeItem) :
    Prop where
  /-- There is an item for every non-empty beginning of a path, and for nothing else. -/
  beginnings : ∀ p, p ∈ items.map TreeItem.path ↔ p ≠ [] ∧ ∃ q ∈ paths, p <+: q
  /-- No two items stand for one beginning. -/
  once : (items.map TreeItem.path).Nodup
  /-- The items right below a place come in the order in which they first appear in the paths. -/
  siblings : ∀ p, (items.map TreeItem.path).filterMap (lastBelow? p)
    = (paths.filterMap (next? p)).eraseDups
  /-- An item is a folder exactly when some path goes beyond it. -/
  folders : ∀ r ∈ items, r.folder = true ↔ ∃ q ∈ paths, r.path <+: q ∧ r.path ≠ q
  /-- A folder has a list inside, hidden exactly when the tree is not expanded. -/
  lists : ∀ r ∈ items, r.hides = if r.folder then some (!expanded) else none

/-- Something lies under a place exactly when some path goes beyond it. -/
theorem under_ofPaths_isEmpty (paths : List String) (p : List String) :
    (!(under p (ofPaths paths)).isEmpty) = true
      ↔ ∃ q ∈ paths.map labels, p <+: q ∧ p ≠ q := by
  have hlabels := map_label_under_ofPaths paths p
  calc (!(under p (ofPaths paths)).isEmpty) = true
      ↔ (under p (ofPaths paths)).map label ≠ [] := by simp
    _ ↔ ((paths.map labels).filterMap (next? p)).eraseDups ≠ [] := by rw [hlabels]
    _ ↔ ∃ q ∈ paths.map labels, ∃ l, next? p q = some l := by
      constructor
      · intro hne
        obtain ⟨l, hl⟩ := List.exists_mem_of_ne_nil _ hne
        obtain ⟨q, hq, hnext⟩ := List.mem_filterMap.mp (List.mem_eraseDups.mp hl)
        exact ⟨q, hq, l, hnext⟩
      · rintro ⟨q, hq, l, hnext⟩
        exact List.ne_nil_of_mem (List.mem_eraseDups.mpr (List.mem_filterMap.mpr ⟨q, hq, hnext⟩))
    _ ↔ ∃ q ∈ paths.map labels, p <+: q ∧ p ≠ q := by simp only [exists_next?_iff]

/-- A place is printed exactly when it is the beginning of some path. -/
theorem mem_places_ofPaths {paths : List String} {p : List String} :
    p ∈ places (ofPaths paths) ↔ p ≠ [] ∧ ∃ q ∈ paths.map labels, p <+: q := by
  rcases List.eq_nil_or_concat' p with rfl | ⟨p, l, rfl⟩
  · exact ⟨fun h => absurd rfl (ne_nil_of_mem_places h), fun h => absurd rfl h.1⟩
  · calc p ++ [l] ∈ places (ofPaths paths)
        ↔ l ∈ (places (ofPaths paths)).filterMap (lastBelow? p) := by
          simp [List.mem_filterMap, lastBelow?_eq_some_iff]
      _ ↔ l ∈ ((paths.map labels).filterMap (next? p)).eraseDups := by
          rw [filterMap_places _ _ (apart_ofPaths paths), map_label_under_ofPaths]
      _ ↔ p ++ [l] ≠ [] ∧ ∃ q ∈ paths.map labels, p ++ [l] <+: q := by
          simp [List.mem_filterMap, next?_eq_some_iff]

theorem nodup_places {ts : List Outline} (h : Apart ts) : (places ts).Nodup := by
  rw [List.nodup_iff_count_le_one]
  intro p
  rcases List.eq_nil_or_concat' p with rfl | ⟨p, l, rfl⟩
  · rw [List.count_eq_zero_of_not_mem fun hmem => ne_nil_of_mem_places hmem rfl]
    exact Nat.zero_le 1
  · have hcount : (places ts).count (p ++ [l]) = ((under p ts).map label).count l := by
      rw [← filterMap_places ts p h, List.count_filterMap, List.count]
      refine List.countP_congr fun q _ => ?_
      simp [lastBelow?_eq_some_iff]
    rw [hcount]
    exact List.nodup_iff_count_le_one.mp (h p) l

/-- **The items of the outline of some paths show the paths.** -/
theorem showsPaths_items (paths : List String) (expanded : Bool) :
    ShowsPaths (paths.map labels) expanded
      (treeItemsAll [] (items expanded (ofPaths paths))) := by
  have happart := apart_ofPaths paths
  have hitems := treeItemsAll_items expanded (ofPaths paths) [] happart
  have hpaths : (treeItemsAll [] (items expanded (ofPaths paths))).map TreeItem.path
      = places (ofPaths paths) := by
    rw [hitems, List.map_map]
    exact List.map_id' _
  refine ⟨fun p => ?_, ?_, fun p => ?_, fun r hr => ?_, fun r hr => ?_⟩
  case refine_1 => rw [hpaths, mem_places_ofPaths]
  case refine_2 => rw [hpaths]; exact nodup_places happart
  case refine_3 => rw [hpaths, filterMap_places _ p happart, map_label_under_ofPaths]
  case refine_4 =>
    rw [hitems] at hr
    obtain ⟨p, -, rfl⟩ := List.mem_map.mp hr
    exact under_ofPaths_isEmpty paths p
  case refine_5 =>
    rw [hitems] at hr
    obtain ⟨p, -, rfl⟩ := List.mem_map.mp hr
    rw [itemAt]
    cases (under p (ofPaths paths)).isEmpty <;> rfl

example : treeItemsAll [] (items false (ofPaths ["a/b", "c", "/a//b/", "", "a"]))
    = [⟨["a"], true, some true⟩, ⟨["a", "b"], false, none⟩, ⟨["c"], false, none⟩] := by
  decide +kernel

end Outline

/-- **A tree of items shows its paths**, whatever the paths are: its list is in sight, its items are
the non-empty beginnings of the paths' labels, each once, siblings in the order in which they first
appear, what some path goes beyond is a folder, and the list inside a folder is hidden exactly when
the tree is not expanded. -/
theorem treeView_shows_paths {e : Element} {paths : List String} (hkind : e.kind = .treeView)
    (hpaths : (e.get "items").items = .ok (paths.map .text)) (s : PageSetting)
    (children : List Node) :
    ∃ attributes body,
      fragment s e children = .ok (box [] [.element "ul" attributes body]) ∧
      carries attributes "hidden" = false ∧
      Outline.ShowsPaths (paths.map Outline.labels) (e.flag "expanded")
        (treeItems [] (.element "ul" attributes body)) := by
  have hstrings : (paths.map Value.text).mapM stringOf = Except.ok paths := by
    clear hpaths
    induction paths with
    | nil => rfl
    | cons path paths ih => rw [List.map_cons, List.mapM_cons, ih]; rfl
  have hfragment : fragment s e children
      = .ok (box [] [Outline.markup (e.flag "expanded") (Outline.ofPaths paths)]) := by
    rw [fragment, hkind]
    show listing e = _
    rw [listing, hkind]
    show ((e.get "items").items >>= fun vs => _) = _
    rw [hpaths, ok_bind, hstrings]
    rfl
  refine ⟨_, _, hfragment, rfl, ?_⟩
  show Outline.ShowsPaths _ _ (treeItemsAll [] _)
  exact Outline.showsPaths_items paths (e.flag "expanded")

/-- A closed tree of sounds, in which one path comes twice, one is the beginning of another, one has
slashes that no label stands between, and one is empty. -/
def soundTree : Element :=
  ⟨.treeView, Element.assign .treeView
    [("id", .text "sounds"), ("name", .text "Sounds"), ("expanded", .bool false),
     ("items", .list (["Pad/Warm", "Pad", "/Lead//Solo/", "", "Pad/Warm"].map .text))]⟩

/-- The tree of sounds shows two folders with an item in each. -/
theorem soundTree_shows_paths :
    soundTree.kind = .treeView ∧
    (soundTree.get "items").items
      = .ok (["Pad/Warm", "Pad", "/Lead//Solo/", "", "Pad/Warm"].map .text) ∧
    ∃ attributes body,
      fragment (PageSetting.ofWindow default) soundTree []
        = .ok (box [] [.element "ul" attributes body]) ∧
      carries attributes "hidden" = false ∧
      Outline.ShowsPaths
        (["Pad/Warm", "Pad", "/Lead//Solo/", "", "Pad/Warm"].map Outline.labels) false
        (treeItems [] (.element "ul" attributes body)) := by
  have hkind : soundTree.kind = .treeView := rfl
  have hitems : (soundTree.get "items").items
      = .ok (["Pad/Warm", "Pad", "/Lead//Solo/", "", "Pad/Warm"].map .text) := rfl
  have hclosed : soundTree.flag "expanded" = false := by decide +kernel
  have hshown := treeView_shows_paths hkind hitems (PageSetting.ofWindow default) []
  rw [hclosed] at hshown
  exact ⟨hkind, hitems, hshown⟩

end ControlSurface.Markup
