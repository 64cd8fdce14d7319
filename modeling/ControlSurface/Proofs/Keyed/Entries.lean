/-
  ControlSurface.Proofs.Keyed.Entries
  ───────────────────────────────────
  Lists of entries that are put one after the other.  They keep their number iff no key comes twice
  (`length_ofList_eq_iff`), and then they stand as they were put (`ofList_of_nodup`).  An entry that
  was put is found under its key (`find?_put`, `find?_putAll_of_mem`), one that was filtered out is
  not (`find?_filter`), and one whose key was changed is found under the new key (`find?_map`).
-/
import ControlSurface.Keyed
import Mathlib.Data.List.Nodup

namespace ControlSurface.Keyed

variable {κ α : Type}

theorem keys_append (entries more : List (κ × α)) :
    keys (entries ++ more) = keys entries ++ keys more := List.map_append

theorem mem_keys {entries : List (κ × α)} {e : κ × α} (h : e ∈ entries) : e.1 ∈ keys entries :=
  List.mem_map.mpr ⟨e, h, rfl⟩

variable [BEq κ] [LawfulBEq κ]

/-! ## §1. One entry. -/

/-- A key that is there keeps its place. -/
theorem keys_put_of_mem (key : κ) (x : α) (entries : List (κ × α)) (h : key ∈ keys entries) :
    keys (put key x entries) = keys entries := by
  induction entries with
  | nil => simp [keys] at h
  | cons e rest ih =>
    obtain ⟨k, old⟩ := e
    by_cases hk : k = key
    · subst hk
      simp [put, keys]
    · have hrest : key ∈ keys rest := by
        simpa [keys, Ne.symm hk] using h
      simp only [put, beq_eq_false_iff_ne.mpr hk, Bool.false_eq_true, if_false]
      show k :: keys (put key x rest) = k :: keys rest
      rw [ih hrest]

/-- A key that is not there gets its entry at the end. -/
theorem put_of_not_mem (key : κ) (x : α) (entries : List (κ × α)) (h : key ∉ keys entries) :
    put key x entries = entries ++ [(key, x)] := by
  induction entries with
  | nil => rfl
  | cons e rest ih =>
    obtain ⟨k, old⟩ := e
    have hk : k ≠ key := fun hk => h (by simp [keys, hk])
    have hrest : key ∉ keys rest := fun hr => h (List.mem_cons_of_mem _ hr)
    simp only [put, beq_eq_false_iff_ne.mpr hk, Bool.false_eq_true, if_false, List.cons_append]
    rw [ih hrest]

/-- A key that is there adds no entry. -/
theorem length_put_of_mem (key : κ) (x : α) (entries : List (κ × α)) (h : key ∈ keys entries) :
    (put key x entries).length = entries.length := by
  have := congrArg List.length (keys_put_of_mem key x entries h)
  rwa [keys, keys, List.length_map, List.length_map] at this

/-- Putting an entry brings in no key but its own. -/
theorem mem_keys_put {key other : κ} {x : α} {entries : List (κ × α)}
    (h : other ∈ keys (put key x entries)) : other = key ∨ other ∈ keys entries := by
  by_cases hk : key ∈ keys entries
  · rw [keys_put_of_mem key x entries hk] at h
    exact Or.inr h
  · rw [put_of_not_mem key x entries hk, keys_append, List.mem_append] at h
    rcases h with h | h
    · exact Or.inr h
    · exact Or.inl (by simpa [keys] using h)

theorem mem_keys_put_iff {key other : κ} {x : α} {entries : List (κ × α)} :
    other ∈ keys (put key x entries) ↔ other = key ∨ other ∈ keys entries := by
  refine ⟨mem_keys_put, fun h => ?_⟩
  by_cases hk : key ∈ keys entries
  · rw [keys_put_of_mem key x entries hk]
    exact h.elim (fun heq => heq ▸ hk) id
  · rw [put_of_not_mem key x entries hk, keys_append, List.mem_append]
    exact h.symm.imp_right List.mem_singleton.mpr

/-! ## §2. Many entries. -/

/-- The keys are those of the entries that were put. -/
theorem mem_keys_putAll {other : κ} {entries more : List (κ × α)}
    (h : other ∈ keys (putAll entries more)) : other ∈ keys entries ∨ other ∈ keys more := by
  induction more generalizing entries with
  | nil => exact Or.inl h
  | cons e more ih =>
    have h : other ∈ keys (putAll (put e.1 e.2 entries) more) := h
    rcases ih h with h | h
    · rcases mem_keys_put h with rfl | h
      · exact Or.inr (List.mem_cons_self ..)
      · exact Or.inl h
    · exact Or.inr (List.mem_cons_of_mem _ h)

theorem mem_keys_ofList {other : κ} {entries : List (κ × α)} (h : other ∈ keys (ofList entries)) :
    other ∈ keys entries :=
  (mem_keys_putAll h).resolve_left List.not_mem_nil

theorem mem_keys_putAll_iff {other : κ} {entries more : List (κ × α)} :
    other ∈ keys (putAll entries more) ↔ other ∈ keys entries ∨ other ∈ keys more := by
  refine ⟨mem_keys_putAll, fun h => ?_⟩
  induction more generalizing entries with
  | nil => exact h.resolve_right List.not_mem_nil
  | cons e more ih =>
    have hkeys : other ∈ keys (e :: more) ↔ other = e.1 ∨ other ∈ keys more := List.mem_cons
    rw [hkeys, or_left_comm, ← or_assoc] at h
    exact ih (h.imp_left mem_keys_put_iff.mpr)

/-- Keys that are all different stay so. -/
theorem nodup_keys_put {key : κ} {x : α} {entries : List (κ × α)} (h : (keys entries).Nodup) :
    (keys (put key x entries)).Nodup := by
  by_cases hk : key ∈ keys entries
  · rw [keys_put_of_mem key x entries hk]
    exact h
  · rw [put_of_not_mem key x entries hk, keys_append]
    exact h.append (List.nodup_singleton key) (List.disjoint_singleton.mpr hk)

theorem nodup_keys_putAll {entries more : List (κ × α)} (h : (keys entries).Nodup) :
    (keys (putAll entries more)).Nodup := by
  induction more generalizing entries with
  | nil => exact h
  | cons e more ih => exact ih (nodup_keys_put h)

theorem mem_keys_ofList_iff {other : κ} {entries : List (κ × α)} :
    other ∈ keys (ofList entries) ↔ other ∈ keys entries := by
  rw [ofList, mem_keys_putAll_iff]
  exact or_iff_right List.not_mem_nil

theorem length_putAll_le (entries more : List (κ × α)) :
    (putAll entries more).length ≤ entries.length + more.length := by
  induction more generalizing entries with
  | nil => exact Nat.le_refl _
  | cons e more ih =>
    have hput : (put e.1 e.2 entries).length ≤ entries.length + 1 := by
      by_cases h : e.1 ∈ keys entries
      · rw [length_put_of_mem _ _ _ h]
        omega
      · rw [put_of_not_mem _ _ _ h]
        simp
    have := ih (put e.1 e.2 entries)
    show (putAll (put e.1 e.2 entries) more).length ≤ _
    simp only [List.length_cons]
    omega

/-- Entries whose keys are all different are put at the end, one after the other. -/
theorem putAll_of_nodup (entries more : List (κ × α)) (h : (keys (entries ++ more)).Nodup) :
    putAll entries more = entries ++ more := by
  induction more generalizing entries with
  | nil => simp [putAll]
  | cons e more ih =>
    have hnew : e.1 ∉ keys entries := by
      intro hmem
      rw [keys, List.map_append, List.nodup_append] at h
      exact h.2.2 _ hmem _ (List.mem_cons_self ..) rfl
    show putAll (put e.1 e.2 entries) more = _
    rw [put_of_not_mem _ _ _ hnew, ih]
    · simp
    · simpa using h

/-- **Entries keep their number iff no key comes twice.** -/
theorem length_putAll_eq_iff (entries more : List (κ × α)) (hd : (keys entries).Nodup) :
    (putAll entries more).length = entries.length + more.length
      ↔ (keys (entries ++ more)).Nodup := by
  constructor
  · intro h
    induction more generalizing entries with
    | nil => simpa using hd
    | cons e more ih =>
      have hrun : (putAll (put e.1 e.2 entries) more).length
          = entries.length + (more.length + 1) := h
      have hle := length_putAll_le (put e.1 e.2 entries) more
      have hnew : e.1 ∉ keys entries := by
        intro hmem
        rw [length_put_of_mem _ _ _ hmem] at hle
        omega
      have hput := put_of_not_mem e.1 e.2 entries hnew
      have hkeys : (keys (entries ++ [e])).Nodup := by
        rw [keys, List.map_append, List.nodup_append]
        refine ⟨hd, by simp, ?_⟩
        intro a ha b hb hab
        simp only [List.map_cons, List.map_nil, List.mem_singleton] at hb
        exact hnew (hb ▸ hab ▸ ha)
      rw [hput] at hrun
      have := ih (entries ++ [e]) hkeys (by rw [hrun]; simp; omega)
      simpa using this
  · intro h
    rw [putAll_of_nodup entries more h, List.length_append]

/-- A list of entries keeps its number iff no key comes twice. -/
theorem length_ofList_eq_iff (entries : List (κ × α)) :
    (ofList entries).length = entries.length ↔ (keys entries).Nodup := by
  have := length_putAll_eq_iff [] entries (by simp [keys])
  simpa [ofList] using this

omit [LawfulBEq κ] in
/-- The last entry is put among all others. -/
theorem ofList_append_singleton (entries : List (κ × α)) (key : κ) (x : α) :
    ofList (entries ++ [(key, x)]) = put key x (ofList entries) := by
  rw [ofList, ofList, putAll, putAll, List.foldl_append]
  rfl

theorem ofList_of_nodup (entries : List (κ × α)) (h : (keys entries).Nodup) :
    ofList entries = entries := by
  simpa [ofList] using putAll_of_nodup [] entries (by simpa using h)

/-! ## §3. Finding. -/

omit [LawfulBEq κ] in
theorem find?_cons (key k : κ) (x : α) (rest : List (κ × α)) :
    find? key ((k, x) :: rest) = if k == key then some x else find? key rest := rfl

/-- Nothing is found under a key that no entry has. -/
theorem find?_eq_none_iff {key : κ} {entries : List (κ × α)} :
    find? key entries = none ↔ ∀ e ∈ entries, e.1 ≠ key := by
  induction entries with
  | nil => simp [find?]
  | cons e rest ih =>
    obtain ⟨k, x⟩ := e
    rw [find?_cons]
    by_cases hk : k = key
    · simp [hk]
    · simp [hk, ih]

theorem exists_of_find? {key : κ} {x : α} {entries : List (κ × α)}
    (h : find? key entries = some x) : (key, x) ∈ entries := by
  induction entries with
  | nil => cases h
  | cons e rest ih =>
    obtain ⟨k, y⟩ := e
    rw [find?_cons] at h
    by_cases hk : k = key
    · subst hk
      rw [if_pos (beq_self_eq_true k)] at h
      cases h
      exact List.mem_cons_self ..
    · rw [if_neg (by simpa using hk)] at h
      exact List.mem_cons_of_mem _ (ih h)

/-- An entry that was put is found, and all others are found as before. -/
theorem find?_put [DecidableEq κ] (key other : κ) (x : α) (entries : List (κ × α)) :
    find? other (put key x entries) = if other = key then some x else find? other entries := by
  induction entries with
  | nil =>
    rw [put, find?_cons, find?]
    by_cases h : other = key
    · simp [h]
    · simp [h, Ne.symm h]
  | cons e rest ih =>
    obtain ⟨k, y⟩ := e
    rw [put]
    by_cases hk : k = key
    · subst hk
      rw [if_pos (beq_self_eq_true k), find?_cons, find?_cons]
      by_cases h : other = k
      · simp [h]
      · simp [h, Ne.symm h]
    · rw [if_neg (by simpa using hk), find?_cons, find?_cons, ih]
      by_cases h : k = other
      · subst h
        simp [hk]
      · simp [h]

/-- Putting again what is found changes nothing. -/
theorem put_of_find? {key : κ} {x : α} {entries : List (κ × α)} (h : find? key entries = some x) :
    put key x entries = entries := by
  induction entries with
  | nil => cases h
  | cons e rest ih =>
    obtain ⟨k, y⟩ := e
    rw [find?_cons] at h
    rw [put]
    by_cases hk : k = key
    · rw [if_pos (beq_iff_eq.mpr hk)] at h
      cases h
      rw [if_pos (beq_iff_eq.mpr hk)]
    · rw [if_neg (by simpa using hk)] at h
      rw [if_neg (by simpa using hk), ih h]

/-- Putting an entry brings in no entry but that one. -/
theorem mem_put {key : κ} {x : α} {e : κ × α} {entries : List (κ × α)}
    (h : e ∈ put key x entries) : e = (key, x) ∨ e ∈ entries := by
  induction entries with
  | nil => exact Or.inl (List.mem_singleton.mp h)
  | cons first rest ih =>
    obtain ⟨k, old⟩ := first
    rw [put] at h
    by_cases hk : (k == key) = true
    · rw [if_pos hk, eq_of_beq hk, List.mem_cons] at h
      exact h.imp_right (List.mem_cons_of_mem _)
    · rw [if_neg hk, List.mem_cons] at h
      rcases h with rfl | h
      · exact Or.inr (List.mem_cons_self ..)
      · exact (ih h).imp_right (List.mem_cons_of_mem _)

/-- Entries are among those that were put. -/
theorem mem_putAll {e : κ × α} {entries more : List (κ × α)} (h : e ∈ putAll entries more) :
    e ∈ entries ∨ e ∈ more := by
  induction more generalizing entries with
  | nil => exact Or.inl h
  | cons first more ih =>
    have h : e ∈ putAll (put first.1 first.2 entries) more := h
    rcases ih h with h | h
    · rcases mem_put h with rfl | h
      · exact Or.inr (List.mem_cons_self ..)
      · exact Or.inl h
    · exact Or.inr (List.mem_cons_of_mem _ h)

theorem mem_ofList {e : κ × α} {entries : List (κ × α)} (h : e ∈ ofList entries) : e ∈ entries :=
  (mem_putAll h).resolve_left List.not_mem_nil

/-- What is put under other keys changes nothing of what is found. -/
theorem find?_putAll_of_not_mem [DecidableEq κ] {key : κ} {entries more : List (κ × α)}
    (h : key ∉ keys more) : find? key (putAll entries more) = find? key entries := by
  induction more generalizing entries with
  | nil => rfl
  | cons e more ih =>
    rw [keys, List.map_cons, List.mem_cons, not_or] at h
    show find? key (putAll (put e.1 e.2 entries) more) = _
    rw [ih h.2, find?_put, if_neg h.1]

/-- Of entries that are put under different keys, each is found. -/
theorem find?_putAll_of_mem [DecidableEq κ] {key : κ} {x : α} {entries more : List (κ × α)}
    (hmore : (keys more).Nodup) (h : (key, x) ∈ more) :
    find? key (putAll entries more) = some x := by
  induction more generalizing entries with
  | nil => cases h
  | cons e more ih =>
    obtain ⟨hnew, hrest⟩ := List.nodup_cons.mp hmore
    show find? key (putAll (put e.1 e.2 entries) more) = _
    rcases List.mem_cons.mp h with rfl | h
    · rw [find?_putAll_of_not_mem hnew, find?_put, if_pos rfl]
    · exact ih hrest h

/-- Of entries with different keys, each is found. -/
theorem find?_of_mem [DecidableEq κ] {key : κ} {x : α} {entries : List (κ × α)}
    (hentries : (keys entries).Nodup) (h : (key, x) ∈ entries) : find? key entries = some x := by
  rw [← ofList_of_nodup entries hentries]
  exact find?_putAll_of_mem hentries h

/-- Entries with the keys of a table are those that its keys find, row by row. -/
theorem forall₂_find? [DecidableEq κ] {β : Type} {table : List (κ × β)}
    {entries given : List (κ × α)} (hkeys : keys entries = table.map Prod.fst)
    (hgiven : (keys given).Nodup) (hsub : ∀ e ∈ entries, e ∈ given) :
    List.Forall₂ (fun row e => row.1 = e.1 ∧ find? row.1 given = some e.2) table entries := by
  induction entries generalizing table with
  | nil =>
    rw [List.map_eq_nil_iff.mp hkeys.symm]
    exact .nil
  | cons e entries ih =>
    cases table with
    | nil => cases hkeys
    | cons row table =>
      obtain ⟨hkey, hkeys⟩ := List.cons.inj hkeys
      have hfound : find? e.1 given = some e.2 :=
        find?_of_mem hgiven (hsub e (List.mem_cons_self ..))
      refine .cons ⟨hkey.symm, hkey ▸ hfound⟩ (ih hkeys fun e he => ?_)
      exact hsub e (List.mem_cons_of_mem _ he)

/-- What is kept is found as before, and nothing is found under other keys. -/
theorem find?_filter (key : κ) (keep : κ → Bool) (entries : List (κ × α)) :
    find? key (entries.filter fun e => keep e.1)
      = if keep key then find? key entries else none := by
  induction entries with
  | nil => simp [find?]
  | cons e rest ih =>
    obtain ⟨k, x⟩ := e
    by_cases hk : k = key
    · subst hk
      cases hkeep : keep k with
      | true => simp [hkeep, find?_cons]
      | false => simpa [hkeep] using ih
    · cases hkeep : keep k with
      | true => simpa [hkeep, find?_cons, hk] using ih
      | false => simpa [hkeep, find?_cons, hk] using ih

/-- Entries whose keys are changed are found under the new keys, where no two keys become one. -/
theorem find?_map (change : κ → κ) (key old : κ) (entries : List (κ × α))
    (h : ∀ e ∈ entries, change e.1 = key ↔ e.1 = old) :
    find? key (entries.map fun e => (change e.1, e.2)) = find? old entries := by
  induction entries with
  | nil => rfl
  | cons e rest ih =>
    obtain ⟨k, x⟩ := e
    rw [List.map_cons, find?_cons, find?_cons, ih fun e he => h e (List.mem_cons_of_mem _ he)]
    have hk : change k = key ↔ k = old := h (k, x) (List.mem_cons_self ..)
    by_cases hold : k = old
    · rw [if_pos (by simpa using hk.mpr hold), if_pos (by simpa using hold)]
    · rw [if_neg (by simpa using fun hc => hold (hk.mp hc)), if_neg (by simpa using hold)]

omit [LawfulBEq κ] in
/-- Of entries that are changed, the change of an entry is found under its key. -/
theorem find?_map_snd {β : Type} (change : α → β) (key : κ) (entries : List (κ × α)) :
    find? key (entries.map fun e => (e.1, change e.2)) = (find? key entries).map change := by
  induction entries with
  | nil => rfl
  | cons e rest ih =>
    obtain ⟨k, x⟩ := e
    rw [List.map_cons, find?_cons, find?_cons, ih]
    split <;> rfl

end ControlSurface.Keyed
