/-
  ControlSurface.Proofs.Text.Replacing
  ────────────────────────────────────
  Where a pattern occurs in a text, and what a replacement makes of it.  A character that stands in
  no occurrence parts a text, so a text of several lines is searched line by line
  (`unbroken_apart`).  The first occurrence comes before every other (`Unbroken.first`), and it is
  the one that is replaced if only one is (`exists_replaced`).  If all are, then from left to right
  a character is kept, or an occurrence of the pattern gives way to the replacement (`Replaces`);
  `replaceAll` does just this (`replaces_replaceAll`), so facts about replaced text go by induction
  on `Replaces`.
-/
import ControlSurface.Proofs.Text.Search

namespace ControlSurface.Text

/-! ## §1. Parts of a text. -/

section Parted

variable {mark : Char} {pattern : List Char}

/-- A text that begins with a pattern does so before the first mark. -/
theorem prefix_apart (h : mark ∉ pattern) (front rest : List Char) :
    pattern <+: front ++ mark :: rest ↔ pattern <+: front := by
  constructor
  · rintro ⟨after, heq⟩
    obtain ⟨more, hfront, _⟩ | ⟨more, hpattern, hrest⟩ := List.append_eq_append_iff.mp heq
    · exact ⟨more, hfront.symm⟩
    · cases more with
      | nil => exact ⟨[], by rw [hpattern]; simp⟩
      | cons c more =>
        -- the mark would stand in the pattern
        obtain ⟨rfl, _⟩ := List.cons.inj hrest
        exact absurd (hpattern ▸ List.mem_append_right _ (List.mem_cons_self ..)) h
  · exact fun hfront => hfront.trans (List.prefix_append _ _)

theorem after?_eq_none_iff {pattern cs : List Char} :
    after? pattern cs = none ↔ ¬ pattern <+: cs := by
  rw [Option.eq_none_iff_forall_ne_some]
  constructor
  · rintro hnone ⟨rest, heq⟩
    exact hnone rest (after?_eq_some_iff.mpr heq.symm)
  · intro hnot rest hsome
    exact hnot ⟨rest, (after?_eq_some_iff.mp hsome).symm⟩

theorem unbroken_cons_iff {c : Char} {cs : List Char} :
    Unbroken pattern (c :: cs) ↔ ¬ pattern <+: c :: (cs ++ pattern) ∧ Unbroken pattern cs :=
  and_congr_left' after?_eq_none_iff

/-- **A character that stands in no occurrence parts a text**: what goes before the first occurrence
is searched part by part. -/
theorem unbroken_apart (h : mark ∉ pattern) (front rest : List Char) :
    Unbroken pattern (front ++ mark :: rest)
      ↔ ¬ pattern <:+: front ∧ Unbroken pattern rest := by
  induction front with
  | nil =>
    rw [List.nil_append, unbroken_cons_iff, ← List.nil_append (mark :: _), prefix_apart h,
      List.prefix_nil, List.infix_nil]
  | cons c front ih =>
    rw [List.cons_append, unbroken_cons_iff, ih, List.infix_cons_iff, List.append_assoc,
      List.cons_append, ← List.cons_append, prefix_apart h, not_or, and_assoc]

end Parted

/-- A tag that begins with a character it does not hold again. -/
def Opens (mark : Char) (opening : List Char) : Prop :=
  opening.head? = some mark ∧ mark ∉ opening.tail

/-- Of two tags in a text the first one is over where the second one begins. -/
theorem Opens.prefix_of_append {mark : Char} {opening other rest before after : List Char}
    (h : Opens mark opening) (hother : Opens mark other)
    (heq : opening ++ rest = before ++ (other ++ after)) : before = [] ∨ opening <+: before := by
  obtain ⟨pattern, rfl⟩ := List.head?_eq_some_iff.mp h.1
  obtain ⟨others, rfl⟩ := List.head?_eq_some_iff.mp hother.1
  cases before with
  | nil => exact Or.inl rfl
  | cons c before =>
    obtain ⟨rfl, htail⟩ := List.cons.inj heq
    obtain ⟨more, hbefore, _⟩ | ⟨more, hpattern, hmore⟩ := List.append_eq_append_iff.mp htail
    · exact Or.inr ⟨more, by rw [hbefore]; rfl⟩
    · cases more with
      | nil => exact Or.inr ⟨[], by rw [hpattern]; simp⟩
      | cons d more =>
        -- the character would stand in the first tag again
        obtain ⟨rfl, _⟩ := List.cons.inj hmore
        exact absurd (hpattern ▸ List.mem_append_right _ (List.mem_cons_self ..)) h.2

/-! ## §2. The first occurrence. -/

section First

variable {pattern : List Char}

/-- A pattern that occurs has a first occurrence. -/
theorem exists_first {cs : List Char} (h : pattern <:+: cs) :
    ∃ found rest, cs = found ++ (pattern ++ rest) ∧ Unbroken pattern found := by
  induction cs with
  | nil =>
    rw [List.infix_nil.mp h]
    exact ⟨[], [], rfl, trivial⟩
  | cons c cs ih =>
    by_cases hstarts : pattern <+: c :: cs
    · obtain ⟨rest, hrest⟩ := hstarts
      exact ⟨[], rest, hrest.symm, trivial⟩
    · obtain ⟨found, rest, rfl, hfound⟩ := ih ((List.infix_cons_iff.mp h).resolve_left hstarts)
      refine ⟨c :: found, rest, rfl, ?_, hfound⟩
      have hnone := after?_eq_none_iff.mpr hstarts
      rwa [after?_room, Option.map_eq_none_iff] at hnone

/-- **The first occurrence comes before every other.** -/
theorem Unbroken.first {found before rest after : List Char} (h : Unbroken pattern found)
    (heq : found ++ (pattern ++ rest) = before ++ (pattern ++ after)) : found <+: before := by
  obtain ⟨more, hbefore, _⟩ | ⟨more, hfound, hmore⟩ := List.append_eq_append_iff.mp heq
  · exact ⟨more, hbefore.symm⟩
  · cases more with
    | nil => exact ⟨[], by rw [hfound]; simp⟩
    | cons c more =>
      -- the pattern would stand where the first occurrence was not found yet
      rw [hfound] at h
      have hnone := h.suffix.1
      have hroom := after?_room pattern c more rest
      rw [hnone, Option.map_none, ← List.cons_append, ← hmore, after?_append] at hroom
      cases hroom

/-- The search finds what occurs. -/
theorem occursIn_iff {cs : List Char} : occursIn pattern cs = true ↔ pattern <:+: cs := by
  rw [occursIn, Option.isSome_iff_exists]
  constructor
  · rintro ⟨⟨found, rest⟩, hcut⟩
    exact ⟨found, rest, by rw [(cutAt?_eq_some_iff.mp hcut).1, List.append_assoc]⟩
  · intro hoccurs
    obtain ⟨found, rest, heq, hfirst⟩ := exists_first hoccurs
    exact ⟨(found, rest), cutAt?_eq_some_iff.mpr ⟨heq, hfirst⟩⟩

theorem replaceFirst_of_unbroken {before : List Char} (h : Unbroken pattern before)
    (replacement after : List Char) :
    replaceFirst pattern replacement (before ++ (pattern ++ after))
      = before ++ (replacement ++ after) := by
  rw [replaceFirst, cutAt?_eq_some_iff.mpr ⟨rfl, h⟩]
  exact List.append_assoc ..

theorem replaceFirst_of_absent {cs : List Char} (h : ¬ pattern <:+: cs)
    (replacement : List Char) : replaceFirst pattern replacement cs = cs := by
  rw [replaceFirst]
  split
  next before after hcut =>
    exact absurd ⟨before, after, by rw [(cutAt?_eq_some_iff.mp hcut).1]; simp⟩ h
  next => rfl

/-- **What is replaced**: the first occurrence, which is the given one or one before it. -/
theorem exists_replaced (before after replacement : List Char) :
    ∃ found rest, found <+: before ∧ before ++ (pattern ++ after) = found ++ (pattern ++ rest)
      ∧ replaceFirst pattern replacement (before ++ (pattern ++ after))
          = found ++ (replacement ++ rest) := by
  have hoccurs : pattern <:+: before ++ (pattern ++ after) := ⟨before, after, by simp⟩
  obtain ⟨found, rest, heq, hfirst⟩ := exists_first hoccurs
  rw [heq]
  exact ⟨found, rest, hfirst.first heq.symm, rfl, replaceFirst_of_unbroken hfirst replacement rest⟩

end First


/-! ## §3. Splitting from a place. -/

theorem startsWith_eq_true_iff {pattern cs : List Char} :
    startsWith pattern cs = true ↔ ∃ rest, cs = pattern ++ rest := by
  rw [startsWith, Option.isSome_iff_exists]
  exact exists_congr fun rest => after?_eq_some_iff

/-- The rest of an occurrence is passed over. -/
theorem splitFrom_skip (pattern piece : List Char) (pieces : List (List Char)) (cs ds : List Char) :
    splitFrom pattern cs.length piece pieces (cs ++ ds) = splitFrom pattern 0 piece pieces ds := by
  induction cs with
  | nil => rfl
  | cons c cs ih => exact ih

theorem splitFrom_cons (pattern piece : List Char) (pieces : List (List Char)) (c : Char)
    (cs : List Char) :
    splitFrom pattern 0 piece pieces (c :: cs)
      = if startsWith pattern (c :: cs) then
          splitFrom pattern (pattern.length - 1) [] (piece.reverse :: pieces) cs
        else splitFrom pattern 0 (c :: piece) pieces cs := rfl

/-- A piece that has begun goes on with the first piece of what follows. -/
theorem splitFrom_piece (pattern piece cs : List Char) :
    ∃ first rest, splitAt pattern cs = first :: rest
      ∧ splitFrom pattern 0 piece [] cs = (piece.reverse ++ first) :: rest := by
  induction cs generalizing piece with
  | nil => exact ⟨[], [], rfl, by simp [splitFrom]⟩
  | cons c cs ih =>
    rw [splitAt, splitFrom_cons, splitFrom_cons]
    by_cases hstarts : startsWith pattern (c :: cs) = true
    · -- the piece ends here
      rw [if_pos hstarts, if_pos hstarts, splitFrom_pieces, splitFrom_pieces _ _ _ [_]]
      exact ⟨[], splitFrom pattern (pattern.length - 1) [] [] cs, rfl, by simp⟩
    · obtain ⟨first, rest, hsplit, hone⟩ := ih [c]
      obtain ⟨first', rest', hsplit', hmore⟩ := ih (c :: piece)
      obtain ⟨rfl, rfl⟩ := List.cons.inj (hsplit.symm.trans hsplit')
      rw [if_neg hstarts, if_neg hstarts, hone, hmore]
      exact ⟨c :: first, rest, rfl, by simp⟩

/-! ## §4. Replacing. -/

variable {pattern replacement : List Char}

theorem replaceAll_nil : replaceAll pattern replacement [] = [] := by
  simp [replaceAll, splitAt, splitFrom, joinWith]

/-- A character at which the pattern does not begin is kept. -/
theorem replaceAll_cons {c : Char} {cs : List Char} (h : startsWith pattern (c :: cs) = false) :
    replaceAll pattern replacement (c :: cs) = c :: replaceAll pattern replacement cs := by
  obtain ⟨first, rest, hsplit, hone⟩ := splitFrom_piece pattern [c] cs
  have hcons : splitAt pattern (c :: cs) = (c :: first) :: rest := by
    rw [splitAt, splitFrom_cons, if_neg (by rw [h]; decide)]
    exact hone
  rw [replaceAll, replaceAll, hcons, hsplit]
  cases rest with
  | nil => simp [joinWith]
  | cons q rest => rw [joinWith_cons_cons, joinWith_cons_cons, List.cons_append]

/-- An occurrence of the pattern gives way to the replacement. -/
theorem replaceAll_append (hpattern : pattern ≠ []) (cs : List Char) :
    replaceAll pattern replacement (pattern ++ cs)
      = replacement ++ replaceAll pattern replacement cs := by
  obtain ⟨p, ps, rfl⟩ := List.exists_cons_of_ne_nil hpattern
  have hstarts : startsWith (p :: ps) (p :: (ps ++ cs)) = true :=
    startsWith_eq_true_iff.mpr ⟨cs, rfl⟩
  have hsplit : splitAt (p :: ps) (p :: ps ++ cs) = [] :: splitAt (p :: ps) cs := by
    rw [List.cons_append, splitAt, splitFrom_cons, if_pos hstarts, splitFrom_pieces,
      List.length_cons, Nat.add_sub_cancel, splitFrom_skip]
    rfl
  obtain ⟨first, rest, hfirst, _⟩ := splitFrom_piece (p :: ps) [] cs
  rw [replaceAll, replaceAll, hsplit, hfirst, joinWith_cons_cons, List.nil_append]

/-- Nothing is replaced where the first character of the pattern does not stand. -/
theorem replaceAll_of_not_mem {c : Char} {cs : List Char} (h : c ∉ cs) (p : List Char) :
    replaceAll (c :: p) replacement cs = cs := by
  induction cs with
  | nil => exact replaceAll_nil
  | cons d cs ih =>
    obtain ⟨hne, hcs⟩ := List.ne_and_not_mem_of_not_mem_cons h
    have hstarts : startsWith (c :: p) (d :: cs) = false := by
      refine Bool.eq_false_iff.mpr fun hstarts => ?_
      obtain ⟨rest, hrest⟩ := startsWith_eq_true_iff.mp hstarts
      exact hne (List.cons.inj hrest).1.symm
    rw [replaceAll_cons hstarts, ih hcs]

/-- What a replacement makes of a text, from left to right. -/
inductive Replaces (pattern replacement : List Char) : List Char → List Char → Prop
  | nil : Replaces pattern replacement [] []
  | keep {c : Char} {cs ds : List Char} (hstarts : startsWith pattern (c :: cs) = false)
      (hrest : Replaces pattern replacement cs ds) :
      Replaces pattern replacement (c :: cs) (c :: ds)
  | swap {cs ds : List Char} (hrest : Replaces pattern replacement cs ds) :
      Replaces pattern replacement (pattern ++ cs) (replacement ++ ds)

/-- **Replacing keeps characters and swaps occurrences.** -/
theorem replaces_replaceAll (hpattern : pattern ≠ []) (cs : List Char) :
    Replaces pattern replacement cs (replaceAll pattern replacement cs) := by
  -- an occurrence is passed at once, so the text gets shorter by more than one
  induction hn : cs.length using Nat.strongRecOn generalizing cs with
  | ind n ih =>
    subst hn
    cases cs with
    | nil =>
      rw [replaceAll_nil]
      exact .nil
    | cons c cs =>
      cases hstarts : startsWith pattern (c :: cs) with
      | false =>
        rw [replaceAll_cons hstarts]
        exact .keep hstarts (ih cs.length (by simp) cs rfl)
      | true =>
        obtain ⟨rest, hrest⟩ := startsWith_eq_true_iff.mp hstarts
        rw [hrest, replaceAll_append hpattern]
        refine .swap (ih rest.length ?_ rest rfl)
        have hlength := congrArg List.length hrest
        have hpositive := List.length_pos_iff.mpr hpattern
        rw [List.length_append] at hlength
        omega

/-! ## §5. One character. -/

/-- A character that is replaced wherever it stands. -/
theorem replaceAll_singleton (c : Char) (replacement cs : List Char) :
    replaceAll [c] replacement cs = cs.flatMap fun d => if d = c then replacement else [d] := by
  induction cs with
  | nil => exact replaceAll_nil
  | cons d cs ih =>
    by_cases h : d = c
    · subst h
      have hswap := @replaceAll_append [d] replacement (List.cons_ne_nil d []) cs
      rw [List.singleton_append] at hswap
      rw [hswap, List.flatMap_cons, if_pos rfl, ih]
    · have hmark : startsWith [c] (d :: cs) = false := by
        rw [startsWith_mark]
        simpa using fun heq => h heq.symm
      rw [replaceAll_cons hmark, List.flatMap_cons, if_neg h, ih]
      rfl

end ControlSurface.Text
