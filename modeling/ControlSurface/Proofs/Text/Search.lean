/-
  ControlSurface.Proofs.Text.Search
  ─────────────────────────────────
  What a search in text finds.  Reading a beginning is the inverse of putting it before a text
  (`after?_eq_some_iff`).  A cut is made at the first occurrence of the pattern, and where that is
  does not depend on what follows it (`cutAt?_eq_some_iff`).  Splitting parts a text at every mark
  (`splitAt_mark`); splitting and joining bring in no characters but those of the text and of the
  separator.  The first mark parts a text in one way only, and so does the last one.  What stands in
a text stands in its bytes (`infix_bytes`).
-/
import ControlSurface.Text.Search
import Mathlib.Data.Bool.AllAny

namespace ControlSurface.Text

/-! ## §1. Beginnings. -/

theorem after?_append (pattern rest : List Char) : after? pattern (pattern ++ rest) = some rest := by
  induction pattern with
  | nil => rfl
  | cons p ps ih => rw [List.cons_append, after?, if_pos rfl, ih]

theorem append_of_after? {pattern cs rest : List Char} (h : after? pattern cs = some rest) :
    cs = pattern ++ rest := by
  induction pattern generalizing cs with
  | nil => exact Option.some.inj h
  | cons p ps ih =>
    cases cs with
    | nil => cases h
    | cons c cs =>
      rw [after?] at h
      split at h
      next heq => rw [heq, ih h]; rfl
      next => cases h

/-- A text begins with a pattern iff it is the pattern with something after it. -/
theorem after?_eq_some_iff {pattern cs rest : List Char} :
    after? pattern cs = some rest ↔ cs = pattern ++ rest :=
  ⟨append_of_after?, fun h => h ▸ after?_append pattern rest⟩

/-- Whether a text begins with a pattern is known as soon as it is as long as the pattern. -/
theorem after?_append_right {pattern cs : List Char} (h : pattern.length ≤ cs.length)
    (rest : List Char) : after? pattern (cs ++ rest) = (after? pattern cs).map (· ++ rest) := by
  induction pattern generalizing cs with
  | nil => rfl
  | cons p ps ih =>
    cases cs with
    | nil => exact absurd h (by simp)
    | cons c cs =>
      rw [List.cons_append, after?, after?]
      split
      next => exact ih (by simpa using h)
      next => rfl

/-! ## §2. Cuts. -/

/-- In a text that goes on with a pattern, the pattern does not occur before. -/
def Unbroken (pattern : List Char) : List Char → Prop
  | [] => True
  | c :: cs => after? pattern (c :: (cs ++ pattern)) = none ∧ Unbroken pattern cs

theorem Unbroken.suffix {pattern cs ds : List Char} (h : Unbroken pattern (cs ++ ds)) :
    Unbroken pattern ds := by
  induction cs with
  | nil => exact h
  | cons c cs ih => exact ih h.2

/-- What follows a pattern that has room before it does not matter for a beginning. -/
theorem after?_room (pattern : List Char) (c : Char) (cs rest : List Char) :
    after? pattern (c :: (cs ++ (pattern ++ rest)))
      = (after? pattern (c :: (cs ++ pattern))).map (· ++ rest) := by
  rw [← after?_append_right (by simp; omega)]
  simp

theorem cutFrom_eq_some {pattern passed cs body rest : List Char}
    (h : cutFrom pattern passed cs = some (body, rest)) :
    ∃ found, body = passed.reverse ++ found ∧ cs = found ++ (pattern ++ rest)
      ∧ Unbroken pattern found := by
  -- a place that is passed is none at which the pattern begins
  induction cs generalizing passed with
  | nil =>
    obtain ⟨r, hr, heq⟩ := Option.map_eq_some_iff.mp h
    cases heq
    exact ⟨[], (List.append_nil _).symm, (append_of_after? hr :), trivial⟩
  | cons c cs ih =>
    rw [cutFrom] at h
    split at h
    next r hr =>
      cases h
      exact ⟨[], (List.append_nil _).symm, (append_of_after? hr :), trivial⟩
    next hnone =>
      obtain ⟨found, hbody, hcs, hunbroken⟩ := ih h
      refine ⟨c :: found, by simpa using hbody, by rw [hcs]; rfl, ?_, hunbroken⟩
      rw [hcs, after?_room, Option.map_eq_none_iff] at hnone
      exact hnone

theorem cutFrom_unbroken {pattern found : List Char} (h : Unbroken pattern found)
    (passed rest : List Char) :
    cutFrom pattern passed (found ++ (pattern ++ rest)) = some (passed.reverse ++ found, rest) := by
  induction found generalizing passed with
  | nil =>
    rw [List.nil_append, List.append_nil]
    cases hcs : pattern ++ rest with
    | nil =>
      obtain ⟨rfl, rfl⟩ := List.append_eq_nil_iff.mp hcs
      rfl
    | cons c cs => rw [cutFrom, after?_eq_some_iff.mpr hcs.symm]
  | cons c found ih =>
    have hnone : after? pattern (c :: (found ++ (pattern ++ rest))) = none := by
      rw [after?_room, h.1]
      rfl
    rw [List.cons_append, cutFrom, hnone]
    dsimp only
    rw [ih h.2, List.reverse_cons, List.append_assoc]
    rfl

/-- **A cut is made where the pattern occurs first.** -/
theorem cutAt?_eq_some_iff {pattern cs body rest : List Char} :
    cutAt? pattern cs = some (body, rest)
      ↔ cs = body ++ (pattern ++ rest) ∧ Unbroken pattern body := by
  constructor
  · intro h
    obtain ⟨found, hbody, hcs, hunbroken⟩ := cutFrom_eq_some h
    obtain rfl : body = found := hbody
    exact ⟨hcs, hunbroken⟩
  · rintro ⟨rfl, hunbroken⟩
    exact cutFrom_unbroken hunbroken [] rest

/-! ## §3. Runs. -/

/-- A run of characters ends where something else follows. -/
theorem takeWhile_append_stop {p : Char → Bool} {cs rest : List Char} (hall : ∀ c ∈ cs, p c = true)
    (hstop : ∀ c, rest.head? = some c → p c = false) : (cs ++ rest).takeWhile p = cs := by
  rw [List.takeWhile_append_of_pos hall]
  cases rest with
  | nil => rw [List.takeWhile_nil, List.append_nil]
  | cons c rest => rw [List.takeWhile_cons_of_neg (by simp [hstop c rfl]), List.append_nil]

theorem dropWhile_append_stop {p : Char → Bool} {cs rest : List Char} (hall : ∀ c ∈ cs, p c = true)
    (hstop : ∀ c, rest.head? = some c → p c = false) : (cs ++ rest).dropWhile p = rest := by
  rw [List.dropWhile_append_of_pos hall]
  cases rest with
  | nil => rfl
  | cons c rest => rw [List.dropWhile_cons_of_neg (by simp [hstop c rfl])]

/-- What stands before a mark is the run of other characters. -/
theorem takeWhile_append_mark {mark : Char} {cs : List Char} (h : mark ∉ cs) (rest : List Char) :
    (cs ++ mark :: rest).takeWhile (· ≠ mark) = cs :=
  takeWhile_append_stop (fun _ hc => decide_eq_true fun heq => h (heq ▸ hc))
    fun c hc => by cases hc; simp

theorem dropWhile_append_mark {mark : Char} {cs : List Char} (h : mark ∉ cs) (rest : List Char) :
    (cs ++ mark :: rest).dropWhile (· ≠ mark) = mark :: rest :=
  dropWhile_append_stop (fun _ hc => decide_eq_true fun heq => h (heq ▸ hc))
    fun c hc => by cases hc; simp

/-! ## §4. Splitting and joining. -/

/-- Finished pieces stand before those that are still to come. -/
theorem splitFrom_pieces (pattern : List Char) (skip : Nat) (piece : List Char)
    (pieces : List (List Char)) (cs : List Char) :
    splitFrom pattern skip piece pieces cs
      = pieces.reverse ++ splitFrom pattern skip piece [] cs := by
  induction cs generalizing skip piece pieces with
  | nil => simp [splitFrom]
  | cons c cs ih =>
    cases skip with
    | succ n => exact ih n piece pieces
    | zero =>
      unfold splitFrom
      dsimp only
      split
      next =>
        rw [ih _ _ (piece.reverse :: pieces), ih _ _ [piece.reverse]]
        simp
      next => exact ih 0 (c :: piece) pieces

theorem startsWith_mark (mark c : Char) (cs : List Char) :
    startsWith [mark] (c :: cs) = decide (mark = c) := by
  by_cases h : mark = c
  · simp [startsWith, after?, h]
  · simp [startsWith, after?, h]

theorem splitFrom_mark {mark : Char} {before : List Char} (h : mark ∉ before) (piece : List Char)
    (after : List Char) :
    splitFrom [mark] 0 piece [] (before ++ mark :: after)
      = (piece.reverse ++ before) :: splitAt [mark] after := by
  induction before generalizing piece with
  | nil =>
    rw [List.nil_append, List.append_nil]
    unfold splitFrom
    dsimp only
    rw [startsWith_mark, if_pos (by simp), splitFrom_pieces]
    rfl
  | cons c before ih =>
    obtain ⟨hc, hbefore⟩ := List.ne_and_not_mem_of_not_mem_cons h
    rw [List.cons_append]
    unfold splitFrom
    dsimp only
    rw [startsWith_mark, if_neg (by simpa using hc), ih hbefore]
    simp

/-- **The first piece** is what stands before the first mark. -/
theorem splitAt_mark {mark : Char} {before : List Char} (h : mark ∉ before) (after : List Char) :
    splitAt [mark] (before ++ mark :: after) = before :: splitAt [mark] after :=
  splitFrom_mark h [] after

theorem splitFrom_of_not_mem {mark : Char} {cs : List Char} (h : mark ∉ cs) (piece : List Char) :
    splitFrom [mark] 0 piece [] cs = [piece.reverse ++ cs] := by
  induction cs generalizing piece with
  | nil => simp [splitFrom]
  | cons c cs ih =>
    obtain ⟨hc, hcs⟩ := List.ne_and_not_mem_of_not_mem_cons h
    unfold splitFrom
    dsimp only
    rw [startsWith_mark, if_neg (by simpa using hc), ih hcs]
    simp

/-- No mark is left in the pieces. -/
theorem not_mem_splitAt {mark : Char} (cs : List Char) : ∀ p ∈ splitAt [mark] cs, mark ∉ p := by
  by_cases hmem : mark ∈ cs
  · obtain ⟨before, after, hcs, hbefore⟩ := List.eq_append_cons_of_mem hmem
    have hlength : after.length < cs.length := by
      rw [hcs, List.length_append, List.length_cons]
      omega
    rw [hcs, splitAt_mark hbefore]
    exact List.forall_mem_cons.mpr ⟨hbefore, not_mem_splitAt after⟩
  · rw [splitAt, splitFrom_of_not_mem hmem]
    exact List.forall_mem_singleton.mpr hmem
termination_by cs.length

/-- **Pieces without a mark** that are put together with marks are found again. -/
theorem splitAt_intercalate {mark : Char} {words : List (List Char)} (hne : words ≠ [])
    (h : ∀ w ∈ words, mark ∉ w) : splitAt [mark] ([mark].intercalate words) = words := by
  induction words with
  | nil => exact absurd rfl hne
  | cons w words ih =>
    obtain ⟨hw, hwords⟩ := List.forall_mem_cons.mp h
    cases words with
    | nil =>
      rw [List.intercalate_singleton, splitAt, splitFrom_of_not_mem hw]
      rfl
    | cons v words =>
      rw [List.intercalate_cons_cons, List.append_assoc, List.singleton_append, splitAt_mark hw,
        ih (List.cons_ne_nil _ _) hwords]

theorem joinWith_cons_cons (separator p q : List Char) (ps : List (List Char)) :
    joinWith separator (p :: q :: ps) = p ++ (separator ++ joinWith separator (q :: ps)) := by
  simp [joinWith]

/-- The characters of pieces put together are those of the pieces and of the separator. -/
theorem of_mem_joinWith {P : Char → Prop} {separator : List Char} {ps : List (List Char)}
    (hseparator : ∀ c ∈ separator, P c) (hps : ∀ p ∈ ps, ∀ c ∈ p, P c) :
    ∀ c ∈ joinWith separator ps, P c := by
  induction ps with
  | nil => simp [joinWith]
  | cons p ps ih =>
    have hp := hps p (List.mem_cons_self ..)
    cases ps with
    | nil => simpa [joinWith] using hp
    | cons q ps =>
      intro c hc
      rw [joinWith_cons_cons, List.mem_append, List.mem_append] at hc
      rcases hc with hc | hc | hc
      · exact hp c hc
      · exact hseparator c hc
      · exact ih (fun r hr => hps r (List.mem_cons_of_mem p hr)) c hc

theorem of_mem_splitFrom {P : Char → Prop} {pattern : List Char} {skip : Nat} {piece : List Char}
    {ps : List (List Char)} {cs : List Char} (hcs : ∀ c ∈ cs, P c) (hpiece : ∀ c ∈ piece, P c)
    (hps : ∀ p ∈ ps, ∀ c ∈ p, P c) :
    ∀ p ∈ splitFrom pattern skip piece ps cs, ∀ c ∈ p, P c := by
  have hdone : ∀ p ∈ piece.reverse :: ps, ∀ c ∈ p, P c := by
    intro p hp c hc
    rcases List.mem_cons.mp hp with rfl | hp
    · exact hpiece c (List.mem_reverse.mp hc)
    · exact hps p hp c hc
  induction cs generalizing skip piece ps with
  | nil => exact fun p hp => hdone p (List.mem_reverse.mp hp)
  | cons c cs ih =>
    have hrest : ∀ d ∈ cs, P d := fun d hd => hcs d (List.mem_cons_of_mem c hd)
    cases skip with
    | succ n => exact ih hrest hpiece hps hdone
    | zero =>
      unfold splitFrom
      dsimp only
      split
      next =>
        -- the pattern ends a piece
        refine ih hrest (by simp) hdone fun p hp d hd => ?_
        rcases List.mem_cons.mp hp with rfl | hp
        · cases hd
        · exact hdone p hp d hd
      next =>
        have hmore : ∀ d ∈ c :: piece, P d := by
          intro d hd
          rcases List.mem_cons.mp hd with rfl | hd
          · exact hcs d (List.mem_cons_self ..)
          · exact hpiece d hd
        refine ih hrest hmore hps fun p hp d hd => ?_
        rcases List.mem_cons.mp hp with rfl | hp
        · exact hmore d (List.mem_reverse.mp hd)
        · exact hps p hp d hd

/-- The characters of the pieces of a text are those of the text. -/
theorem of_mem_splitAt {P : Char → Prop} {pattern cs : List Char} (hcs : ∀ c ∈ cs, P c) :
    ∀ p ∈ splitAt pattern cs, ∀ c ∈ p, P c :=
  of_mem_splitFrom hcs (by simp) (by simp)

/-! ## §5. Marks. -/

/-- The first mark parts a text in one way only. -/
theorem append_mark_inj {mark : Char} {x y z w : List Char} (hx : mark ∉ x) (hy : mark ∉ y)
    (h : x ++ mark :: z = y ++ mark :: w) : x = y ∧ z = w := by
  induction x generalizing y with
  | nil =>
    cases y with
    | nil => simpa using h
    | cons c y =>
      have hc : mark = c := by
        have := h
        simp only [List.nil_append, List.cons_append, List.cons.injEq] at this
        exact this.1
      exact absurd (List.mem_cons.mpr (Or.inl hc)) hy
  | cons c x ih =>
    cases y with
    | nil =>
      have hc : c = mark := by
        have := h
        simp only [List.nil_append, List.cons_append, List.cons.injEq] at this
        exact this.1
      exact absurd (List.mem_cons.mpr (Or.inl hc.symm)) hx
    | cons d y =>
      simp only [List.cons_append, List.cons.injEq] at h
      obtain ⟨hcd, h⟩ := h
      obtain ⟨hxy, hzw⟩ := ih (fun m => hx (List.mem_cons_of_mem _ m))
        (fun m => hy (List.mem_cons_of_mem _ m)) h
      exact ⟨by rw [hcd, hxy], hzw⟩

/-- The last mark parts a text in one way only. -/
theorem append_last_mark_inj {mark : Char} {x y z w : List Char} (hz : mark ∉ z) (hw : mark ∉ w)
    (h : x ++ mark :: z = y ++ mark :: w) : x = y ∧ z = w := by
  have hrev := congrArg List.reverse h
  simp only [List.reverse_append, List.reverse_cons, List.append_assoc, List.cons_append,
    List.nil_append] at hrev
  obtain ⟨hz', hx'⟩ := append_mark_inj (by simpa using hz) (by simpa using hw) hrev
  exact ⟨List.reverse_inj.mp hx', List.reverse_inj.mp hz'⟩

/-! ## §6. Bytes. -/

/-- The bytes of a text.  Those of a text that is spelled out are known without reading it. -/
def bytes (s : String) : List UInt8 := s.toByteArray.data.toList

theorem bytes_eq (s : String) : bytes s = s.toList.flatMap String.utf8EncodeChar := by
  have hs : s.toByteArray = s.toList.utf8Encode := by
    rw [← String.toByteArray_ofList, String.ofList_toList]
  rw [bytes, hs, List.utf8Encode, List.data_toByteArray, List.toList_toArray]

/-- What stands in a text stands in its bytes. -/
theorem infix_bytes {cs : List Char} {s : String} (h : cs <:+: s.toList) :
    cs.flatMap String.utf8EncodeChar <:+: bytes s := by
  obtain ⟨front, rest, h⟩ := h
  refine ⟨front.flatMap String.utf8EncodeChar, rest.flatMap String.utf8EncodeChar, ?_⟩
  rw [bytes_eq, ← h, List.flatMap_append, List.flatMap_append]

/-- A text has no bracket in its characters if it has none in its bytes. -/
theorem not_mem_of_bytes {s : String} (h : 0x3C ∉ bytes s) : '<' ∉ s.toList := by
  rw [bytes_eq] at h
  exact fun hmem => h (List.mem_flatMap.mpr ⟨'<', hmem, by decide⟩)

end ControlSurface.Text
