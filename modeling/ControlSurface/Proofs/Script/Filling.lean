/-
  ControlSurface.Proofs.Script.Filling
  ────────────────────────────────────
  What filling makes of a template.  A text without a place stays as it is, and the first place of
  a text is filled in where it stands (`fillFrom_first`).  No place goes beyond a line, so a
  template is filled line by line (`fill_ofLines`), and which places a line has is seen from the
  line alone.

  Main results:
    * `fill_bindingsTemplate` — the script of a window with its four places filled in.
    * `fill_scaleTemplate` — the script that fits it, with its six.
-/
import ControlSurface.Proofs.Text.Replacing
import ControlSurface.Script.Binding

namespace ControlSurface.Script

open ControlSurface.Text

/-! ## §1. Places. -/

/-- The text before the first place, the name of the place, and the text after it. -/
def firstPlace : List Char → Option (List Char × List Char × List Char)
  | [] => none
  | c :: cs =>
    match place? (c :: cs) with
    | some (name, rest) => some ([], name, rest)
    | none => (firstPlace cs).map fun (before, name, rest) => (c :: before, name, rest)

theorem append_of_cutAtLast? {pattern cs name rest : List Char}
    (h : cutAtLast? pattern cs = some (name, rest)) : cs = name ++ (pattern ++ rest) := by
  obtain ⟨⟨tail, head⟩, hcut, heq⟩ := Option.map_eq_some_iff.mp h
  cases heq
  have happend := (cutAt?_eq_some_iff.mp hcut).1
  rw [← List.reverse_reverse cs, happend]
  simp

theorem place?_of_ne {c : Char} (h : c ≠ '_') (cs : List Char) : place? (c :: cs) = none := by
  unfold place?
  split
  next heq => exact absurd (List.cons.inj heq).1 h
  next => rfl

theorem place?_of_ne_second {d : Char} (h : d ≠ '_') (cs : List Char) :
    place? ('_' :: d :: cs) = none := by
  unfold place?
  split
  next heq => exact absurd (List.cons.inj (List.cons.inj heq).2).1 h
  next => rfl

/-- A place stands between two marks. -/
theorem append_of_place? {cs name rest : List Char} (h : place? cs = some (name, rest)) :
    cs = mark ++ (name ++ (mark ++ rest)) := by
  unfold place? at h
  split at h
  next c cs =>
    split at h
    next =>
      obtain ⟨⟨more, tail⟩, hcut, heq⟩ := Option.map_eq_some_iff.mp h
      cases heq
      have hnames := append_of_cutAtLast? hcut
      have hsplit := List.takeWhile_append_dropWhile (p := isNameChar) (l := cs)
      rw [hnames, List.append_assoc, List.append_assoc] at hsplit
      rw [List.cons_append, hsplit]
      rfl
    next => cases h
  next => cases h

variable (values : List (String × String))

theorem fillFrom_skip (cs rest : List Char) :
    fillFrom values cs.length (cs ++ rest) = fillFrom values 0 rest := by
  induction cs with
  | nil => rfl
  | cons c cs ih => exact ih

/-- A text without a place stays as it is. -/
theorem fillFrom_none {cs : List Char} (h : firstPlace cs = none) : fillFrom values 0 cs = cs := by
  induction cs with
  | nil => rfl
  | cons c cs ih =>
    rw [firstPlace] at h
    split at h
    next => cases h
    next hplace =>
      rw [fillFrom, hplace]
      dsimp only
      rw [ih (Option.map_eq_none_iff.mp h)]

/-- **The first place is filled in where it stands.** -/
theorem fillFrom_first {cs before name rest : List Char}
    (h : firstPlace cs = some (before, name, rest)) :
    fillFrom values 0 cs
      = before ++ ((valueOf? values name).getD (mark ++ name ++ mark)
        ++ fillFrom values 0 rest) := by
  induction cs generalizing before with
  | nil => cases h
  | cons c cs ih =>
    rw [firstPlace] at h
    split at h
    next found rest' hplace =>
      cases h
      rw [fillFrom, hplace]
      dsimp only
      -- the rest of the place is passed over
      obtain ⟨_, hcs⟩ := List.cons.inj (append_of_place? hplace)
      have hskip : cs.length - rest.length = (['_'] ++ (name ++ mark)).length := by
        rw [hcs]
        simp [mark]
        omega
      have hpassed : cs = (['_'] ++ (name ++ mark)) ++ rest := by
        rw [hcs]
        simp
      rw [hskip, hpassed, fillFrom_skip]
      rfl
    next hplace =>
      obtain ⟨⟨before', name', rest'⟩, hfirst, heq⟩ := Option.map_eq_some_iff.mp h
      cases heq
      rw [fillFrom, hplace]
      dsimp only
      rw [ih hfirst]
      rfl

/-! ## §2. Lines. -/

theorem takeWhile_line {p : Char → Bool} (h : p '\n' = false) (line rest : List Char) :
    (line ++ '\n' :: rest).takeWhile p = line.takeWhile p := by
  induction line with
  | nil => rw [List.nil_append, List.takeWhile_cons_of_neg (by rw [h]; decide), List.takeWhile_nil]
  | cons c line ih => rw [List.cons_append, List.takeWhile_cons, List.takeWhile_cons, ih]

theorem dropWhile_line {p : Char → Bool} (h : p '\n' = false) (line rest : List Char) :
    (line ++ '\n' :: rest).dropWhile p = line.dropWhile p ++ '\n' :: rest := by
  induction line with
  | nil =>
    rw [List.nil_append, List.dropWhile_cons_of_neg (by rw [h]; decide), List.dropWhile_nil]
    rfl
  | cons c line ih =>
    rw [List.cons_append, List.dropWhile_cons, List.dropWhile_cons, ih]
    split <;> rfl

/-- A line break ends a place. -/
theorem place?_line (line rest : List Char) :
    place? (line ++ '\n' :: rest)
      = (place? line).map fun (name, more) => (name, more ++ '\n' :: rest) := by
  cases line with
  | nil => rfl
  | cons c line =>
    by_cases hc : c = '_'
    · subst hc
      cases line with
      | nil => exact place?_of_ne_second (by decide) rest
      | cons d line =>
        by_cases hd : d = '_'
        · subst hd
          cases line with
          | nil => rfl
          | cons e cs =>
            show (if isCapital e then (cutAtLast? mark ((cs ++ '\n' :: rest).takeWhile isNameChar)).map
              _ else none) = _
            rw [takeWhile_line (by decide)]
            show (if isCapital e then (cutAtLast? mark (cs.takeWhile isNameChar)).map
                fun (name, more) => (e :: name, more ++ (cs ++ '\n' :: rest).dropWhile isNameChar)
              else none) = Option.map _ (if isCapital e then _ else none)
            rw [dropWhile_line (by decide)]
            split
            · cases cutAtLast? mark (cs.takeWhile isNameChar) with
              | none => rfl
              | some found => simp
            · rfl
        · rw [place?_of_ne_second hd, List.cons_append, List.cons_append,
            place?_of_ne_second hd]
          rfl
    · rw [place?_of_ne hc, List.cons_append, place?_of_ne hc]
      rfl

/-- A line is filled in by itself. -/
theorem fillFrom_line (line rest : List Char) {skip : Nat} (h : skip ≤ line.length) :
    fillFrom values skip (line ++ '\n' :: rest)
      = fillFrom values skip line ++ '\n' :: fillFrom values 0 rest := by
  induction line generalizing skip with
  | nil =>
    obtain rfl : skip = 0 := Nat.le_zero.mp h
    rfl
  | cons c line ih =>
    cases skip with
    | succ skip => exact ih (Nat.le_of_succ_le_succ h)
    | zero =>
      have hplace := place?_line (c :: line) rest
      rw [List.cons_append] at hplace
      rw [List.cons_append, fillFrom, fillFrom, hplace]
      cases place? (c :: line) with
      | none => exact congrArg (c :: ·) (ih (Nat.zero_le _))
      | some found =>
        obtain ⟨name, more⟩ := found
        have hlength : (line ++ '\n' :: rest).length - (more ++ '\n' :: rest).length
            = line.length - more.length := by
          rw [List.length_append, List.length_append]
          omega
        dsimp only [Option.map_some]
        rw [hlength, ih (Nat.sub_le ..)]
        simp

theorem toList_ofLines (lines : List String) :
    (ofLines lines).toList = lines.flatMap fun l => l.toList ++ ['\n'] := by
  unfold ofLines
  rw [String.toList_join, List.flatMap_map]
  simp only [String.toList_append]
  rfl

/-- **A template is filled line by line.** -/
theorem fill_ofLines (lines : List String) :
    fill (ofLines lines) values = ofLines (lines.map fun l => fill l values) := by
  rw [← String.toList_inj, toList_ofLines, fill, String.toList_ofList, toList_ofLines]
  induction lines with
  | nil => rfl
  | cons line lines ih =>
    rw [List.flatMap_cons, List.append_assoc, List.singleton_append, fillFrom_line _ _ _ (Nat.zero_le _), ih,
      List.map_cons, List.flatMap_cons, fill, String.toList_ofList]
    simp

/-! ## §3. The scripts of a window. -/

/-- A line without a place. -/
def Plain (line : String) : Prop := ∃ cs, line = String.ofList cs ∧ firstPlace cs = none

theorem fill_plain {line : String} (h : Plain line) : fill line values = line := by
  obtain ⟨cs, rfl, hnone⟩ := h
  rw [fill, String.toList_ofList, fillFrom_none values hnone]

theorem map_fill_plain {lines : List String} (h : ∀ l ∈ lines, Plain l) :
    (lines.map fun l => fill l values) = lines := by
  rw [List.map_congr_left fun l hl => fill_plain values (h l hl), List.map_id']

theorem valueOf?_cons (n v : String) (name : String) :
    valueOf? ((n, v) :: values) name.toList
      = if n = name then some v.toList else valueOf? values name.toList := by
  unfold valueOf?
  rw [List.find?_cons]
  by_cases h : n = name
  · rw [if_pos h, h, beq_self_eq_true]
    rfl
  · have hne : (n.toList == name.toList) = false :=
      beq_eq_false_iff_ne.mpr fun heq => h (String.toList_inj.mp heq)
    rw [if_neg h]
    simp only [hne]

/-- A line with one place, whose name has a value. -/
theorem fill_place (name : String) {line before after v : String} {cs front rest : List Char}
    (hline : line = String.ofList cs) (hfront : before = String.ofList front)
    (hrest : after = String.ofList rest)
    (hfirst : firstPlace cs = some (front, name.toList, rest)) (hnone : firstPlace rest = none)
    (hvalue : valueOf? values name.toList = some v.toList) :
    fill line values = before ++ v ++ after := by
  rw [hline, fill, String.toList_ofList, fillFrom_first values hfirst, hvalue,
    fillFrom_none values hnone, hfront, hrest, ← String.toList_inj]
  simp

/-- Literals put together. -/
theorem ofList_append {s t : String} {cs ds : List Char} (hs : s = String.ofList cs)
    (ht : t = String.ofList ds) : s ++ t = String.ofList (cs ++ ds) := by
  rw [hs, ht, String.ofList_append]

/-- The lines of a window's script up to its values. -/
def openingLines (name root : String) : List String :=
  ["// Generated by faceplate. Parameter bindings for window \"" ++ name ++ "\".",
   "// Talks to the host exclusively through window.__relay__.",
   "(function () \x7b",
   "  'use strict';",
   "  var ROOT_SELECTOR = " ++ root ++ ";"]

/-- The lines after them. -/
def closingLines : List String := bindingsTemplate.drop 7

theorem plain_closingLines : ∀ l ∈ closingLines, Plain l := by
  unfold closingLines bindingsTemplate
  simp only [List.drop_succ_cons, List.drop_zero, List.forall_mem_cons]
  and_intros
  all_goals first
    | exact ⟨_, rfl, by decide⟩
    | exact ⟨_, ofList_append rfl rfl, by decide⟩
    | exact List.forall_mem_nil _

/-- **The script of a window** with its places filled in. -/
theorem fill_bindingsTemplate (name root bindings navigation : String) :
    fill (ofLines bindingsTemplate)
        [("WINDOW_NAME", name), ("ROOT_SELECTOR", root), ("BINDINGS", bindings),
         ("NAVIGATION", navigation)]
      = ofLines (openingLines name root ++ ["  var BINDINGS = " ++ bindings ++ ";",
          "  var NAVIGATION = " ++ navigation ++ ";"] ++ closingLines) := by
  have hsplit : bindingsTemplate = bindingsTemplate.take 7 ++ closingLines :=
    (List.take_append_drop 7 _).symm
  rw [fill_ofLines, hsplit, List.map_append, map_fill_plain _ plain_closingLines]
  refine congrArg (fun lines => ofLines (lines ++ closingLines)) ?_
  unfold bindingsTemplate openingLines
  simp only [List.take_succ_cons, List.take_zero, List.map_cons, List.map_nil, List.cons_append,
    List.nil_append, List.cons.injEq, and_true]
  -- line by line: the four with a place, and the three without one
  refine ⟨fill_place _ "WINDOW_NAME" rfl rfl rfl (by decide) (by decide) ?_,
    fill_plain _ ⟨_, rfl, by decide⟩, fill_plain _ ⟨_, rfl, by decide⟩,
    fill_plain _ ⟨_, rfl, by decide⟩,
    fill_place _ "ROOT_SELECTOR" rfl rfl rfl (by decide) (by decide) ?_,
    fill_place _ "BINDINGS" rfl rfl rfl (by decide) (by decide) ?_,
    fill_place _ "NAVIGATION" rfl rfl rfl (by decide) (by decide) ?_⟩
  all_goals simp only [valueOf?_cons, String.reduceEq, ↓reduceIte]

/-- The lines of a scaling script up to its last value. -/
def scaleLines (width height minScale maxScale wrapper container : String) : List String :=
  ["// Responsive scaling: fit the authored canvas into the host view.",
   "(function () \x7b",
   "  'use strict';",
   "  var CANVAS_WIDTH = " ++ width ++ ";",
   "  var CANVAS_HEIGHT = " ++ height ++ ";",
   "  var MIN_SCALE = " ++ minScale ++ ";",
   "  var MAX_SCALE = " ++ maxScale ++ ";",
   "  var WRAPPER_SELECTOR = " ++ wrapper ++ ";",
   "  var CONTAINER_SELECTOR = " ++ container ++ ";"]

/-- The lines after them. -/
def scaleClosingLines : List String := scaleTemplate.drop 9

theorem plain_scaleClosingLines : ∀ l ∈ scaleClosingLines, Plain l := by
  unfold scaleClosingLines scaleTemplate
  simp only [List.drop_succ_cons, List.drop_zero, List.forall_mem_cons]
  and_intros
  all_goals first
    | exact ⟨_, rfl, by decide⟩
    | exact ⟨_, ofList_append rfl rfl, by decide⟩
    | exact List.forall_mem_nil _

/-- **The script that fits a window** with its places filled in. -/
theorem fill_scaleTemplate (width height minScale maxScale wrapper container : String) :
    fill (ofLines scaleTemplate)
        [("WIDTH", width), ("HEIGHT", height), ("MIN_SCALE", minScale), ("MAX_SCALE", maxScale),
         ("WRAPPER_SELECTOR", wrapper), ("CONTAINER_SELECTOR", container)]
      = ofLines (scaleLines width height minScale maxScale wrapper container
          ++ scaleClosingLines) := by
  have hsplit : scaleTemplate = scaleTemplate.take 9 ++ scaleClosingLines :=
    (List.take_append_drop 9 _).symm
  rw [fill_ofLines, hsplit, List.map_append, map_fill_plain _ plain_scaleClosingLines]
  refine congrArg (fun lines => ofLines (lines ++ scaleClosingLines)) ?_
  unfold scaleTemplate scaleLines
  simp only [List.take_succ_cons, List.take_zero, List.map_cons, List.map_nil, List.cons.injEq,
    and_true]
  refine ⟨fill_plain _ ⟨_, rfl, by decide⟩, fill_plain _ ⟨_, rfl, by decide⟩,
    fill_plain _ ⟨_, rfl, by decide⟩,
    fill_place _ "WIDTH" rfl rfl rfl (by decide) (by decide) ?_,
    fill_place _ "HEIGHT" rfl rfl rfl (by decide) (by decide) ?_,
    fill_place _ "MIN_SCALE" rfl rfl rfl (by decide) (by decide) ?_,
    fill_place _ "MAX_SCALE" rfl rfl rfl (by decide) (by decide) ?_,
    fill_place _ "WRAPPER_SELECTOR" rfl rfl rfl (by decide) (by decide) ?_,
    fill_place _ "CONTAINER_SELECTOR" rfl rfl rfl (by decide) (by decide) ?_⟩
  all_goals simp only [valueOf?_cons, String.reduceEq, ↓reduceIte]

end ControlSurface.Script
