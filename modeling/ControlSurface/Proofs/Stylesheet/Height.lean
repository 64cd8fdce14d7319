/-
  ControlSurface.Proofs.Stylesheet.Height
  ───────────────────────────────────────
  The height at which the rule of an element stacks it.  A browser takes it from the last `z-index`
  that is a whole number.  An element's own properties are all custom ones (`properties_custom`), so
  that is the one of its placement, and for a whole number it reads back as the same number
  (`paintHeight_of_int`).
-/
import ControlSurface.Proofs.Fault.Outcome
import ControlSurface.Stylesheet.Property

namespace ControlSurface.Stylesheet

open ControlSurface.Outcome

/-! ## §1. Whole numbers. -/

/-- A number written in digits. -/
def natural? (digits : List Char) : Option Nat :=
  if digits.isEmpty || !digits.all Char.isDigit then none else some (Nat.ofDigitChars 10 digits 0)

/-- A whole number as a stylesheet writes it. -/
def integer? : List Char → Option Int
  | '-' :: digits => (natural? digits).map fun n => -(n : Int)
  | '+' :: digits => (natural? digits).map fun n => (n : Int)
  | digits => (natural? digits).map fun n => (n : Int)

theorem natural?_toDigits (n : Nat) : natural? (Nat.toDigits 10 n) = some n := by
  have hne : (Nat.toDigits 10 n).isEmpty = false := by
    rw [List.isEmpty_eq_false_iff]
    exact Nat.toDigits_ne_nil
  have hall : (Nat.toDigits 10 n).all Char.isDigit = true := by
    rw [List.all_eq_true]
    exact fun c hc => Nat.isDigit_of_mem_toDigits (by decide) (by decide) hc
  rw [natural?, hne, hall, Nat.ofDigitChars_ten_toDigits]
  rfl

/-- What is written for a whole number reads back. -/
theorem integer?_toString (i : Int) : integer? (toString i).toList = some i := by
  cases i with
  | ofNat n =>
    have htext : (toString (Int.ofNat n)).toList = Nat.toDigits 10 n := Nat.toList_repr
    rw [htext]
    -- digits begin with neither sign
    cases hd : Nat.toDigits 10 n with
    | nil => exact absurd hd Nat.toDigits_ne_nil
    | cons c cs =>
      have hc : c.isDigit = true :=
        Nat.isDigit_of_mem_toDigits (b := 10) (n := n) (by decide) (by decide)
          (by rw [hd]; exact List.mem_cons_self ..)
      have hminus : c ≠ '-' := by rintro rfl; exact absurd hc (by decide)
      have hplus : c ≠ '+' := by rintro rfl; exact absurd hc (by decide)
      rw [integer?, ← hd, natural?_toDigits]
      · rfl
      · intro digits h
        exact hminus (List.cons.inj h).1
      · intro digits h
        exact hplus (List.cons.inj h).1
  | negSucc n =>
    have htext : (toString (Int.negSucc n)).toList = '-' :: Nat.toDigits 10 (n + 1) := by
      have h : toString (Int.negSucc n) = "-" ++ (n + 1).repr := rfl
      rw [h, String.toList_append, Nat.toList_repr]
      rfl
    rw [htext, integer?, natural?_toDigits]
    rfl

/-! ## §2. Custom properties. -/

/-- A declaration of a custom property. -/
def IsCustom (d : Declaration) : Prop := ∃ name, d.1 = "--" ++ name

/-- Declarations of custom properties only. -/
def AllCustom (ds : List Declaration) : Prop := ∀ d ∈ ds, IsCustom d

theorem AllCustom.append {ds es : List Declaration} (hd : AllCustom ds) (he : AllCustom es) :
    AllCustom (ds ++ es) := by
  intro d h
  rcases List.mem_append.mp h with h | h
  · exact hd d h
  · exact he d h

theorem AllCustom.cons {d : Declaration} {ds : List Declaration} (hd : IsCustom d)
    (hds : AllCustom ds) : AllCustom (d :: ds) := by
  intro e h
  rcases List.mem_cons.mp h with rfl | h
  · exact hd
  · exact hds e h

theorem AllCustom.nil : AllCustom [] := fun _ h => absurd h List.not_mem_nil

theorem custom_isCustom (name value : String) : IsCustom (custom name value) := ⟨name, rfl⟩

theorem fieldsOf_custom (e : Element) (names : List String) :
    Ensures AllCustom (fieldsOf e names) := by
  refine ensures_mapM (P := IsCustom) ?_ names
  intro field
  refine ensures_after fun value => ensures_ok ?_
  exact ⟨Text.replace field "_" "-", rfl⟩

theorem placeOf_custom (name : String) (value lo hi : Value) :
    Ensures AllCustom (placeOf name value lo hi) := by
  refine ensures_after fun place => ensures_after fun text => ensures_ok ?_
  exact AllCustom.cons (custom_isCustom ..) AllCustom.nil

theorem rotary_custom (e : Element) : Ensures AllCustom (rotary e) := by
  refine ensures_bind (fieldsOf_custom e _) fun own hown => ?_
  refine ensures_bind (placeOf_custom _ _ _ _) fun place hplace => ?_
  refine ensures_bind (fieldsOf_custom e _) fun thumb hthumb => ?_
  refine ensures_bind (fieldsOf_custom e _) fun captions hcaptions => ?_
  exact ensures_ok (((hown.append hplace).append hthumb).append hcaptions)

/-- What a slider adds after its place. -/
theorem linear_tail {e : Element} {own place center : List Declaration} (hown : AllCustom own)
    (hplace : AllCustom place) (hcenter : AllCustom center) :
    Ensures AllCustom (do
      let notches ← fieldsOf e (if e.kind = .notchedSlider then ["notch_color"] else [])
      let labels := ["label_color", "label_font_size"]
      let captions ←
        if e.kind = .crossfadeSlider then
          fieldsOf e (labels ++ (captionFields e).filter fun f => !labels.contains f)
        else fieldsOf e (captionFields e)
      .ok (own ++ place ++ center ++ notches ++ captions)) := by
  refine ensures_bind (fieldsOf_custom e _) fun notches hnotches => ?_
  have hall := ((hown.append hplace).append hcenter).append hnotches
  dsimp only
  split
  · refine ensures_bind (fieldsOf_custom e _) fun captions hcaptions => ?_
    exact ensures_ok (hall.append hcaptions)
  · refine ensures_bind (fieldsOf_custom e _) fun captions hcaptions => ?_
    exact ensures_ok (hall.append hcaptions)

theorem linear_custom (e : Element) : Ensures AllCustom (linear e) := by
  refine ensures_bind (fieldsOf_custom e _) fun own hown => ?_
  refine ensures_bind (placeOf_custom _ _ _ _) fun place hplace => ?_
  dsimp only
  split
  · refine ensures_bind (placeOf_custom _ _ _ _) fun middle hmiddle => ?_
    refine ensures_bind (fieldsOf_custom e _) fun color hcolor => ?_
    exact linear_tail hown hplace (hmiddle.append hcolor)
  · exact linear_tail hown hplace AllCustom.nil

theorem range_custom (e : Element) : Ensures AllCustom (range e) := by
  refine ensures_bind (fieldsOf_custom e _) fun own hown => ?_
  refine ensures_bind (placeOf_custom _ _ _ _) fun low hlow => ?_
  refine ensures_bind (placeOf_custom _ _ _ _) fun high hhigh => ?_
  refine ensures_bind (fieldsOf_custom e _) fun captions hcaptions => ?_
  exact ensures_ok (((hown.append hlow).append hhigh).append hcaptions)

theorem rotarySwitch_custom (e : Element) : Ensures AllCustom (rotarySwitch e) := by
  refine ensures_after fun angle => ?_
  refine ensures_bind (fieldsOf_custom e _) fun own hown => ?_
  exact ensures_ok (hown.append (AllCustom.cons (custom_isCustom ..) AllCustom.nil))

theorem label_custom (e : Element) : Ensures AllCustom (label e) := by
  refine ensures_after fun place => ?_
  refine ensures_bind (fieldsOf_custom e _) fun own hown => ?_
  have hplace := AllCustom.cons (custom_isCustom "justify" place) AllCustom.nil
  exact ensures_ok ((AllCustom.cons (custom_isCustom ..) hown).append hplace)

theorem textField_custom (e : Element) : Ensures AllCustom (textField e) := by
  refine ensures_bind (fieldsOf_custom e _) fun shared hshared => ?_
  refine ensures_bind (fieldsOf_custom e _) fun own hown => ?_
  exact ensures_ok (hshared.append (AllCustom.cons (custom_isCustom ..) hown))

theorem meter_custom (e : Element) : Ensures AllCustom (meter e) := by
  refine ensures_after fun stops => ensures_after fun gradient => ?_
  refine ensures_bind (placeOf_custom _ _ _ _) fun place hplace => ?_
  refine ensures_bind (fieldsOf_custom e _) fun own hown => ?_
  exact ensures_ok (AllCustom.cons (custom_isCustom ..) (hplace.append hown))

theorem reductionMeter_custom (e : Element) : Ensures AllCustom (reductionMeter e) := by
  refine ensures_bind (placeOf_custom _ _ _ _) fun place hplace => ?_
  refine ensures_bind (fieldsOf_custom e _) fun own hown => ?_
  exact ensures_ok (AllCustom.cons (custom_isCustom ..) (hplace.append hown))

theorem xyPad_custom (e : Element) : Ensures AllCustom (xyPad e) := by
  refine ensures_bind (placeOf_custom _ _ _ _) fun x hx => ?_
  refine ensures_bind (placeOf_custom _ _ _ _) fun y hy => ?_
  refine ensures_bind (fieldsOf_custom e _) fun own hown => ?_
  exact ensures_ok ((hx.append hy).append hown)

/-- **An element of any kind adds custom properties only.** -/
theorem properties_custom (e : Element) : Ensures AllCustom (properties e) := by
  have hfont (fields : List String) : Ensures AllCustom (do
      .ok (fontOf e :: (← fieldsOf e fields))) := by
    refine ensures_bind (fieldsOf_custom e _) fun own hown => ?_
    exact ensures_ok (AllCustom.cons (custom_isCustom ..) hown)
  unfold properties
  split
  all_goals first
    | exact fieldsOf_custom e _
    | exact hfont _
    | exact rotary_custom e
    | exact linear_custom e
    | exact range_custom e
    | exact rotarySwitch_custom e
    | exact label_custom e
    | exact textField_custom e
    | exact meter_custom e
    | exact reductionMeter_custom e
    | exact xyPad_custom e

/-! ## §3. The height of an element. -/

/-- The height that a declaration gives, if it gives one. -/
def heightOf? (d : Declaration) : Option Int :=
  match d with
  | ("z-index", [value]) => integer? value.toList
  | _ => none

/-- The height at which declarations stack an element: the last one counts, and none counts as 0. -/
def stackHeight (ds : List Declaration) : Int := (ds.filterMap heightOf?).getLast?.getD 0

/-- The height at which an element is painted among its siblings. -/
def paintHeight (e : Element) : Int :=
  match elementRule e with
  | .ok r => stackHeight r.declarations
  | .error _ => 0

theorem heightOf?_of_ne {d : Declaration} (h : d.1 ≠ "z-index") : heightOf? d = none := by
  unfold heightOf?
  split
  · exact absurd rfl h
  · rfl

/-- Custom properties give no height. -/
theorem AllCustom.heights {ds : List Declaration} (h : AllCustom ds) :
    ds.filterMap heightOf? = [] := by
  rw [List.filterMap_eq_nil_iff]
  intro d hd
  refine heightOf?_of_ne ?_
  obtain ⟨name, hname⟩ := h d hd
  rw [hname]
  intro heq
  have hl := congrArg String.toList heq
  rw [String.toList_append] at hl
  exact absurd (List.cons.inj hl).1 (by decide)

/-- Declarations of other properties give no height. -/
theorem zip_heights (names : List String) (values : List (List String))
    (h : "z-index" ∉ names) : (names.zip values).filterMap heightOf? = [] := by
  rw [List.filterMap_eq_nil_iff]
  rintro ⟨name, value⟩ hd
  refine heightOf?_of_ne ?_
  rintro rfl
  exact h (List.of_mem_zip hd).1

/-- The height that the placement of an element gives. -/
def heightGiven (e : Element) : Option Int :=
  if e.zIndex.truthy then integer? e.zIndex.toText.toList else none

/-- The placement of an element gives its height, if it has one. -/
theorem placement_heights (e : Element) :
    Ensures (fun ds => ds.filterMap heightOf? = (heightGiven e).toList) (placement e) := by
  have hall : ∀ (box : List (List String)) (turn : List Declaration),
      turn.filterMap heightOf? = [] →
      (["left", "top", "width", "height"].zip box ++ turn
        ++ if e.zIndex.truthy then [("z-index", [e.zIndex.toText])] else []).filterMap heightOf?
      = (heightGiven e).toList := by
    intro box turn hturn
    rw [List.filterMap_append, List.filterMap_append, zip_heights _ _ (by decide), hturn,
      heightGiven]
    split
    · cases h : integer? e.zIndex.toText.toList <;> simp [heightOf?, h]
    · rfl
  refine ensures_after fun box => ?_
  dsimp only
  split
  · refine ensures_after fun angle => ?_
    exact ensures_ok (hall _ _ rfl)
  · exact ensures_ok (hall _ _ rfl)

/-- **An element is painted at the height that its placement gives**, and at 0 if it gives none. -/
theorem paintHeight_eq {e : Element} {r : Rule} (h : elementRule e = .ok r) :
    paintHeight e = (heightGiven e).getD 0 := by
  rw [paintHeight, h]
  obtain ⟨placed, hplaced, h⟩ := (bind_eq_ok_iff _ _ _).mp h
  obtain ⟨own, hown, h⟩ := (bind_eq_ok_iff _ _ _).mp h
  obtain ⟨domId, _, h⟩ := (bind_eq_ok_iff _ _ _).mp h
  cases h
  show stackHeight (placed ++ own) = _
  rw [stackHeight, List.filterMap_append, placement_heights e placed hplaced,
    (properties_custom e own hown).heights, List.append_nil]
  cases heightGiven e <;> rfl

theorem paintHeight_of_int {e : Element} {r : Rule} {i : Int} (h : elementRule e = .ok r)
    (hi : e.zIndex = .int i) : paintHeight e = i := by
  have htext : e.zIndex.toText = toString i := by rw [hi]; rfl
  rw [paintHeight_eq h, heightGiven, htext, integer?_toString, hi]
  split
  · rfl
  next hzero =>
    have : i = 0 := by simpa [Value.truthy] using hzero
    exact this.symm

end ControlSurface.Stylesheet
