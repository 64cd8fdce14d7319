/-
  ControlSurface.Proofs.Script.FirstRender
  ────────────────────────────────────────
  What the component script shows first, against what the markup shows.  Both begin with the same
  fields of an element, but each has a rule of its own: the markup marks the entry that the index
  names, and the script the nearest entry there is; the markup rounds a half to the even cell and
  draws what the fields hold, and the script rounds it up and puts a character where a field is
  empty.

  Main result:
    * `first_render_agrees_iff` — a control with entries shows the same in both exactly when its
      index names an entry or it has none (`Settled`), and a bar of characters exactly when its
      cells look alike (`Alike`).  Every bar whose value has a place is such a bar (`exists_draws`).
-/
import ControlSurface.Markup.Element
import ControlSurface.Proofs.Fault.Outcome
import ControlSurface.Proofs.Markup.Marks
import ControlSurface.Proofs.Readout.Place
import ControlSurface.Script.Binding
import Mathlib.Algebra.Order.Floor.Ring
import Mathlib.Data.Rat.Floor

namespace ControlSurface.Script

open ControlSurface.Markup ControlSurface.Outcome

/-! ## §1. The rules of the script. -/

/-- A number kept between two bounds. -/
def within (x lo hi : ℚ) : ℚ := min hi (max lo x)

/-- The nearest whole number, a half going up. -/
def nearestUp (x : ℚ) : ℤ := ⌊x + 1 / 2⌋

/-- The place of an entry among all, from 0 to 1. -/
def placeOfEntry (count : ℕ) (index : ℤ) : ℚ :=
  if 1 < count then index / ((count : ℚ) - 1) else 0

/-- The entry at a place. -/
def entryAtPlace (count : ℕ) (place : ℚ) : ℤ :=
  if 1 < count then nearestUp (within place 0 1 * ((count : ℚ) - 1)) else 0

/-- The entry that is chosen for an index: one that there is, or -1 if there is none. -/
def chosen (count : ℕ) (index : ℤ) : ℤ :=
  if 0 < count then min ((count : ℤ) - 1) (max 0 index) else -1

/-- The entry that is chosen at first: by its place, or for an index below zero at once. -/
def firstChosen (count : ℕ) (index : ℤ) : ℤ :=
  if index < 0 then chosen count (-1)
  else chosen count (entryAtPlace count (placeOfEntry count index))

theorem nearestUp_intCast (i : ℤ) : nearestUp i = i := by
  rw [nearestUp, Int.floor_intCast_add]
  norm_num

/-- The place of an entry leads back to it, and the place of what lies behind the last entry to the
last one. -/
theorem entryAtPlace_placeOfEntry {count : ℕ} {index : ℤ} (hcount : 0 < count)
    (hindex : 0 ≤ index) :
    entryAtPlace count (placeOfEntry count index) = min ((count : ℤ) - 1) index := by
  rw [entryAtPlace, placeOfEntry]
  by_cases hmany : 1 < count
  · have hlast : ((count : ℚ) - 1) = (((count : ℤ) - 1 : ℤ) : ℚ) := by push_cast; rfl
    have hpos : (0 : ℚ) < (((count : ℤ) - 1 : ℤ) : ℚ) := Int.cast_pos.mpr (by omega)
    have hplace : (0 : ℚ) ≤ index / (((count : ℤ) - 1 : ℤ) : ℚ) :=
      div_nonneg (by exact_mod_cast hindex) hpos.le
    rw [if_pos hmany, if_pos hmany, hlast, within, max_eq_right hplace]
    rcases le_total index ((count : ℤ) - 1) with hle | hge
    · have hinside : (index : ℚ) / (((count : ℤ) - 1 : ℤ) : ℚ) ≤ 1 := by
        rw [div_le_one hpos]
        exact_mod_cast hle
      rw [min_eq_right hinside, div_mul_cancel₀ _ hpos.ne', nearestUp_intCast, min_eq_right hle]
    · have hbehind : 1 ≤ (index : ℚ) / (((count : ℤ) - 1 : ℤ) : ℚ) := by
        rw [one_le_div hpos]
        exact_mod_cast hge
      rw [min_eq_left hbehind, one_mul, nearestUp_intCast, min_eq_left hge]
  · rw [if_neg hmany]
    omega

/-- **At first the script chooses the nearest entry there is.** -/
theorem firstChosen_eq (count : ℕ) (index : ℤ) :
    firstChosen count index = chosen count index := by
  rw [firstChosen]
  rcases Nat.eq_zero_or_pos count with rfl | hcount
  · split <;> rfl
  · split
    next hbelow =>
      rw [chosen, chosen, if_pos hcount, if_pos hcount]
      omega
    next hindex =>
      rw [entryAtPlace_placeOfEntry hcount (not_lt.mp hindex), chosen, chosen, if_pos hcount,
        if_pos hcount]
      omega

/-! ## §2. What is shown. -/

/-- What a control shows of its state. -/
inductive Shown where
  /-- The places of the entries that are marked. -/
  | entries (marked : List ℕ)
  | text (s : String)
  deriving DecidableEq

/-- The text of an input. -/
def inputText? : Node → Option String
  | .element name attributes _ =>
    if name = "input" then
      match Value.find? attributes "value" with
      | some (.text s) => some s
      | _ => some ""
    else none
  | _ => none

/-- The text of a node that holds nothing but text. -/
def plainText? : Node → Option String
  | .text s => some s
  | _ => none

/-- Whether a node is marked as the entry that is chosen, in a control of a kind. -/
def isMarked (k : Kind) : Node → Bool
  | .element _ attributes body =>
    match k with
    | .segmentButton => hasClass attributes "is-selected"
    | .dropdown => carries attributes "selected"
    | .radioGroup => body.any fun n => match n with
      | .element name own _ => name = "input" && carries own "checked"
      | _ => false
    | .tabBar => holds attributes "aria-selected" "true"
    | _ => false
  | _ => false

/-- What the markup of a control shows. -/
def shownBy (k : Kind) (body : List Node) : Shown :=
  match k with
  | .comboBox => .text ((body.findSome? inputText?).getD "")
  | .asciiSlider => .text ((body.findSome? plainText?).getD "")
  | _ => .entries (markedPlaces (isMarked k) body)

/-- A whole number in a configuration. -/
def wholeIn? (config : Fields) (field : String) : Option ℤ :=
  match Value.find? config field with
  | some (.int i) => some i
  | _ => none

/-- A text in a configuration. -/
def textIn? (config : Fields) (field : String) : Option String :=
  match Value.find? config field with
  | some (.text s) => some s
  | _ => none

/-- The number that a double in a configuration stands for. -/
def numberIn? (config : Fields) (field : String) : Option ℚ :=
  match Value.find? config field with
  | some (.float x) => Number.rational? x
  | _ => none

/-- The texts in a list of a configuration. -/
def textsIn? (config : Fields) (field : String) : Option (List String) :=
  match Value.find? config field with
  | some (.list vs) => vs.mapM fun v => match v with
    | .text s => some s
    | _ => none
  | _ => none

/-- A text some times over. -/
def times (n : ℕ) (s : String) : String := String.join (List.replicate n s)

/-- A bar of cells of which some are filled. -/
def barText (fill empty : String) (width filled : ℕ) : String :=
  "[" ++ times filled fill ++ times (width - filled) empty ++ "]"

/-- How many cells of a bar the script fills. -/
def drawnCells (value : ℚ) (width : ℕ) : ℕ := (nearestUp (within value 0 1 * width)).toNat

/-- What the script shows at first of a control of a kind, without a value from the host. -/
def firstShown? (k : Kind) (config : Fields) : Option Shown :=
  match k with
  | .asciiSlider => do
    let width ← wholeIn? config "barWidth"
    some (.text (barText (← textIn? config "fillChar") (← textIn? config "emptyChar") width.toNat
      (drawnCells (← numberIn? config "value") width.toNat)))
  | .comboBox => do
    let index := firstChosen (← wholeIn? config "count").toNat (← wholeIn? config "index")
    let options ← textsIn? config "options"
    some (.text (if 0 ≤ index then options[index.toNat]?.getD "" else ""))
  | _ => do
    let index := firstChosen (← wholeIn? config "count").toNat (← wholeIn? config "index")
    some (.entries (if 0 ≤ index then [index.toNat] else []))

/-! ## §3. Entries. -/

/-- The field that holds the entries of a control. -/
def entriesField : Kind → String
  | .segmentButton => "segments"
  | .tabBar => "tabs"
  | _ => "options"

/-- The field that holds the index of the chosen entry. -/
def indexField : Kind → String
  | .tabBar => "active_index"
  | _ => "selected_index"

/-- The kinds of controls that choose one of some entries. -/
def entryKinds : List Kind := [.segmentButton, .dropdown, .comboBox, .radioGroup, .tabBar]

theorem mem_entryKinds {k : Kind} (h : k ∈ entryKinds) :
    k = .segmentButton ∨ k = .dropdown ∨ k = .comboBox ∨ k = .radioGroup ∨ k = .tabBar := by
  simpa [entryKinds] using h

/-- A control that chooses one of some entries. -/
structure Chooses (e : Element) (entries : List String) (index : ℤ) : Prop where
  kind : e.kind ∈ entryKinds
  /-- It has an identifier. -/
  named : ∃ domId, e.domId = .ok domId
  entries : (e.get (entriesField e.kind)).items = .ok (entries.map .text)
  index : e.get (indexField e.kind) = .int index

/-- The entry nearest to an index, if there is one. -/
def nearest? (entries : List String) (index : ℤ) : Option String :=
  entries[(min ((entries.length : ℤ) - 1) (max 0 index)).toNat]?

/-- Whether the index of a control names one of its entries, or there is none to name; a control
that shows the text of its entry may also be off an entry without text. -/
def Settled (k : Kind) (entries : List String) (index : ℤ) : Prop :=
  entries = [] ∨ (0 ≤ index ∧ index < entries.length)
    ∨ (k = .comboBox ∧ nearest? entries index = some "")

theorem isAt_eq {e : Element} {field : String} {index : ℤ} (h : e.get field = .int index) (i : ℤ) :
    isAt e field i = decide (i = index) := by
  rw [isAt, h]
  rfl

section Marks

variable {e : Element} {entries : List Value} {index : ℤ}

/-- The entries of a control are marked by their places. -/
def MarksOne (k : Kind) (fragment : Except Fault Fragment) (count : ℕ) (index : ℤ) : Prop :=
  ∃ f, fragment = .ok f ∧ markedPlaces (isMarked k) f.body
    = if 0 ≤ index ∧ index < count then [index.toNat] else []

theorem marksOne_segments (hentries : options e "segments" = .ok (numbered entries))
    (hindex : e.get "selected_index" = .int index) :
    MarksOne .segmentButton (segments e) entries.length index := by
  have hplain : "is-selected" ∉ Text.split "segment" " " := by decide +kernel
  have hchosen : "is-selected" ∈ Text.split "segment is-selected" " " := by decide +kernel
  rw [segments, hentries]
  refine ⟨_, rfl, markedPlaces_numbered fun i x => ?_⟩
  by_cases hi : i = index
  · simpa [isMarked, tag, hasClass, Value.find?, Keyed.find?, isAt_eq hindex, hi, toString]
      using hchosen
  · simpa [isMarked, tag, hasClass, Value.find?, Keyed.find?, isAt_eq hindex, hi, toString]
      using hplain

theorem marksOne_dropdown (hentries : options e "options" = .ok (numbered entries))
    (hindex : e.get "selected_index" = .int index) :
    MarksOne .dropdown (dropdown e) entries.length index := by
  rw [dropdown, hentries]
  refine ⟨_, rfl, markedPlaces_numbered fun i x => ?_⟩
  by_cases hi : i = index <;>
    simp [isMarked, tag, carries, Value.find?, Keyed.find?, isAt_eq hindex, hi]

theorem marksOne_radioGroup {s : PageSetting} {domId : String} (hdomId : e.domId = .ok domId)
    (hentries : options e "options" = .ok (numbered entries))
    (hindex : e.get "selected_index" = .int index) :
    MarksOne .radioGroup (radioGroup s e) entries.length index := by
  rw [radioGroup, hdomId, hentries]
  refine ⟨_, rfl, markedPlaces_numbered fun i x => ?_⟩
  by_cases hi : i = index <;>
    simp [isMarked, tag, part, carries, Value.find?, Keyed.find?, isAt_eq hindex, hi]

theorem marksOne_tabBar (hentries : options e "tabs" = .ok (numbered entries))
    (hindex : e.get "active_index" = .int index) :
    MarksOne .tabBar (tabBar e) entries.length index := by
  rw [tabBar, hentries]
  refine ⟨_, rfl, markedPlaces_numbered fun i x => ?_⟩
  by_cases hi : i = index <;>
    simp [isMarked, tag, holds, truthWord, Value.find?, Keyed.find?, Value.same,
      isAt_eq hindex, hi]

end Marks

theorem Chooses.options_eq {e : Element} {entries : List String} {index : ℤ}
    (h : Chooses e entries index) :
    options e (entriesField e.kind) = .ok (numbered (entries.map Value.text)) := by
  rw [options, h.entries]
  rfl

/-- **The markup marks the entry that the index names**, and none if it names none. -/
theorem Chooses.marked {e : Element} {entries : List String} {index : ℤ}
    (h : Chooses e entries index) (hcombo : e.kind ≠ .comboBox) (s : PageSetting)
    (children : List Node) :
    ∃ f, fragment s e children = .ok f ∧ shownBy e.kind f.body
      = .entries (if 0 ≤ index ∧ index < entries.length then [index.toNat] else []) := by
  obtain ⟨domId, hdomId⟩ := h.named
  have hentries := h.options_eq
  have hindex := h.index
  have hlength : (entries.map Value.text).length = entries.length := List.length_map _
  have hkind := mem_entryKinds h.kind
  have hchoice : fragment s e children = Markup.choice s e := by
    rcases hkind with hk | hk | hk | hk | hk <;> rw [fragment, hk]
  rw [hchoice, Markup.choice, hdomId, ok_bind]
  rw [← hlength]
  rcases hkind with hk | hk | hk | hk | hk <;> rw [hk] at hentries hindex ⊢
  case inl =>
    obtain ⟨f, hf, hmarked⟩ := marksOne_segments hentries hindex
    exact ⟨f, hf, congrArg Shown.entries hmarked⟩
  case inr.inl =>
    obtain ⟨f, hf, hmarked⟩ := marksOne_dropdown hentries hindex
    exact ⟨f, hf, congrArg Shown.entries hmarked⟩
  case inr.inr.inl => exact absurd hk hcombo
  case inr.inr.inr.inl =>
    obtain ⟨f, hf, hmarked⟩ := marksOne_radioGroup hdomId hentries hindex
    exact ⟨f, hf, congrArg Shown.entries hmarked⟩
  case inr.inr.inr.inr =>
    obtain ⟨f, hf, hmarked⟩ := marksOne_tabBar hentries hindex
    exact ⟨f, hf, congrArg Shown.entries hmarked⟩

/-- The option that a whole number names. -/
theorem optionAt_int (items : List Value) (index : ℤ) :
    optionAt items (.int index) = .ok (if 0 ≤ index then items[index.toNat]? else none) := by
  have hle : (Num.int 0).le (.int index) = decide (0 ≤ index) := by
    rw [Num.le, Num.lt, Num.eq, Bool.eq_iff_iff, Bool.or_eq_true, decide_eq_true_iff,
      beq_iff_eq, decide_eq_true_iff]
    omega
  show (if (Num.int 0).le (.int index) && (Num.int index).lt (.int items.length) then
    Except.ok items[index.toNat]? else Except.ok none) = _
  rw [hle]
  by_cases hbelow : 0 ≤ index
  · rw [if_pos hbelow, decide_eq_true hbelow, Bool.true_and]
    by_cases hinside : index < items.length
    · exact if_pos (decide_eq_true hinside)
    · rw [if_neg (by simpa [Num.lt] using hinside), List.getElem?_eq_none (by omega)]
  · rw [if_neg hbelow, decide_eq_false hbelow]
    rfl

/-- **A combo box shows the text of the option that its index names**, and none if it names none. -/
theorem Chooses.comboText {e : Element} {entries : List String} {index : ℤ}
    (h : Chooses e entries index) (hcombo : e.kind = .comboBox) (s : PageSetting)
    (children : List Node) :
    ∃ f, fragment s e children = .ok f ∧ shownBy e.kind f.body
      = .text (if 0 ≤ index then entries[index.toNat]?.getD "" else "") := by
  obtain ⟨domId, hdomId⟩ := h.named
  have hentries := h.entries
  have hindex := h.index
  have hchoice : fragment s e children = Markup.choice s e := by rw [fragment, hcombo]
  rw [hcombo] at hentries hindex
  rw [hchoice, Markup.choice, hdomId, ok_bind, hcombo]
  show ∃ f, comboBox s e = .ok f ∧ _
  rw [comboBox, hdomId, ok_bind, show (e.get "options").items = _ from hentries, ok_bind,
    show e.get "selected_index" = _ from hindex, optionAt_int, ok_bind]
  refine ⟨_, rfl, congrArg Shown.text ?_⟩
  by_cases hbelow : 0 ≤ index
  · rw [if_pos hbelow, if_pos hbelow, List.getElem?_map]
    cases entries[index.toNat]? <;> rfl
  · rw [if_neg hbelow, if_neg hbelow]
    rfl

theorem textsIn?_eq (texts : List String) {c : Fields} {field : String}
    (h : Value.find? c field = some (.list (texts.map .text))) : textsIn? c field = some texts := by
  rw [textsIn?, h]
  show (texts.map Value.text).mapM _ = _
  clear h
  induction texts with
  | nil => rfl
  | cons t ts ih => rw [List.map_cons, List.mapM_cons, ih]; rfl

/-- What the script is told of a control with entries. -/
theorem choice_eq {e : Element} (hkind : e.kind ∈ entryKinds) (hcombo : e.kind ≠ .comboBox) :
    choice e = count e (entriesField e.kind) >>= fun n =>
      .ok [("count", n), ("index", e.get (indexField e.kind))] := by
  rcases mem_entryKinds hkind with hk | hk | hk | hk | hk
  case inr.inr.inl => exact absurd hk hcombo
  all_goals
    rw [choice, hk]
    rfl

theorem config_choice {e : Element} (hkind : e.kind ∈ entryKinds) :
    config e = some <$> choice e := by
  rcases mem_entryKinds hkind with hk | hk | hk | hk | hk <;> rw [config, hk]

theorem Chooses.count_eq {e : Element} {entries : List String} {index : ℤ}
    (h : Chooses e entries index) :
    count e (entriesField e.kind) = .ok (.int entries.length) := by
  rw [count, h.entries, ok_bind, List.length_map]

/-- **The script marks the entry nearest to the index**, and none if there is none. -/
theorem Chooses.drawn {e : Element} {entries : List String} {index : ℤ}
    (h : Chooses e entries index) (hcombo : e.kind ≠ .comboBox) :
    ∃ c, config e = .ok (some c) ∧ firstShown? e.kind c
      = some (.entries (if 0 ≤ chosen entries.length index then
          [(chosen entries.length index).toNat] else [])) := by
  rw [config_choice h.kind, choice_eq h.kind hcombo, h.count_eq, h.index]
  refine ⟨_, rfl, ?_⟩
  rw [← firstChosen_eq]
  rcases mem_entryKinds h.kind with hk | hk | hk | hk | hk
  case inr.inr.inl => exact absurd hk hcombo
  all_goals
    rw [hk]
    rfl

/-- **The script fills a combo box with the option nearest to the index**, if there is one. -/
theorem Chooses.drawnText {e : Element} {entries : List String} {index : ℤ}
    (h : Chooses e entries index) (hcombo : e.kind = .comboBox) :
    ∃ c, config e = .ok (some c) ∧ firstShown? e.kind c
      = some (.text (if 0 ≤ chosen entries.length index then
          entries[(chosen entries.length index).toNat]?.getD "" else "")) := by
  have hcount := h.count_eq
  have hindex := h.index
  have hitems := h.entries
  rw [config_choice h.kind]
  rw [hcombo] at hcount hindex hitems ⊢
  have hlist : listOf e "options" = .ok (.list (entries.map .text)) := by
    rw [listOf, show (e.get "options").items = _ from hitems]
    rfl
  rw [choice, hcombo, show count e "options" = _ from hcount, hlist,
    show e.get "selected_index" = _ from hindex]
  refine ⟨_, rfl, ?_⟩
  rw [← firstChosen_eq]
  show ((textsIn? _ "options").bind fun options => some (Shown.text _)) = _
  rw [textsIn?_eq entries rfl]
  rfl

/-- The nearest entry there is, as a place. -/
theorem chosen_of_ne_nil {entries : List String} (h : entries ≠ []) (index : ℤ) :
    chosen entries.length index = min ((entries.length : ℤ) - 1) (max 0 index) :=
  if_pos (List.length_pos_iff.mpr h)

/-- The entry that is marked is the nearest one exactly when it is the one that is named. -/
theorem marked_eq_iff (entries : List String) (index : ℤ) :
    ((if 0 ≤ chosen entries.length index then [(chosen entries.length index).toNat] else [])
        = if 0 ≤ index ∧ index < entries.length then [index.toNat] else [])
      ↔ entries = [] ∨ (0 ≤ index ∧ index < entries.length) := by
  by_cases hnil : entries = []
  · subst hnil
    simp [chosen]
  · have hpos := List.length_pos_iff.mpr hnil
    have hchosen := chosen_of_ne_nil hnil index
    rw [if_pos (by omega)]
    split
    next hinside =>
      have hsame : chosen entries.length index = index := by omega
      simp [hsame, hinside]
    next houtside => simp [hnil, houtside]

/-- The text of the nearest option is the text of the one that is named. -/
theorem text_eq_iff (entries : List String) (index : ℤ) :
    ((if 0 ≤ chosen entries.length index then
        entries[(chosen entries.length index).toNat]?.getD "" else "")
        = if 0 ≤ index then entries[index.toNat]?.getD "" else "")
      ↔ Settled .comboBox entries index := by
  by_cases hnil : entries = []
  · subst hnil
    simp [chosen, Settled]
  · have hpos := List.length_pos_iff.mpr hnil
    have hchosen := chosen_of_ne_nil hnil index
    have hlt : (chosen entries.length index).toNat < entries.length := by omega
    rw [if_pos (by omega)]
    by_cases hinside : 0 ≤ index ∧ index < entries.length
    · have hsame : chosen entries.length index = index := by omega
      simp [hsame, Settled, hinside]
    · have hnone : (if 0 ≤ index then entries[index.toNat]?.getD "" else "") = "" := by
        split
        next hbelow => rw [List.getElem?_eq_none (by omega)]; rfl
        next => rfl
      have hnearest : nearest? entries index
          = some entries[(chosen entries.length index).toNat] := by
        rw [nearest?, ← hchosen, List.getElem?_eq_getElem hlt]
      rw [hnone, List.getElem?_eq_getElem hlt, Option.getD_some]
      simp [Settled, hnil, hinside, hnearest]

/-- **Markup and script agree on the entries of a control exactly when it is settled.** -/
theorem Chooses.agrees_iff {e : Element} {entries : List String} {index : ℤ}
    (h : Chooses e entries index) (s : PageSetting) (children : List Node) :
    ∃ f c, fragment s e children = .ok f ∧ config e = .ok (some c) ∧
      (firstShown? e.kind c = some (shownBy e.kind f.body) ↔ Settled e.kind entries index) := by
  by_cases hcombo : e.kind = .comboBox
  · obtain ⟨c, hc, hdrawn⟩ := h.drawnText hcombo
    obtain ⟨f, hf, hshown⟩ := h.comboText hcombo s children
    refine ⟨f, c, hf, hc, ?_⟩
    rw [hdrawn, hshown, Option.some_inj, Shown.text.injEq, hcombo]
    exact text_eq_iff entries index
  · obtain ⟨c, hc, hdrawn⟩ := h.drawn hcombo
    obtain ⟨f, hf, hshown⟩ := h.marked hcombo s children
    refine ⟨f, c, hf, hc, ?_⟩
    rw [hdrawn, hshown, Option.some_inj, Shown.entries.injEq, marked_eq_iff]
    simp [Settled, hcombo]

/-! ## §4. Bars of characters. -/

theorem times_add (m n : ℕ) (s : String) : times (m + n) s = times m s ++ times n s := by
  rw [times, List.replicate_add, String.join_append, times, times]

theorem times_one_add (n : ℕ) (s : String) : times (1 + n) s = s ++ times n s := by
  have hone : times 1 s = s := by simp [times, String.join]
  rw [times_add, hone]

theorem times_empty (n : ℕ) : times n "" = "" := by
  induction n with
  | zero => rfl
  | succ n ih => rw [Nat.add_comm, times_one_add, ih]; rfl

theorem length_times (n : ℕ) (s : String) : (times n s).length = n * s.length := by
  induction n with
  | zero => rw [Nat.zero_mul]; rfl
  | succ n ih => rw [Nat.add_comm, times_one_add, String.length_append, ih, Nat.add_mul, Nat.one_mul]

/-- A text some times over is another one as many times over only if they are one text. -/
theorem eq_of_times_eq {n : ℕ} {s t : String} (hn : 0 < n) (h : times n s = times n t) :
    s = t := by
  obtain ⟨n, rfl⟩ : ∃ m, n = 1 + m := ⟨n - 1, by omega⟩
  have hlength : (1 + n) * s.length = (1 + n) * t.length := by
    rw [← length_times, ← length_times, h]
  have hsame : s.toList.length = t.toList.length := Nat.eq_of_mul_eq_mul_left hn hlength
  rw [times_one_add, times_one_add] at h
  have hlists := congrArg String.toList h
  rw [String.toList_append, String.toList_append] at hlists
  exact String.toList_inj.mp (List.append_inj_left hlists hsame)

theorem length_pos_of_ne_empty {s : String} (h : s ≠ "") : 0 < s.length := by
  rw [Nat.pos_iff_ne_zero]
  exact fun hzero => h (String.length_eq_zero_iff.mp hzero)

/-- What stands for a text that is empty. -/
def standIn (s t : String) : String := if s = "" then t else s

/-- Whether two bars of one width look alike: one with some cells filled, the other with some cells
drawn and stand-ins for empty texts. -/
inductive Alike (fill empty : String) (width filled drawn : ℕ) : Prop
  /-- As many cells are filled, and no stand-in is in sight. -/
  | cells (h : filled = drawn) (hfill : fill = "" → drawn = 0) (hempty : empty = "" → width ≤ drawn)
  /-- Filled cells look like empty ones. -/
  | texts (h : fill = empty) (hne : fill ≠ "")
  /-- Filled cells hold nothing, and the cells more that are empty then look like the stand-ins. -/
  | fillStandsIn (hfill : fill = "") (h : filled < drawn)
      (hsame : times (drawn - filled) empty = times drawn "#")
  /-- Empty cells hold nothing, and the cells more that are filled then look like the stand-ins. -/
  | emptyStandsIn (hempty : empty = "") (h : drawn < filled)
      (hsame : times (filled - drawn) fill = times (width - drawn) "-")

section Bars

variable {fill empty : String} {width filled drawn : ℕ}

/-- Two bars that differ in how many cells are filled, by the cells between the two counts. -/
theorem filled_eq_iff (h : filled ≤ drawn) (hdrawn : drawn ≤ width) (other : String) :
    times filled fill ++ times (width - filled) empty = other ++ times (width - drawn) empty
      ↔ times filled fill ++ times (drawn - filled) empty = other := by
  have hsplit : width - filled = (drawn - filled) + (width - drawn) := by omega
  rw [hsplit, times_add, ← String.append_assoc]
  exact String.append_left_inj _

theorem drawn_eq_iff (h : drawn ≤ filled) (rest other : String) :
    times filled fill ++ rest = times drawn fill ++ other
      ↔ times (filled - drawn) fill ++ rest = other := by
  have hsplit : filled = drawn + (filled - drawn) := by omega
  rw [hsplit, times_add, String.append_assoc, Nat.add_sub_cancel_left]
  exact String.append_right_inj _

theorem cells_eq_iff_of_le (h : filled ≤ drawn) (hdrawn : drawn ≤ width) :
    times filled fill ++ times (width - filled) empty
        = times drawn fill ++ times (width - drawn) empty
      ↔ filled = drawn ∨ fill = empty := by
  have hsplit : drawn = filled + (drawn - filled) := by omega
  rw [filled_eq_iff h hdrawn, hsplit, times_add, Nat.add_sub_cancel_left, String.append_right_inj]
  constructor
  · intro hsame
    rcases Nat.eq_zero_or_pos (drawn - filled) with hzero | hpos
    · exact Or.inl (by omega)
    · exact Or.inr (eq_of_times_eq hpos hsame).symm
  · rintro (heq | rfl)
    · rw [show drawn - filled = 0 by omega]
      rfl
    · rfl

/-- Two bars without stand-ins. -/
theorem cells_eq_iff (hfilled : filled ≤ width) (hdrawn : drawn ≤ width) :
    times filled fill ++ times (width - filled) empty
        = times drawn fill ++ times (width - drawn) empty
      ↔ filled = drawn ∨ fill = empty := by
  rcases le_total filled drawn with hle | hge
  · exact cells_eq_iff_of_le hle hdrawn
  · rw [eq_comm, cells_eq_iff_of_le hge hfilled, eq_comm (a := drawn)]

theorem alike_iff_of_ne (hfill : fill ≠ "") (hempty : empty ≠ "") :
    Alike fill empty width filled drawn ↔ filled = drawn ∨ fill = empty := by
  constructor
  · rintro (⟨h, -, -⟩ | ⟨h, -⟩ | ⟨h, -, -⟩ | ⟨h, -, -⟩)
    · exact Or.inl h
    · exact Or.inr h
    · exact absurd h hfill
    · exact absurd h hempty
  · rintro (h | h)
    · exact .cells h (fun hnil => absurd hnil hfill) (fun hnil => absurd hnil hempty)
    · exact .texts h hfill

/-- Filled cells hold nothing in the markup. -/
theorem fill_alike_iff (hempty : empty ≠ "") (hfilled : filled ≤ width) (hdrawn : drawn ≤ width) :
    times filled "" ++ times (width - filled) empty
        = times drawn "#" ++ times (width - drawn) empty
      ↔ Alike "" empty width filled drawn := by
  rcases lt_or_ge filled drawn with hless | hmore
  · rw [filled_eq_iff hless.le hdrawn, times_empty, String.empty_append]
    constructor
    · exact .fillStandsIn rfl hless
    · rintro (⟨h, -, -⟩ | ⟨-, h⟩ | ⟨-, -, h⟩ | ⟨h, -, -⟩)
      · exact absurd h hless.ne
      · exact absurd rfl h
      · exact h
      · exact absurd h hempty
  · constructor
    · intro h
      -- the script draws no fewer characters for each cell, so it fills none
      have hlength := congrArg String.length h
      rw [String.length_append, String.length_append, length_times, length_times, length_times,
        length_times] at hlength
      have hone : ("#" : String).length = 1 := rfl
      have hnone : ("" : String).length = 0 := rfl
      rw [hone, hnone, Nat.mul_zero, Nat.zero_add, Nat.mul_one] at hlength
      have hmul : (width - filled) * empty.length ≤ (width - drawn) * empty.length :=
        Nat.mul_le_mul_right _ (by omega)
      have hzero : drawn = 0 := by omega
      have hcells : width - filled = width - drawn :=
        Nat.eq_of_mul_eq_mul_right (length_pos_of_ne_empty hempty) (by omega)
      exact .cells (by omega) (fun _ => hzero) (fun hnil => absurd hnil hempty)
    · rintro (⟨h, hfill, -⟩ | ⟨-, h⟩ | ⟨-, h, -⟩ | ⟨h, -, -⟩)
      · have hzero := hfill rfl
        rw [h, hzero]
        rfl
      · exact absurd rfl h
      · exact absurd hmore (not_le.mpr h)
      · exact absurd h hempty

/-- Empty cells hold nothing in the markup. -/
theorem empty_alike_iff (hfill : fill ≠ "") (hdrawn : drawn ≤ width) :
    times filled fill ++ times (width - filled) ""
        = times drawn fill ++ times (width - drawn) "-"
      ↔ Alike fill "" width filled drawn := by
  rw [times_empty]
  rcases lt_or_ge drawn filled with hmore | hless
  · rw [drawn_eq_iff hmore.le, String.append_empty]
    constructor
    · exact .emptyStandsIn rfl hmore
    · rintro (⟨h, -, -⟩ | ⟨h, -⟩ | ⟨h, -, -⟩ | ⟨-, -, h⟩)
      · exact absurd h hmore.ne'
      · exact absurd h hfill
      · exact absurd h hfill
      · exact h
  · constructor
    · intro h
      -- the script fills no fewer cells, so it draws no other ones
      have hlength := congrArg String.length h
      rw [String.length_append, String.length_append, length_times, length_times, length_times]
        at hlength
      have hone : ("-" : String).length = 1 := rfl
      have hnone : ("" : String).length = 0 := rfl
      rw [hone, hnone, Nat.add_zero, Nat.mul_one] at hlength
      have hmul : filled * fill.length ≤ drawn * fill.length := Nat.mul_le_mul_right _ hless
      have hcells : filled = drawn :=
        Nat.eq_of_mul_eq_mul_right (length_pos_of_ne_empty hfill) (by omega)
      exact .cells hcells (fun hnil => absurd hnil hfill) (fun _ => by omega)
    · rintro (⟨h, -, hempty⟩ | ⟨h, -⟩ | ⟨h, -, -⟩ | ⟨-, h, -⟩)
      · have hall := hempty rfl
        rw [h, show width - drawn = 0 by omega]
        rfl
      · exact absurd h hfill
      · exact absurd h hfill
      · exact absurd hless (not_le.mpr h)

/-- No cell holds anything in the markup. -/
theorem none_alike_iff (hfilled : filled ≤ width) (hdrawn : drawn ≤ width) :
    times filled "" ++ times (width - filled) "" = times drawn "#" ++ times (width - drawn) "-"
      ↔ Alike "" "" width filled drawn := by
  have hfill : (times drawn "#").length = drawn := (length_times _ _).trans (Nat.mul_one drawn)
  have hempty : (times (width - drawn) "-").length = width - drawn :=
    (length_times _ _).trans (Nat.mul_one _)
  rw [times_empty, times_empty, String.append_empty]
  constructor
  · intro h
    have hlength := congrArg String.length h
    rw [String.length_append, hfill, hempty] at hlength
    have hnone : ("" : String).length = 0 := rfl
    exact .cells (by omega) (fun _ => by omega) (fun _ => by omega)
  · rintro (⟨h, hzero, hall⟩ | ⟨-, h⟩ | ⟨-, h, hsame⟩ | ⟨-, h, hsame⟩)
    · have hdrawn := hzero rfl
      have hwidth := hall rfl
      rw [hdrawn, show width - 0 = 0 by omega]
      rfl
    · exact absurd rfl h
    · rw [times_empty] at hsame
      rw [← hsame] at hfill
      have hzero : 0 = drawn := hfill
      omega
    · rw [times_empty] at hsame
      rw [← hsame] at hempty
      have hzero : 0 = width - drawn := hempty
      omega

/-- **When two bars look alike.** -/
theorem alike_iff (hfilled : filled ≤ width) (hdrawn : drawn ≤ width) :
    times filled fill ++ times (width - filled) empty
        = times drawn (standIn fill "#") ++ times (width - drawn) (standIn empty "-")
      ↔ Alike fill empty width filled drawn := by
  -- which of the two texts the script stands in for decides what both bars have in common
  rcases eq_or_ne fill "" with rfl | hfill <;> rcases eq_or_ne empty "" with rfl | hempty
  · exact none_alike_iff hfilled hdrawn
  · rw [standIn, standIn, if_pos rfl, if_neg hempty]
    exact fill_alike_iff hempty hfilled hdrawn
  · rw [standIn, standIn, if_neg hfill, if_pos rfl]
    exact empty_alike_iff hfill hdrawn
  · rw [standIn, standIn, if_neg hfill, if_neg hempty, cells_eq_iff hfilled hdrawn,
      alike_iff_of_ne hfill hempty]

end Bars

/-- A bar of characters as the markup and the configuration have it. -/
structure Bar where
  /-- The texts of filled and of empty cells. -/
  fill : String
  empty : String
  width : ℕ
  /-- How many cells the markup fills. -/
  filled : ℕ
  /-- The value in the configuration. -/
  value : ℚ

/-- An element that is drawn as a bar: its value has a place between its bounds, of which the markup
fills the nearest number of cells and which stands, rounded, in the configuration. -/
structure Draws (e : Element) (b : Bar) : Prop where
  kind : e.kind = .asciiSlider
  fill : e.get "fill_char" = .text b.fill
  empty : e.get "empty_char" = .text b.empty
  width : e.get "bar_width" = .int b.width
  fits : b.filled ≤ b.width
  place : ∃ x, Readout.normalized (e.get "value") (e.get "min") (e.get "max") = .ok (.float x)
    ∧ ((Num.float x).mul (.int b.width) >>= Num.nearest) = .ok (b.filled : ℤ)
    ∧ Number.rational? (Number.roundTo stateDecimals x) = some b.value

/-- **Every bar of characters is drawn** whose value has a place, whose cells have texts and whose
cells can be counted by a double. -/
theorem exists_draws {e : Element} {fill empty : String} {width : ℕ} {p : Value}
    (hkind : e.kind = .asciiSlider) (hfill : e.get "fill_char" = .text fill)
    (hempty : e.get "empty_char" = .text empty) (hwidth : e.get "bar_width" = .int width)
    (hcount : width < 2 ^ 53)
    (hplace : Readout.normalized (e.get "value") (e.get "min") (e.get "max") = .ok p) :
    ∃ filled value, Draws e ⟨fill, empty, width, filled, value⟩ := by
  obtain ⟨x, q, rfl, hq, hlow, hhigh⟩ := Readout.normalized_unit hplace
  obtain ⟨filled, hfilled, hfits⟩ := Readout.exists_filled hq hlow hhigh hcount
  obtain ⟨value, hvalue⟩ := Number.exists_rational?_roundTo (by decide : 0 < stateDecimals)
    (by decide) hq (by linarith) hhigh
  exact ⟨filled, value, hkind, hfill, hempty, hwidth, hfits, x, hplace, hfilled, hvalue⟩

/-- The cells that the script fills fit into the bar. -/
theorem drawnCells_le (value : ℚ) (width : ℕ) : drawnCells value width ≤ width := by
  have hwithin : within value 0 1 * width ≤ width := by
    have hone : within value 0 1 ≤ 1 := min_le_left _ _
    nlinarith [Nat.cast_nonneg (α := ℚ) width]
  have hfloor : nearestUp (within value 0 1 * width) < (width : ℤ) + 1 := by
    rw [nearestUp, Int.floor_lt]
    push_cast
    linarith
  rw [drawnCells]
  omega

theorem orElse_text (s t : String) :
    (Value.text s).orElse (.text t) = .text (standIn s t) := by
  rw [Value.orElse, standIn]
  by_cases h : s = "" <;> simp [Value.truthy, h]

/-- The bar in the markup. -/
theorem Draws.shown {e : Element} {b : Bar} (h : Draws e b) (s : PageSetting)
    (children : List Node) :
    ∃ f, fragment s e children = .ok f ∧ shownBy e.kind f.body
      = .text (barText b.fill b.empty b.width b.filled) := by
  obtain ⟨x, hplace, hfilled, -⟩ := h.place
  have hrest : ((b.width : ℤ) - b.filled).toNat = b.width - b.filled := by omega
  have hbar : characterBar e = .ok (barText b.fill b.empty b.width b.filled) := by
    obtain ⟨product, hproduct, hnearest⟩ := (bind_eq_ok_iff _ _ _).mp hfilled
    rw [characterBar, hplace, ok_bind, h.width, h.fill, h.empty]
    show ((Num.float x).mul (.int b.width) >>= fun p => _) = _
    rw [hproduct, ok_bind, hnearest, ok_bind]
    show Except.ok _ = _
    rw [hrest]
    rfl
  have hfragment : fragment s e children = characters e := by rw [fragment, h.kind]
  rw [hfragment, characters, h.kind]
  show ∃ f, (characterBar e >>= fun bar => _) = .ok f ∧ _
  rw [hbar]
  exact ⟨_, rfl, rfl⟩

/-- The bar that the script draws. -/
theorem Draws.drawn {e : Element} {b : Bar} (h : Draws e b) :
    ∃ c, config e = .ok (some c) ∧ firstShown? e.kind c
      = some (.text (barText (standIn b.fill "#") (standIn b.empty "-") b.width
          (drawnCells b.value b.width))) := by
  obtain ⟨x, hplace, -, hvalue⟩ := h.place
  have hstate : ownState e = .ok (.float (Number.roundTo stateDecimals x)) := by
    rw [ownState, state, hplace]
    rfl
  have hconfig : config e = some <$> asciiSlider e := by rw [config, h.kind]
  rw [hconfig, asciiSlider, hstate, h.fill, h.empty, h.width, orElse_text, orElse_text, h.kind]
  refine ⟨_, rfl, ?_⟩
  show ((Number.rational? (Number.roundTo stateDecimals x)).bind fun v => some (Shown.text _)) = _
  rw [hvalue]
  rfl

/-- **Markup and script agree on a bar exactly when its cells look alike.** -/
theorem Draws.agrees_iff {e : Element} {b : Bar} (h : Draws e b) (s : PageSetting)
    (children : List Node) :
    ∃ f c, fragment s e children = .ok f ∧ config e = .ok (some c) ∧
      (firstShown? e.kind c = some (shownBy e.kind f.body)
        ↔ Alike b.fill b.empty b.width b.filled (drawnCells b.value b.width)) := by
  obtain ⟨f, hf, hshown⟩ := h.shown s children
  obtain ⟨c, hc, hdrawn⟩ := h.drawn
  refine ⟨f, c, hf, hc, ?_⟩
  rw [hdrawn, hshown, Option.some_inj, Shown.text.injEq,
    ← alike_iff h.fits (drawnCells_le b.value b.width), eq_comm]
  simp only [barText, String.append_assoc, String.append_right_inj]
  rw [← String.append_assoc, ← String.append_assoc, String.append_left_inj]

/-! ## §5. Both. -/

/-- **The first picture and the running one.**  A control with entries shows the same in its markup
and at the first step of the script exactly when it is settled, and a bar of characters exactly when
its cells look alike. -/
theorem first_render_agrees_iff (s : PageSetting) (children : List Node) :
    (∀ e entries index, Chooses e entries index →
      ∃ f c, fragment s e children = .ok f ∧ config e = .ok (some c) ∧
        (firstShown? e.kind c = some (shownBy e.kind f.body) ↔ Settled e.kind entries index)) ∧
    (∀ e b, Draws e b →
      ∃ f c, fragment s e children = .ok f ∧ config e = .ok (some c) ∧
        (firstShown? e.kind c = some (shownBy e.kind f.body)
          ↔ Alike b.fill b.empty b.width b.filled (drawnCells b.value b.width))) :=
  ⟨fun _ _ _ h => h.agrees_iff s children, fun _ _ h => h.agrees_iff s children⟩

/-- A control with two entries and an index. -/
def modeControl (k : Kind) (index : ℤ) : Element :=
  ⟨k, Element.assign k
    [("id", .text "mode"), ("name", .text "Mode"),
     (entriesField k, .list (["A", "B"].map .text)), (indexField k, .int index)]⟩

/-- A bar of some cells for a level between 0 and 1. -/
def levelBar (level : Float) (width : ℤ) : Element :=
  ⟨.asciiSlider, Element.assign .asciiSlider
    [("id", .text "level"), ("name", .text "Level"), ("value", .float level),
     ("min", .float 0.0), ("max", .float 1.0), ("bar_width", .int width)]⟩

theorem chooses_modeControl {k : Kind} (index : ℤ) (h : k = .dropdown ∨ k = .comboBox) :
    Chooses (modeControl k index) ["A", "B"] index := by
  have hkind : k ∈ entryKinds := by rcases h with rfl | rfl <;> decide
  rcases h with rfl | rfl
  · exact ⟨hkind, ⟨_, rfl⟩, rfl, rfl⟩
  · exact ⟨hkind, ⟨_, rfl⟩, rfl, rfl⟩

/-- Two of eight cells. -/
theorem draws_quarter : Draws (levelBar 0.25 8) ⟨"#", "-", 8, 2, 1 / 4⟩ where
  kind := rfl
  fill := rfl
  empty := rfl
  width := rfl
  fits := by decide
  place := by
    refine ⟨0.25, by with_unfolding_all rfl, by with_unfolding_all rfl, ?_⟩
    have hparts : Number.parts (Number.roundTo stateDecimals 0.25)
        = .finite ⟨false, 4503599627370496, -54⟩ := by decide +kernel
    rw [Number.rational?, hparts]
    norm_num [Number.Dyadic.value, Number.Dyadic.magnitude]

/-- Half a cell of one: the markup rounds it to the even count of none. -/
theorem draws_half : Draws (levelBar 0.5 1) ⟨"#", "-", 1, 0, 1 / 2⟩ where
  kind := rfl
  fill := rfl
  empty := rfl
  width := rfl
  fits := by decide
  place := by
    refine ⟨0.5, by with_unfolding_all rfl, by with_unfolding_all rfl, ?_⟩
    have hparts : Number.parts (Number.roundTo stateDecimals 0.5)
        = .finite ⟨false, 4503599627370496, -53⟩ := by decide +kernel
    rw [Number.rational?, hparts]
    norm_num [Number.Dyadic.value, Number.Dyadic.magnitude]

/-- A list whose index names its second entry, and a bar of which two of eight cells are filled. -/
theorem settled_render_agrees :
    (Chooses (modeControl .dropdown 1) ["A", "B"] 1 ∧
      ∃ f c, fragment (PageSetting.ofWindow default) (modeControl .dropdown 1) [] = .ok f ∧
        config (modeControl .dropdown 1) = .ok (some c) ∧
        firstShown? .dropdown c = some (shownBy .dropdown f.body)) ∧
    (Draws (levelBar 0.25 8) ⟨"#", "-", 8, 2, 1 / 4⟩ ∧
      ∃ f c, fragment (PageSetting.ofWindow default) (levelBar 0.25 8) [] = .ok f ∧
        config (levelBar 0.25 8) = .ok (some c) ∧
        firstShown? .asciiSlider c = some (shownBy .asciiSlider f.body)) := by
  have hagree := first_render_agrees_iff (PageSetting.ofWindow default) []
  have hchooses := chooses_modeControl 1 (Or.inl rfl : Kind.dropdown = .dropdown ∨ _)
  obtain ⟨f, c, hf, hc, hlist⟩ := hagree.1 _ _ _ hchooses
  obtain ⟨g, d, hg, hd, hbar⟩ := hagree.2 _ _ draws_quarter
  have hcells : drawnCells (1 / 4) 8 = 2 := by decide +kernel
  refine ⟨⟨hchooses, f, c, hf, hc, hlist.mpr (Or.inr (Or.inl (by decide)))⟩,
    draws_quarter, g, d, hg, hd, hbar.mpr ?_⟩
  exact .cells hcells.symm (fun h => absurd h (by decide)) (fun h => absurd h (by decide))

/-- A combo box without a chosen option is filled with the first one when the script starts, and a
bar with half a cell of one gets a cell. -/
theorem unchosen_and_half_jump :
    (∃ f c, fragment (PageSetting.ofWindow default) (modeControl .comboBox (-1)) [] = .ok f ∧
      config (modeControl .comboBox (-1)) = .ok (some c) ∧
      shownBy .comboBox f.body = .text "" ∧ firstShown? .comboBox c = some (.text "A")) ∧
    (∃ f c, fragment (PageSetting.ofWindow default) (levelBar 0.5 1) [] = .ok f ∧
      config (levelBar 0.5 1) = .ok (some c) ∧
      shownBy .asciiSlider f.body = .text "[-]" ∧
      firstShown? .asciiSlider c = some (.text "[#]")) := by
  have hchooses := chooses_modeControl (-1) (Or.inr rfl : _ ∨ Kind.comboBox = .comboBox)
  obtain ⟨f, hf, hshown⟩ := hchooses.comboText rfl (PageSetting.ofWindow default) []
  obtain ⟨c, hc, hdrawn⟩ := hchooses.drawnText rfl
  obtain ⟨g, hg, hbar⟩ := draws_half.shown (PageSetting.ofWindow default) []
  obtain ⟨d, hd, hcells⟩ := draws_half.drawn
  have hcell : drawnCells (1 / 2) 1 = 1 := by decide +kernel
  rw [hcell] at hcells
  exact ⟨⟨f, c, hf, hc, hshown, hdrawn⟩, g, d, hg, hd, hbar, hcells⟩

end ControlSurface.Script
