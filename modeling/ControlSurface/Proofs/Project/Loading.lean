/-
  ControlSurface.Proofs.Project.Loading
  ─────────────────────────────────────
  How the loading of a project fails.  The fields of a project file are read one after the other,
  and whatever they hold, only few faults come of it (`ReadingFault`): a text that is no number, a
  value of the wrong type, a number that is too large, or an unknown kind.  Text that is no JSON
  and JSON that is no object are the only other ways to fail (`LoadingFault`).
-/
import ControlSurface.Project.Reader
import ControlSurface.Proofs.Fault.Outcome

namespace ControlSurface

open Outcome

/-! ## §1. Values. -/

/-- What can go wrong when the fields of a project file are read. -/
inductive ReadingFault : Fault → Prop
  | badValue : ReadingFault .badValue
  | wrongType : ReadingFault .wrongType
  | tooLarge : ReadingFault .tooLarge
  | unknownKind (kind elementId : String) : ReadingFault (.unknownKind kind elementId)

namespace Value

theorem failsWith_num (v : Value) : FailsWith (· = .wrongType) v.num := by
  rw [num]
  split
  · exact failsWith_ok _
  · exact failsWith_error rfl

theorem failsWith_ofNum {α : Type} {f : Num → Except Fault α}
    (hf : ∀ n, FailsWith ReadingFault (f n)) (v : Value) :
    FailsWith ReadingFault (v.num >>= f) :=
  failsWith_bind ((failsWith_num v).imp fun _ h => h ▸ .wrongType) hf

theorem failsWith_items (v : Value) : FailsWith ReadingFault v.items := by
  cases v with
  | list | text | object => exact failsWith_ok _
  | _ => exact failsWith_error .wrongType

theorem failsWith_truncate (n : Num) : FailsWith ReadingFault n.truncate := by
  cases n with
  | int i => exact failsWith_ok _
  | float x =>
    rw [Num.truncate]
    split
    · exact failsWith_ok _
    · exact failsWith_error .tooLarge
    · exact failsWith_error .badValue

theorem failsWith_numToFloat (n : Num) : FailsWith ReadingFault n.toFloat := by
  cases n with
  | float x => exact failsWith_ok _
  | int i =>
    rw [Num.toFloat]
    split
    · exact failsWith_ok _
    · exact failsWith_error .tooLarge

theorem failsWith_toInt (v : Value) : FailsWith ReadingFault v.toInt := by
  cases v with
  | text s =>
    rw [toInt]
    split
    · exact failsWith_ok _
    · exact failsWith_error .badValue
  | _ => exact failsWith_ofNum failsWith_truncate _

theorem failsWith_toFloat (v : Value) : FailsWith ReadingFault v.toFloat := by
  cases v with
  | text s =>
    rw [toFloat]
    split
    · exact failsWith_ok _
    · exact failsWith_error .badValue
  | _ => exact failsWith_ofNum failsWith_numToFloat _

theorem failsWith_objectsIn (fields : Fields) (key : String) :
    FailsWith ReadingFault (objectsIn fields key) :=
  failsWith_bind (failsWith_items _) fun _ => failsWith_ok _

end Value

open Value

/-! ## §2. The parts of a project. -/

theorem failsWith_recordOf (shape : List (String × Option Value)) (given : Fields) :
    FailsWith ReadingFault (recordOf shape given) := by
  rw [recordOf]
  split
  · exact failsWith_error .wrongType
  · refine failsWith_bind (failsWith_mapM fun s _ => ?_) fun _ => failsWith_ok _
    dsimp only
    split
    · exact failsWith_ok _
    · exact failsWith_ok _
    · exact failsWith_error .wrongType

theorem failsWith_recordsOf (shape : List (String × Option Value)) (v : Value) :
    FailsWith ReadingFault (recordsOf shape v) := by
  have hrest : ∀ items : List Value, FailsWith ReadingFault (do
      let records ← (items.filterMap fields?).mapM fun fields =>
        recordOf shape (snakeFields fields)
      .ok (.list records) : Except Fault Value) := fun items =>
    failsWith_bind (failsWith_mapM fun fields _ => failsWith_recordOf shape _) fun _ =>
      failsWith_ok _
  rw [recordsOf]
  split
  · exact failsWith_bind (failsWith_items v) hrest
  · exact hrest []

theorem Element.failsWith_ofFields (fields : Fields) :
    FailsWith ReadingFault (Element.ofFields fields) := by
  rw [Element.ofFields]
  split
  next k _ =>
    rw [Element.ofKind]
    split
    · exact failsWith_ok _
    · exact failsWith_bind (failsWith_recordsOf _ _) fun _ => failsWith_ok _
  next => exact failsWith_error (.unknownKind _ _)

theorem Gradient.failsWith_ofFields (fields : Fields) :
    FailsWith ReadingFault (Gradient.ofFields fields) := by
  refine failsWith_bind (failsWith_items _) fun items => failsWith_bind ?_ fun _ => failsWith_ok _
  exact failsWith_mapM fun stop _ =>
    failsWith_bind (failsWith_toFloat _) fun _ => failsWith_ok _

theorem Window.failsWith_ofFields (fields : Fields) :
    FailsWith ReadingFault (Window.ofFields fields) := by
  refine failsWith_bind (failsWith_toInt _) fun width => ?_
  refine failsWith_bind (failsWith_toInt _) fun height => ?_
  dsimp only
  split
  · refine failsWith_bind (Gradient.failsWith_ofFields _) fun gradient => ?_
    exact failsWith_bind (failsWith_ok _) fun _ =>
      failsWith_bind (failsWith_items _) fun _ => failsWith_ok _
  · exact failsWith_bind (failsWith_ok _) fun _ =>
      failsWith_bind (failsWith_items _) fun _ => failsWith_ok _

theorem Layer.failsWith_ofFields (fields : Fields) :
    FailsWith ReadingFault (Layer.ofFields fields) :=
  failsWith_bind (failsWith_toInt _) fun _ => failsWith_ok _

namespace Project

theorem failsWith_canvasWindow (fields : Fields) (elements : List Element) :
    FailsWith ReadingFault (canvasWindow fields elements) :=
  failsWith_bind (failsWith_toInt _) fun _ =>
    failsWith_bind (failsWith_toInt _) fun _ => failsWith_ok _

/-- **Reading the fields of a project fails in four ways only**, whatever values they hold. -/
theorem failsWith_ofFields (fields : Fields) : FailsWith ReadingFault (ofFields fields) := by
  refine failsWith_bind (failsWith_objectsIn _ _) fun elements => ?_
  refine failsWith_bind (failsWith_mapM fun e _ => Element.failsWith_ofFields e) fun elements => ?_
  refine failsWith_bind (failsWith_objectsIn _ _) fun windows => ?_
  refine failsWith_bind (failsWith_mapM fun w _ => Window.failsWith_ofFields w) fun windows => ?_
  refine failsWith_bind (failsWith_objectsIn _ _) fun layers => ?_
  refine failsWith_bind (failsWith_mapM fun l _ => Layer.failsWith_ofFields l) fun layers => ?_
  refine failsWith_bind (failsWith_objectsIn _ _) fun fonts => ?_
  dsimp only
  split
  · exact failsWith_bind (failsWith_canvasWindow _ _) fun _ => failsWith_ok _
  · exact failsWith_ok _

end Project

/-! ## §3. Text that is read. -/

namespace Json

/-- What can go wrong when text is read as JSON. -/
def TextFault (e : Fault) : Prop := e = .badJson ∨ e = .badValue

/-- A number can only have too many digits. -/
theorem number?_error {negative : Bool} {cs rest : List Char} {e : Fault}
    (h : number? negative cs = some (.error e, rest)) : e = .badValue := by
  unfold number? at h
  obtain ⟨⟨whole, after⟩, _, h⟩ := Option.bind_eq_some_iff.mp h
  dsimp only at h
  split at h
  · split at h
    · cases h
      rfl
    · cases h
  · cases h

theorem failsWith_next? (cs : List Char) : FailsWith TextFault (next? cs) := by
  unfold next?
  split
  case h_7 =>
    split
    · exact failsWith_ok _
    · exact failsWith_error (Or.inl rfl)
  case h_8 =>
    split
    · exact failsWith_ok _
    · -- a number with a sign, or without one
      split
      all_goals
        dsimp only
        split
        next => exact failsWith_ok _
        next hnumber => exact failsWith_error (Or.inr (number?_error hnumber))
        next => exact failsWith_error (Or.inl rfl)
  all_goals exact failsWith_ok _

theorem failsWith_tokensFrom (passed : List Token) (cs : List Char) :
    FailsWith TextFault (tokensFrom passed cs) := by
  induction passed, cs using tokensFrom.induct with
  | case1 passed =>
    rw [tokensFrom]
    exact failsWith_ok _
  | case2 passed c rest hblank ih =>
    rw [tokensFrom, if_pos hblank]
    exact ih
  | case3 passed c rest hblank e hnext =>
    rw [tokensFrom, if_neg hblank, hnext]
    exact failsWith_error (failsWith_next? _ e hnext)
  | case4 passed c rest hblank t rest' hnext hshorter ih =>
    rw [tokensFrom, if_neg hblank, hnext]
    simp only [if_pos hshorter]
    exact ih
  | case5 passed c rest hblank t rest' hnext hlonger =>
    rw [tokensFrom, if_neg hblank, hnext]
    simp only [if_neg hlonger]
    exact failsWith_error (Or.inl rfl)

/-- Text is read as JSON, or it is no JSON, or it holds an integer of too many digits. -/
theorem failsWith_read (text : String) : FailsWith TextFault (read text) := by
  refine failsWith_bind (failsWith_tokensFrom [] _) fun tokens => ?_
  split
  · exact failsWith_ok _
  · exact failsWith_error (Or.inl rfl)

end Json

/-! ## §4. Project files. -/

/-- What can go wrong when the text of a project file is read. -/
inductive LoadingFault : Fault → Prop
  | badJson : LoadingFault .badJson
  | reading {e : Fault} (h : ReadingFault e) : LoadingFault e
  | noObject : LoadingFault .noSuchPart

namespace Project

/-- **Whatever stands in a project file, loading it fails in few ways only.** -/
theorem failsWith_load (text : String) : FailsWith LoadingFault (load text) := by
  refine failsWith_bind ?_ fun v => ?_
  · refine (Json.failsWith_read text).imp fun e he => ?_
    rcases he with rfl | rfl
    · exact .badJson
    · exact .reading .badValue
  · cases v with
    | object fields => exact (failsWith_ofFields fields).imp fun _ he => .reading he
    | _ => exact failsWith_error .noObject

end Project

end ControlSurface
