/-
  ControlSurface.Name
  ───────────────────
  Names and slugs.  `normalize` turns what a user typed into an identifier for the document, of the
  form `[a-z][a-z0-9]*(-[a-z0-9]+)*`; `slug` makes the name of a directory; `slugs` keeps a list
  of them apart by counting repeats.
-/
import ControlSurface.Text.Character
import ControlSurface.Text.LowerCase

namespace ControlSurface.Name

open ControlSurface.Text

/-! ## §1. Character classes. -/

/-- An ASCII capital letter. -/
def isCapital (c : Char) : Bool := decide ('A' ≤ c ∧ c ≤ 'Z')

/-- An ASCII small letter or digit. -/
def isSmall (c : Char) : Bool := decide (('a' ≤ c ∧ c ≤ 'z') ∨ ('0' ≤ c ∧ c ≤ '9'))

/-! ## §2. Words joined by hyphens. -/

/-- Keeps the characters of a class and puts one hyphen for every run of others; `gap` tells that
such a run has begun. -/
def hyphenate (keep : Char → Bool) (gap : Bool) : List Char → List Char
  | [] => []
  | c :: cs =>
    if keep c then c :: hyphenate keep false cs
    else if gap then hyphenate keep true cs
    else '-' :: hyphenate keep true cs

/-- Text without hyphens at either end. -/
def trimHyphens (cs : List Char) : List Char := trimBy (· = '-') cs

/-- Puts a hyphen between a small letter or digit and a capital that follows it. -/
def parted : List Char → List Char
  | a :: b :: cs => if isSmall a && isCapital b then a :: '-' :: parted (b :: cs)
                    else a :: parted (b :: cs)
  | cs => cs

/-! ## §3. Identifiers and slugs. -/

/-- The identifier of a name: words in lower case joined by single hyphens; `element` when no
letter or digit is left, and `el-` in front of a digit. -/
def normalize (name : String) : String :=
  let words := hyphenate (fun c => isSmall c || isCapital c) false (parted (trim name.toList))
  let body := (trimHyphens words).map asciiLower
  -- an identifier begins with a letter
  match body with
  | [] => "element"
  | c :: _ => String.ofList (if decide ('0' ≤ c ∧ c ≤ '9') then 'e' :: 'l' :: '-' :: body else body)

/-- The slug of a text; the fallback when nothing of it is left. -/
def slugOr (fallback text : String) : String :=
  match trimHyphens (hyphenate isSmall false (lower text.toList)) with
  | [] => fallback
  | cs => String.ofList cs

/-- The slug that a nameless window gets. -/
def defaultSlug : String := "window"

/-- The slug of a text. -/
def slug (text : String) : String := slugOr defaultSlug text

/-- Slugs of a list of names, given the slugs already counted: a repeat gets its count after it. -/
def slugsAfter (fallback : String) (seen : List String) : List String → List String
  | [] => []
  | name :: names =>
    let base := slugOr fallback name
    -- what counts is the slug before a suffix, so a suffixed one may also come from a name
    let count := seen.count base + 1
    let this := if count = 1 then base else s!"{base}-{count}"
    this :: slugsAfter fallback (base :: seen) names

/-- Slugs of a list of names; repeats are suffixed `-2`, `-3`, and so on. -/
def slugs (names : List String) (fallback : String) : List String := slugsAfter fallback [] names

/-! ## §4. Keys of a project file. -/

/-- Puts an underscore before every capital but one at the very start. -/
def underscored : List Char → List Char
  | [] => []
  | c :: cs => if isCapital c then '_' :: c :: underscored cs else c :: underscored cs

/-- A camel-case key in its snake-case form. -/
def snakeCase (key : String) : String :=
  match key.toList with
  | [] => ""
  | c :: cs => String.ofList (lower (c :: underscored cs))

end ControlSurface.Name
