/-
  ControlSurface.Stylesheet.Scope
  ───────────────────────────────
  Selectors and stylesheets confined to one part of a document.  A scoped selector reaches the scope
  and what lies in it only: the page itself, `html`, `body` or `:root`, becomes the scope, and
  everything else is put inside it.  `parts` reads a stylesheet into rules, groups of rules such as
  `@media`, and text that is copied as it is; `confine` scopes the selectors of every rule at any
  depth; `print` writes the parts out again.
-/
import ControlSurface.Fault
import ControlSurface.Stylesheet.Lexeme
import ControlSurface.Text.Character
import ControlSurface.Text.Word

namespace ControlSurface.Stylesheet

open ControlSurface.Text

/-! ## §1. Lists of selectors. -/

/-- The lexemes between the commas outside brackets. -/
def pieces (ls : List Lexeme) : List (List Lexeme) :=
  match h : cut (· = ',') ls with
  | some (head, _, rest) =>
    have : rest.length < ls.length := by have := length_of_cut h; omega
    head :: pieces rest
  | none => [ls]
termination_by ls.length

/-- The selectors of a list, trimmed; empty ones are left out. -/
def splitSelectors (cs : List Char) : List (List Char) :=
  ((pieces (lexemes cs)).map fun ls => trim (textOf ls)).filter fun s => !s.isEmpty

/-! ## §2. The page. -/

/-- Whether a character goes on with an identifier. -/
def continuesName (c : Char) : Bool := isWord c || c = '-'

/-- What follows a name, if the text begins with it and the name ends there. -/
def afterName? (name cs : List Char) : Option (List Char) :=
  match after? name cs with
  | some (c :: rest) => if continuesName c then none else some (c :: rest)
  | some [] => some []
  | none => none

/-- What follows `html` or `body`. -/
def afterPart? (cs : List Char) : Option (List Char) :=
  (afterName? "html".toList cs).orElse fun _ => afterName? "body".toList cs

/-- What follows a selector of the page itself. -/
def afterPage? (cs : List Char) : Option (List Char) :=
  (afterPart? cs).orElse fun _ => afterName? ":root".toList cs

/-- What follows `html` or `body` inside the page, after white space. -/
def afterNested? (cs : List Char) : Option (List Char) :=
  match cs with
  | c :: rest => if isBlank c then afterPart? (trimStartBy isBlank rest) else none
  | [] => none

/-- What is left of a text after a beginning is no longer. -/
theorem length_of_after? {pattern cs rest : List Char} (h : after? pattern cs = some rest) :
    rest.length + pattern.length = cs.length := by
  induction pattern generalizing cs with
  | nil => simp only [after?, Option.some.injEq] at h; subst h; simp
  | cons p ps ih =>
    cases cs with
    | nil => simp [after?] at h
    | cons c cs =>
      simp only [after?] at h
      split at h
      · have := ih h; simp only [List.length_cons]; omega
      · simp at h

/-- What follows a name is no longer than the text. -/
theorem length_of_afterName? {name cs rest : List Char} (h : afterName? name cs = some rest) :
    rest.length ≤ cs.length := by
  unfold afterName? at h
  split at h
  · rename_i c tail found
    split at h
    · simp at h
    · simp only [Option.some.injEq] at h
      subst h
      have := length_of_after? found
      omega
  · simp only [Option.some.injEq] at h
    subst h
    simp
  · simp at h

/-- What follows a part of the page is no longer than the text. -/
theorem length_of_afterPart? {cs rest : List Char} (h : afterPart? cs = some rest) :
    rest.length ≤ cs.length := by
  unfold afterPart? at h
  cases found : afterName? "html".toList cs with
  | some r =>
    simp only [found, Option.orElse_some, Option.some.injEq] at h
    subst h
    exact length_of_afterName? found
  | none =>
    simp only [found, Option.orElse_none] at h
    exact length_of_afterName? h

/-- What follows a nested part of the page is shorter than the text. -/
theorem length_of_afterNested? {cs rest : List Char} (h : afterNested? cs = some rest) :
    rest.length < cs.length := by
  unfold afterNested? at h
  split at h
  · rename_i c tail
    split at h
    · have short := length_of_afterPart? h
      have : (trimStartBy isBlank tail).length ≤ tail.length :=
        List.Sublist.length_le (List.dropWhile_sublist _)
      simp only [List.length_cons]
      omega
    · simp at h
  · simp at h

/-- A selector without the parts of the page that it begins with, each after white space. -/
def withoutNested (cs : List Char) : List Char :=
  match h : afterNested? cs with
  | some rest =>
    have := length_of_afterNested? h
    withoutNested rest
  | none => cs
termination_by cs.length

/-! ## §3. Scoping. -/

/-- Whether a character starts what is to be kept apart from the scope. -/
def isCombinator (c : Char) : Bool := isBlank c || c = '>' || c = '+' || c = '~'

/-- A selector that reaches the scope and what lies in it only. -/
def scopeSelector (scope selector : List Char) : List Char :=
  let selector := trim selector
  -- a selector that is scoped already stays as it is
  if selector = [] ∨ selector = scope ∨ startsWith (scope ++ [' ']) selector then selector
  else match afterPage? selector with
    | none => scope ++ ' ' :: selector
    | some rest =>
      match withoutNested rest with
      | [] => scope
      | c :: tail =>
        -- a class or an attribute of the page is one of the scope
        if isCombinator c then scope ++ ' ' :: trimStartBy isBlank (c :: tail)
        else scope ++ c :: tail

/-! ## §4. Parts. -/

/-- A part of a stylesheet. -/
inductive Part where
  /-- Text that is copied: white space, comments, statements, and rules such as `@font-face`. -/
  | copied (text : List Char)
  /-- A rule that holds rules, after its head. -/
  | group (head : List Char) (body : List Part)
  /-- A style rule. -/
  | rule (selectors : List (List Char)) (body : List Char)
  deriving Inhabited

/-- The at-rules that hold rules. -/
def groupKeywords : List String := ["media", "supports", "container", "layer", "document"]

/-- The keyword of an at-rule, in lower case. -/
def keyword (prelude : List Char) : List Char :=
  -- a keyword ends at white space only, and not at a bracket or a comment that touches it
  lower ((trimStartBy isBlank prelude.tail).takeWhile fun c => !isBlank c)

/-- Whether the prelude of a block says that rules stand in it. -/
def holdsRules (prelude : List Char) : Bool :=
  groupKeywords.any fun k => k.toList == keyword prelude

/-- Whether a character ends the head of a part. -/
def endsHead (c : Char) : Bool := c = '{' || c = ';'

/-- The parts of a stylesheet.  A block without an end is a failure; text at the end that belongs
to no part is copied. -/
def parts (ls : List Lexeme) : Except Fault (List Part) :=
  match ls with
  | [] => .ok []
  | .comment t :: rest => do .ok (.copied t :: (← parts rest))
  | l :: tail =>
    if allBlank l.text then do .ok (.copied l.text :: (← parts tail))
    else match h : cut endsHead (l :: tail) with
      -- no block and no statement begins any more
      | none => .ok [.copied (textOf (l :: tail))]
      | some (head, c, rest) =>
        if c = ';' then do
          have : rest.length ≤ tail.length := length_of_rest h
          .ok (.copied (textOf head ++ [';']) :: (← parts rest))
        else match h' : block rest with
          | none => .error .unbalancedBraces
          | some (body, after) => do
            have : rest.length ≤ tail.length := length_of_rest h
            have : after.length ≤ tail.length := by have := length_of_block h'; omega
            have : body.length ≤ tail.length := by have := length_of_block h'; omega
            let prelude := trim (textOf head)
            let part ←
              -- the body of a rule is copied, and so is an at-rule that holds no rules
              if prelude.head? ≠ some '@' then .ok (.rule (splitSelectors prelude) (textOf body))
              else if holdsRules prelude then do .ok (.group (textOf head) (← parts body))
              else .ok (.copied (textOf head ++ '{' :: textOf body ++ ['}']))
            .ok (part :: (← parts after))
termination_by ls.length
decreasing_by all_goals simp only [List.length_cons]; omega

/-! ## §5. Scoping and printing. -/

/-- The scoped selectors of a rule, each once. -/
def confineSelectors (scope : List Char) (selectors : List (List Char)) : List (List Char) :=
  (selectors.map (scopeSelector scope)).eraseDups

mutual
/-- A part with the selectors of its rules scoped. -/
def confine (scope : List Char) : Part → Part
  | .copied t => .copied t
  | .group head body => .group head (confineAll scope body)
  | .rule selectors body => .rule (confineSelectors scope selectors) body

/-- Parts with the selectors of their rules scoped. -/
def confineAll (scope : List Char) : List Part → List Part
  | [] => []
  | p :: ps => confine scope p :: confineAll scope ps
end

/-- Between two selectors of a list. -/
def selectorSeparator : List Char := [',', ' ']

mutual
/-- The text of a part. -/
def print : Part → List Char
  | .copied t => t
  | .group head body => head ++ '{' :: printAll body ++ ['}']
  | .rule selectors body =>
    joinWith selectorSeparator selectors ++ ' ' :: '{' :: body ++ ['}']

/-- The text of parts, one after the other. -/
def printAll : List Part → List Char
  | [] => []
  | p :: ps => print p ++ printAll ps
end

/-- A stylesheet with every rule confined to a scope. -/
def confined (scope css : String) : Except Fault String := do
  let ps ← parts (lexemes css.toList)
  .ok (String.ofList (printAll (confineAll scope.toList ps)))

end ControlSurface.Stylesheet
