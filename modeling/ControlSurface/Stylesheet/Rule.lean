/-
  ControlSurface.Stylesheet.Rule
  ──────────────────────────────
  The rules of generated stylesheets.  A rule is a selector with its declarations; rules stand in
  sections under a comment.  `print` fixes the layout: one declaration a line, an empty line
  between rules and between sections.
-/

namespace ControlSurface.Stylesheet

/-! ## §1. Declarations and rules. -/

/-- A property with its values; nearly always there is one. -/
abbrev Declaration := String × List String

/-- The text of a declaration.  Several values stand on lines of their own. -/
def printDeclaration : Declaration → String
  | (property, [value]) => s!"  {property}: {value};"
  | (property, values) => s!"  {property}:\n    " ++ ",\n    ".intercalate values ++ ";"

/-- A style rule. -/
structure Rule where
  selector : String
  declarations : List Declaration
  deriving Repr, DecidableEq, Inhabited

/-- The text of a rule. -/
def Rule.print (r : Rule) : String :=
  r.selector ++ " \x7b\n" ++ "\n".intercalate (r.declarations.map printDeclaration) ++ "\n\x7d"

/-! ## §2. Sections. -/

/-- Rules under a comment. -/
structure Section where
  title : String
  rules : List Rule
  deriving Repr, DecidableEq, Inhabited

/-- The text between two rules or sections. -/
def emptyLine : String := "\n\n"

/-- The text of a section. -/
def Section.print (s : Section) : String :=
  s!"/* {s.title} */\n" ++ emptyLine.intercalate (s.rules.map Rule.print)

/-- The text of sections, one after the other. -/
def printSections (sections : List Section) : String :=
  emptyLine.intercalate (sections.map Section.print)

end ControlSurface.Stylesheet
