/-
  ControlSurface.Proofs.Xml.Rules
  ───────────────────────────────
  What a document type declares for attributes.  Its rules name attributes properly and give proper
  values by default (`rules_of_beforeRoot?`); declarations of any other kind leave the rules as
  they are.
-/
import ControlSurface.Proofs.Xml.Proper
import ControlSurface.Xml.Reader

namespace ControlSurface.Xml

open ControlSurface.Outcome ControlSurface.Text

/-! ## §1. Proper rules. -/

/-- A rule with a proper name and a proper default. -/
structure AttributeRule.Proper (r : AttributeRule) : Prop where
  name : r.name.Proper
  fallback : ∀ value, r.fallback = some value → IsValue value

/-- Rules that are all proper. -/
def ProperRules (rules : List AttributeRule) : Prop := ∀ r ∈ rules, r.Proper

theorem isValue_of_quotedDefault? {cs : List Char} :
    Finds (fun p => ∀ value, p.1 = some value → IsValue value) (quotedDefault? cs) := by
  unfold quotedDefault?
  refine finds_after ?_
  rintro ⟨raw, rest⟩
  refine finds_bind (isValue_of_valuePieces isParts_nil) fun value hvalue => finds_some ?_
  intro v hv
  cases hv
  exact hvalue

theorem isValue_of_attributeDefault? {cs : List Char} :
    Finds (fun p => ∀ value, p.1 = some value → IsValue value) (attributeDefault? cs) := by
  unfold attributeDefault?
  split
  next => exact finds_some fun value h => by cases h
  next =>
    split
    next => exact finds_some fun value h => by cases h
    next =>
      split
      next => exact finds_after fun rest => isValue_of_quotedDefault?
      next => exact isValue_of_quotedDefault?

theorem proper_of_attributeRule? {element : QName} {cs : List Char} :
    Finds (fun p => p.1.Proper) (attributeRule? element cs) := by
  unfold attributeRule?
  refine finds_bind proper_of_qname? ?_
  rintro ⟨name, rest⟩ hname
  refine finds_after fun rest => finds_after ?_
  rintro ⟨collapses, rest⟩
  refine finds_after fun rest => finds_bind isValue_of_attributeDefault? ?_
  rintro ⟨fallback, rest⟩ hvalue
  exact finds_some ⟨hname, hvalue⟩

/-- A list of attributes adds proper rules. -/
theorem proper_of_attributeRules? {element : QName} {rules : List AttributeRule} {cs : List Char}
    (hrules : ProperRules rules) :
    Finds (fun p => ProperRules p.1) (attributeRules? element rules cs) := by
  -- what is left after a rule is shorter, so the reader never goes on without end
  induction hn : cs.length using Nat.strongRecOn generalizing rules cs with
  | ind n ih =>
    subst hn
    rw [attributeRules?.eq_def]
    split
    next => exact finds_some hrules
    next found _ =>
      split
      next => exact finds_none
      next =>
        split
        next => exact finds_none
        next rule rest hrule =>
          split
          next hlen =>
            refine ih rest.length hlen (fun r hr => ?_) rfl
            rcases List.mem_append.mp hr with hr | hr
            · exact hrules r hr
            · rw [List.mem_singleton.mp hr]
              exact proper_of_attributeRule? _ hrule
          next => exact finds_none

/-! ## §2. Declarations. -/

theorem rules_addEntity (name : String) (e : Entity) (d : Doctype) :
    (addEntity name e d).rules = d.rules := by
  unfold addEntity
  split <;> rfl

/-- The declaration of an entity leaves the rules as they are. -/
theorem rules_of_entityDeclaration? {d : Doctype} {cs : List Char} :
    Finds (fun p => p.1.rules = d.rules) (entityDeclaration? d cs) := by
  unfold entityDeclaration?
  refine finds_after fun rest => ?_
  dsimp only
  split
  next =>
    refine finds_after fun rest => finds_after ?_
    rintro ⟨name, rest⟩
    refine finds_after fun rest => ?_
    dsimp only
    split
    next => exact finds_after fun text => finds_after fun rest => finds_some rfl
    next => exact finds_after fun rest => finds_after fun rest => finds_some rfl
  next =>
    refine finds_after ?_
    rintro ⟨name, rest⟩
    refine finds_after fun rest => ?_
    dsimp only
    split
    next => exact finds_after fun text => finds_after fun rest => finds_some (rules_addEntity ..)
    next =>
      refine finds_after fun rest => ?_
      split
      next =>
        refine finds_after fun rest => finds_after ?_
        rintro ⟨_, rest⟩
        exact finds_after fun rest => finds_some (rules_addEntity ..)
      next => exact finds_after fun rest => finds_some (rules_addEntity ..)

/-- One declaration keeps the rules proper. -/
theorem rules_of_declaration? {d : Doctype} {cs : List Char} (hd : ProperRules d.rules) :
    Finds (fun p => ProperRules p.1.rules) (declaration? d cs) := by
  unfold declaration?
  split
  next =>
    intro p hp
    rw [ProperRules, rules_of_entityDeclaration? p hp]
    exact hd
  next =>
    split
    next =>
      refine finds_after fun rest => finds_after ?_
      rintro ⟨element, rest⟩
      refine finds_bind (proper_of_attributeRules? hd) ?_
      rintro ⟨rules, rest⟩ hrules
      exact finds_some hrules
    next =>
      split
      next => exact finds_map fun _ _ => hd
      next =>
        split
        next => exact finds_map fun _ _ => hd
        next =>
          split
          next => exact finds_map fun _ _ => hd
          next =>
            split
            next => exact finds_map fun _ _ => hd
            next => exact finds_none

/-- Declarations keep the rules proper, those in the texts of parameters too. -/
theorem rules_of_declarations? {depth : Nat} {d : Doctype} {cs : List Char}
    (hd : ProperRules d.rules) : Finds (fun p => ProperRules p.1.rules) (declarations? depth d cs) := by
  -- over the depth of parameters first, for the text of one may be longer than what is left
  induction depth using Nat.strongRecOn generalizing d cs with
  | ind depth ihdepth =>
    induction hn : cs.length using Nat.strongRecOn generalizing d cs with
    | ind n ihlength =>
      subst hn
      rw [declarations?.eq_def]
      split
      next => exact finds_some hd
      next c rest =>
        split
        next => exact ihlength rest.length (by simp) hd rfl
        next =>
          split
          next => exact finds_some hd
          next =>
            split
            next =>
              split
              next name rest' _ =>
                dsimp only
                split
                next d' hd' =>
                  -- the text of a parameter is read a level deeper, if there is one
                  have hentered : ProperRules d'.rules := by
                    split at hd'
                    next deeper _ text _ =>
                      have hopened : ProperRules { d with isOpen := true }.rules := hd
                      refine finds_bind (P := fun d => ProperRules d.rules)
                        (ihdepth deeper (Nat.lt_succ_self deeper) hopened) ?_ _ hd'
                      rintro ⟨d, left⟩ hd
                      dsimp only
                      split
                      next => exact finds_some hd
                      next => exact finds_none
                    next =>
                      cases hd'
                      exact hd
                  split
                  next hlen =>
                    refine ihlength rest'.length ?_ hentered rfl
                    rw [List.length_cons]
                    omega
                  next => exact finds_none
                next => exact finds_none
              next => exact finds_none
            next =>
              split
              next d' rest' hd' =>
                split
                next hlen =>
                  refine ihlength rest'.length ?_ (rules_of_declaration? hd _ hd') rfl
                  rw [List.length_cons]
                  omega
                next => exact finds_none
              next => exact finds_none

/-! ## §3. The document type. -/

theorem properRules_nil : ProperRules [] := by simp [ProperRules]

theorem rules_of_doctype? {cs : List Char} : Finds (fun p => ProperRules p.1.rules) (doctype? cs) := by
  unfold doctype?
  refine finds_after fun rest => finds_after ?_
  rintro ⟨_, rest⟩
  dsimp only
  split
  next =>
    refine finds_bind (rules_of_declarations? properRules_nil) ?_
    rintro ⟨d, rest⟩ hd
    dsimp only
    split
    next => exact finds_after fun rest => finds_some hd
    next => exact finds_none
  next => exact finds_after fun rest => finds_some properRules_nil

/-- What stands before the root element keeps the rules proper. -/
theorem rules_of_pass? {d : Option Doctype} {cs : List Char}
    (hd : ∀ found, d = some found → ProperRules found.rules) :
    Finds (fun p => ∀ found, p.1 = some found → ProperRules found.rules) (pass? d cs) := by
  unfold pass?
  split
  next => exact finds_map fun _ _ => hd
  next =>
    split
    next => exact finds_map fun _ _ => hd
    next =>
      split
      next =>
        refine finds_map fun p hp found hfound => ?_
        cases hfound
        exact rules_of_doctype? p hp
      next => exact finds_none
      next => exact finds_some hd

/-- **The rules of a document are proper.** -/
theorem rules_of_beforeRoot? {d : Option Doctype} {cs : List Char}
    (hd : ∀ found, d = some found → ProperRules found.rules) :
    Finds (fun p => ProperRules p.1.rules) (beforeRoot? d cs) := by
  induction hn : cs.length using Nat.strongRecOn generalizing d cs with
  | ind n ih =>
    subst hn
    rw [beforeRoot?.eq_def]
    -- white space is skipped; what does not shorten the text is the root element
    split
    next => exact finds_none
    next c rest =>
      split
      next => exact ih rest.length (by simp) hd rfl
      next =>
        split
        next => exact finds_none
        next d' r hfound =>
          have hd' := rules_of_pass? hd _ hfound
          split
          next hlen =>
            refine ih r.length ?_ hd' rfl
            rw [List.length_cons]
            omega
          next =>
            refine finds_some ?_
            cases d' with
            | none => exact properRules_nil
            | some found => exact hd' found rfl

end ControlSurface.Xml
