/-
  ControlSurface.Proofs.Svg.PathData
  ──────────────────────────────────
  The grammar of path data.  Path data is a row of commands, each a letter with the arguments it
  takes, in as many rounds as are written.  Arguments are numerals, which are read as far as they go,
  and flags, which are one character each; between two arguments white space or a comma may stand,
  or nothing at all.

  What may follow a flag directly is a parameter: anything, as the grammar has it, or only what could
  not be taken for more of a number.

  Main results:
    * `Commands.unique` — a text is read in one way.
    * `Commands.onlyAsciiDigits` — path data has no digits of other scripts.
-/
import ControlSurface.Proofs.Svg.NumeralValue
import Mathlib.Data.List.Basic

namespace ControlSurface.Svg

open ControlSurface.Text
open ControlSurface.Number (isDecimalDigit_of_ascii)

/-! ## §1. The grammar. -/

/-- White space in path data. -/
def isPathSpace (c : Char) : Bool :=
  c = ' ' || c = '\t' || c = '\n' || c = '\r' || c = '\x0c'

/-- White space, or nothing. -/
def Spaces (cs : List Char) : Prop := ∀ c ∈ cs, isPathSpace c = true

/-- What may stand between two arguments: white space and at most one comma, or nothing. -/
inductive Gap : List Char → Prop where
  | spaces {ws : List Char} (hws : Spaces ws) : Gap ws
  | comma {ws vs : List Char} (hws : Spaces ws) (hvs : Spaces vs) : Gap (ws ++ ',' :: vs)

/-- What a command takes in one place. -/
inductive Slot where
  | coordinate
  | flag

/-- An argument as it is written. -/
inductive Argument where
  | coordinate (text : List Char)
  | flag (mark : Char)

/-- What a drawing command takes in one round. -/
def slotsOf? (letter : Char) : Option (List Slot) :=
  if letter ∈ ['M', 'm', 'L', 'l', 'T', 't'] then some (List.replicate 2 .coordinate)
  else if letter ∈ ['H', 'h', 'V', 'v'] then some [.coordinate]
  else if letter ∈ ['S', 's', 'Q', 'q'] then some (List.replicate 4 .coordinate)
  else if letter ∈ ['C', 'c'] then some (List.replicate 6 .coordinate)
  else if letter ∈ ['A', 'a'] then
    some [.coordinate, .coordinate, .coordinate, .flag, .flag, .coordinate, .coordinate]
  else none

/-- A command with its arguments, those of all rounds together. -/
structure Command where
  letter : Char
  arguments : List Argument

/-- What an argument takes from the start of a text, and what it leaves. -/
inductive Takes (mayFollow : List Char → Prop) :
    Slot → Argument → List Char → List Char → Prop where
  | coordinate {cs t rest : List Char} (h : LongestNumeral cs t rest) :
      Takes mayFollow .coordinate (.coordinate t) cs rest
  | flag {c : Char} {rest : List Char} (hc : c = '0' ∨ c = '1') (hrest : mayFollow rest) :
      Takes mayFollow .flag (.flag c) (c :: rest) rest

/-- What a row of arguments takes from the start of a text, and what it leaves. -/
inductive Arguments (mayFollow : List Char → Prop) :
    List Slot → List Argument → List Char → List Char → Prop where
  | one {s : Slot} {a : Argument} {cs rest : List Char} (h : Takes mayFollow s a cs rest) :
      Arguments mayFollow [s] [a] cs rest
  | more {s s' : Slot} {slots : List Slot} {a : Argument} {args : List Argument}
      {cs gap mid rest : List Char} (h : Takes mayFollow s a cs (gap ++ mid)) (hgap : Gap gap)
      (hrest : Arguments mayFollow (s' :: slots) args mid rest) :
      Arguments mayFollow (s :: s' :: slots) (a :: args) cs rest

/-- The commands of a text. -/
inductive Commands (mayFollow : List Char → Prop) : List Command → List Char → Prop where
  | done {ws : List Char} (hws : Spaces ws) : Commands mayFollow [] ws
  | close {ws rest : List Char} {letter : Char} {commands : List Command} (hws : Spaces ws)
      (hletter : letter = 'Z' ∨ letter = 'z') (hrest : Commands mayFollow commands rest) :
      Commands mayFollow (⟨letter, []⟩ :: commands) (ws ++ letter :: rest)
  | draw {ws vs cs rest : List Char} {letter : Char} {slots : List Slot} {rounds : Nat}
      {args : List Argument} {commands : List Command} (hws : Spaces ws)
      (hslots : slotsOf? letter = some slots) (hvs : Spaces vs)
      (hargs : Arguments mayFollow (List.replicate (rounds + 1) slots).flatten args cs rest)
      (hrest : Commands mayFollow commands rest) :
      Commands mayFollow (⟨letter, args⟩ :: commands) (ws ++ letter :: (vs ++ cs))

/-- Path data: no commands, or commands of which the first one moves to a point. -/
structure PathData (mayFollow : List Char → Prop) (commands : List Command) (cs : List Char) :
    Prop where
  reads : Commands mayFollow commands cs
  moves : ∀ c ∈ commands.head?, c.letter = 'M' ∨ c.letter = 'm'

/-- Anything may follow a flag. -/
def Anything : List Char → Prop := fun _ => True

/-! ## §2. What begins what. -/

/-- What stands in gaps. -/
def isGapMark (c : Char) : Bool := c = ',' || isPathSpace c

/-- What stands in gaps stands in no number. -/
theorem gapMark_apart {c : Char} (h : isGapMark c = true) : isNumberMark c = false := by
  simp only [isGapMark, isPathSpace, Bool.or_eq_true, decide_eq_true_eq] at h
  rcases h with rfl | (((rfl | rfl) | rfl) | rfl) | rfl <;> rfl

theorem Spaces.gapMarks {ws : List Char} (h : Spaces ws) : ∀ c ∈ ws, isGapMark c = true := by
  intro c hc
  rw [isGapMark, h c hc, Bool.or_true]

theorem Gap.marks {gap : List Char} (h : Gap gap) : ∀ c ∈ gap, isGapMark c = true := by
  cases h with
  | spaces hws => exact hws.gapMarks
  | comma hws hvs =>
    intro c hc
    rcases List.mem_append.mp hc with hc | hc
    · exact hws.gapMarks c hc
    · rcases List.mem_cons.mp hc with rfl | hc
      · rfl
      · exact hvs.gapMarks c hc

/-- What begins an argument. -/
def StartsArgument (c : Char) : Prop := StartsMantissa c ∨ IsSignMark c

theorem StartsArgument.numberMark {c : Char} (h : StartsArgument c) : isNumberMark c = true := by
  rcases h with (h | rfl) | rfl | rfl
  · unfold isNumberMark
    rw [isDecimalDigit_of_ascii h]
    rfl
  all_goals rfl

theorem StartsArgument.not_gapMark {c : Char} (h : StartsArgument c) : isGapMark c = false := by
  rw [← Bool.not_eq_true]
  intro hmark
  have hnumber := h.numberMark
  rw [gapMark_apart hmark] at hnumber
  cases hnumber

theorem IsNumeral.starts {t : List Char} (h : IsNumeral t) :
    ∃ c tail, t = c :: tail ∧ StartsArgument c := by
  cases h with
  | intro hs hm _ =>
    cases hs with
    | none =>
      obtain ⟨c, tail, rfl, hc⟩ := hm.exists_cons
      exact ⟨c, _, rfl, Or.inl hc⟩
    | some hs => exact ⟨_, _, rfl, Or.inr hs⟩

variable {P Q : List Char → Prop}

theorem Takes.starts {s : Slot} {a : Argument} {cs rest : List Char} (h : Takes P s a cs rest) :
    ∃ c tail, cs = c :: tail ∧ StartsArgument c := by
  cases h with
  | coordinate h =>
    obtain ⟨c, tail, rfl, hc⟩ := h.numeral.starts
    exact ⟨c, tail ++ rest, h.split, hc⟩
  | flag hc _ =>
    refine ⟨_, _, rfl, Or.inl (Or.inl ?_)⟩
    rcases hc with rfl | rfl <;> rfl

theorem Arguments.starts {slots : List Slot} {args : List Argument} {cs rest : List Char}
    (h : Arguments P slots args cs rest) : ∃ c tail, cs = c :: tail ∧ StartsArgument c := by
  cases h with
  | one h => exact h.starts
  | more h _ _ => exact h.starts

/-- Of two ways to go on after a gap with something else there is one. -/
theorem gap_unique {gap gap' mid mid' : List Char} (hgap : ∀ c ∈ gap, isGapMark c = true)
    (hgap' : ∀ c ∈ gap', isGapMark c = true) (hmid : ∀ c ∈ mid.head?, isGapMark c = false)
    (hmid' : ∀ c ∈ mid'.head?, isGapMark c = false) (h : gap ++ mid = gap' ++ mid') :
    gap = gap' ∧ mid = mid' := by
  have htake := takeWhile_append_stop hgap hmid
  rw [h, takeWhile_append_stop hgap' hmid'] at htake
  have hdrop := dropWhile_append_stop hgap hmid
  rw [h, dropWhile_append_stop hgap' hmid'] at hdrop
  exact ⟨htake.symm, hdrop.symm⟩

theorem Arguments.head {slots : List Slot} {args : List Argument} {cs rest : List Char}
    (h : Arguments P slots args cs rest) : ∀ c ∈ cs.head?, isGapMark c = false := by
  obtain ⟨c, tail, rfl, hc⟩ := h.starts
  intro d hd
  cases hd
  exact hc.not_gapMark

/-- The letters of commands. -/
def commandLetters : List Char :=
  ['M', 'm', 'L', 'l', 'T', 't', 'H', 'h', 'V', 'v', 'S', 's', 'Q', 'q', 'C', 'c', 'A', 'a', 'Z', 'z']

theorem letter_of_slotsOf? {letter : Char} {slots : List Slot} (h : slotsOf? letter = some slots) :
    letter ∈ commandLetters ∧ slots ≠ [] := by
  unfold slotsOf? at h
  split at h
  next hmem =>
    cases h
    exact ⟨(by simp [commandLetters] : ['M', 'm', 'L', 'l', 'T', 't'] ⊆ commandLetters) hmem, by simp⟩
  next =>
  split at h
  next hmem =>
    cases h
    exact ⟨(by simp [commandLetters] : ['H', 'h', 'V', 'v'] ⊆ commandLetters) hmem, by simp⟩
  next =>
  split at h
  next hmem =>
    cases h
    exact ⟨(by simp [commandLetters] : ['S', 's', 'Q', 'q'] ⊆ commandLetters) hmem, by simp⟩
  next =>
  split at h
  next hmem =>
    cases h
    exact ⟨(by simp [commandLetters] : ['C', 'c'] ⊆ commandLetters) hmem, by simp⟩
  next =>
  split at h
  next hmem =>
    cases h
    exact ⟨(by simp [commandLetters] : ['A', 'a'] ⊆ commandLetters) hmem, by simp⟩
  next => cases h

/-- A letter stands in no gap and in no number. -/
theorem letter_apart {letter : Char} (h : letter ∈ commandLetters) :
    isGapMark letter = false ∧ isNumberMark letter = false := by
  have hall : (commandLetters.all fun l => !isGapMark l && !isNumberMark l) = true := by decide
  have hletter := List.all_eq_true.mp hall letter h
  rwa [Bool.and_eq_true, Bool.not_eq_true', Bool.not_eq_true'] at hletter

theorem letter_starts_none {letter : Char} (h : letter ∈ commandLetters) :
    ¬ StartsArgument letter := by
  intro hstarts
  have hnumber := hstarts.numberMark
  rw [(letter_apart h).2] at hnumber
  cases hnumber

theorem close_mem {letter : Char} (h : letter = 'Z' ∨ letter = 'z') :
    letter ∈ commandLetters ∧ slotsOf? letter = none := by
  rcases h with rfl | rfl
  · exact ⟨by decide, by decide⟩
  · exact ⟨by decide, by decide⟩

/-- Commands are white space, or white space and a letter with something after it. -/
theorem Commands.head {commands : List Command} {cs : List Char} (h : Commands P commands cs) :
    Spaces cs ∨ ∃ ws letter rest, cs = ws ++ letter :: rest ∧ Spaces ws
      ∧ letter ∈ commandLetters := by
  cases h with
  | done hws => exact Or.inl hws
  | close hws hletter _ => exact Or.inr ⟨_, _, _, rfl, hws, (close_mem hletter).1⟩
  | draw hws hslots _ _ _ => exact Or.inr ⟨_, _, _, rfl, hws, (letter_of_slotsOf? hslots).1⟩

/-- White space goes up to a letter. -/
theorem spaces_unique {ws ws' rest rest' : List Char} {l l' : Char} (hws : Spaces ws)
    (hws' : Spaces ws') (hl : l ∈ commandLetters) (hl' : l' ∈ commandLetters)
    (h : ws ++ l :: rest = ws' ++ l' :: rest') : l = l' ∧ rest = rest' := by
  have hhead : ∀ {l : Char} {rest : List Char}, l ∈ commandLetters →
      ∀ c ∈ (l :: rest).head?, isGapMark c = false := by
    intro l rest hl c hc
    cases hc
    exact (letter_apart hl).1
  obtain ⟨_, heq⟩ := gap_unique hws.gapMarks hws'.gapMarks (hhead hl) (hhead hl') h
  exact List.cons.inj heq

/-- White space holds no letter. -/
theorem Spaces.not_letter {ws ws' rest : List Char} {l : Char} (hws : Spaces ws)
    (hl : l ∈ commandLetters) : ws ≠ ws' ++ l :: rest := by
  rintro rfl
  have hmark := hws.gapMarks l (by simp)
  rw [(letter_apart hl).1] at hmark
  cases hmark

/-- Where commands follow, no argument does. -/
theorem Commands.not_argument {commands : List Command} {cs gap mid : List Char}
    (h : Commands P commands cs) (hgap : Gap gap) {c : Char} {tail : List Char}
    (hmid : mid = c :: tail) (hc : StartsArgument c) : cs ≠ gap ++ mid := by
  rintro rfl
  subst hmid
  rcases h.head with hws | ⟨ws, letter, rest, heq, hws, hletter⟩
  · have hmark := hws.gapMarks c (by simp)
    rw [hc.not_gapMark] at hmark
    cases hmark
  · have hhead : ∀ d ∈ (letter :: rest).head?, isGapMark d = false := by
      intro d hd
      cases hd
      exact (letter_apart hletter).1
    have hmidhead : ∀ d ∈ (c :: tail).head?, isGapMark d = false := by
      intro d hd
      cases hd
      exact hc.not_gapMark
    obtain ⟨_, heq'⟩ := gap_unique hgap.marks hws.gapMarks hmidhead hhead heq
    cases heq'
    exact letter_starts_none hletter hc

/-! ## §3. One reading. -/

theorem Takes.unique {s : Slot} {a a' : Argument} {cs rest rest' : List Char}
    (h : Takes P s a cs rest) (h' : Takes Q s a' cs rest') : a = a' ∧ rest = rest' := by
  cases h with
  | coordinate h =>
    cases h' with
    | coordinate h' =>
      obtain ⟨rfl, rfl⟩ := h.unique h'
      exact ⟨rfl, rfl⟩
  | flag _ _ =>
    cases h' with
    | flag _ _ => exact ⟨rfl, rfl⟩

theorem Arguments.unique {slots : List Slot} {args args' : List Argument}
    {cs rest rest' : List Char} (h : Arguments P slots args cs rest)
    (h' : Arguments Q slots args' cs rest') : args = args' ∧ rest = rest' := by
  induction h generalizing args' rest' with
  | one h =>
    cases h' with
    | one h' =>
      obtain ⟨rfl, rfl⟩ := h.unique h'
      exact ⟨rfl, rfl⟩
  | more h hgap hrest ih =>
    cases h' with
    | more h' hgap' hrest' =>
      obtain ⟨rfl, hmid⟩ := h.unique h'
      obtain ⟨_, rfl⟩ := gap_unique hgap.marks hgap'.marks hrest.head hrest'.head hmid
      obtain ⟨rfl, rfl⟩ := ih hrest'
      exact ⟨rfl, rfl⟩

/-- Before commands arguments are not taken any further. -/
theorem Arguments.not_longer {slots more : List Slot} {args args' : List Argument}
    {cs rest rest' : List Char} {commands : List Command} (h : Arguments P slots args cs rest)
    (hrest : Commands P commands rest) (hmore : more ≠ []) :
    ¬ Arguments Q (slots ++ more) args' cs rest' := by
  induction h generalizing args' rest' with
  | one h =>
    intro h'
    cases more with
    | nil => exact hmore rfl
    | cons s more =>
      cases h' with
      | more h' hgap' hrest' =>
        obtain ⟨_, hmid⟩ := h.unique h'
        obtain ⟨c, tail, hcons, hc⟩ := hrest'.starts
        exact hrest.not_argument hgap' hcons hc hmid
  | more h hgap hmid ih =>
    intro h'
    cases h' with
    | more h' hgap' hmid' =>
      obtain ⟨_, heq⟩ := h.unique h'
      obtain ⟨_, rfl⟩ := gap_unique hgap.marks hgap'.marks hmid.head hmid'.head heq
      exact ih hrest hmid'

/-- More rounds are the rounds before and some others. -/
theorem flatten_replicate_of_lt {slots : List Slot} (hslots : slots ≠ []) {m n : Nat}
    (h : m < n) : ∃ more, more ≠ []
      ∧ (List.replicate n slots).flatten = (List.replicate m slots).flatten ++ more := by
  obtain ⟨k, rfl⟩ : ∃ k, n = m + (k + 1) := ⟨n - m - 1, by omega⟩
  refine ⟨(List.replicate (k + 1) slots).flatten, ?_, ?_⟩
  · rw [List.replicate_succ, List.flatten_cons]
    exact fun hnil => hslots (List.append_eq_nil_iff.mp hnil).1
  · rw [List.replicate_add, List.flatten_append]

/-- **Rounds are taken as long as there are any.** -/
theorem Arguments.unique_rounds {slots : List Slot} (hslots : slots ≠ []) {m n : Nat}
    {args args' : List Argument} {cs rest rest' : List Char} {commands commands' : List Command}
    (h : Arguments P (List.replicate m slots).flatten args cs rest)
    (hrest : Commands P commands rest)
    (h' : Arguments Q (List.replicate n slots).flatten args' cs rest')
    (hrest' : Commands Q commands' rest') : args = args' ∧ rest = rest' := by
  rcases Nat.lt_trichotomy m n with hlt | rfl | hgt
  · obtain ⟨more, hmore, heq⟩ := flatten_replicate_of_lt hslots hlt
    exact absurd (heq ▸ h') (h.not_longer hrest hmore)
  · exact h.unique h'
  · obtain ⟨more, hmore, heq⟩ := flatten_replicate_of_lt hslots hgt
    exact absurd (heq ▸ h) (h'.not_longer hrest' hmore)

/-- **A text is read in one way.** -/
theorem Commands.unique {commands commands' : List Command} {cs : List Char}
    (h : Commands P commands cs) (h' : Commands Q commands' cs) : commands = commands' := by
  induction h generalizing commands' with
  | done hws =>
    cases h' with
    | done _ => rfl
    | close _ hletter _ => exact absurd rfl (hws.not_letter (close_mem hletter).1)
    | draw _ hslots _ _ _ => exact absurd rfl (hws.not_letter (letter_of_slotsOf? hslots).1)
  | @close ws rest letter commands hws hletter hrest ih =>
    obtain ⟨hmem, hnone⟩ := close_mem hletter
    generalize hcs : ws ++ letter :: rest = cs at h'
    cases h' with
    | done hws' => exact absurd hcs.symm (hws'.not_letter hmem)
    | close hws' hletter' hrest' =>
      obtain ⟨rfl, rfl⟩ := spaces_unique hws hws' hmem (close_mem hletter').1 hcs
      rw [ih hrest']
    | draw hws' hslots' _ _ _ =>
      obtain ⟨rfl, _⟩ := spaces_unique hws hws' hmem (letter_of_slotsOf? hslots').1 hcs
      rw [hnone] at hslots'
      cases hslots'
  | @draw ws vs cs rest letter slots rounds args commands hws hslots hvs hargs hrest ih =>
    obtain ⟨hmem, hne⟩ := letter_of_slotsOf? hslots
    generalize hcs : ws ++ letter :: (vs ++ cs) = text at h'
    cases h' with
    | done hws' => exact absurd hcs.symm (hws'.not_letter hmem)
    | close hws' hletter' _ =>
      obtain ⟨hmem', hnone⟩ := close_mem hletter'
      obtain ⟨rfl, _⟩ := spaces_unique hws hws' hmem hmem' hcs
      rw [hnone] at hslots
      cases hslots
    | draw hws' hslots' hvs' hargs' hrest' =>
      obtain ⟨rfl, htail⟩ := spaces_unique hws hws' hmem (letter_of_slotsOf? hslots').1 hcs
      rw [hslots] at hslots'
      cases hslots'
      obtain ⟨_, rfl⟩ := gap_unique hvs.gapMarks hvs'.gapMarks hargs.head hargs'.head htail
      obtain ⟨rfl, rfl⟩ := hargs.unique_rounds hne hrest hargs' hrest'
      rw [ih hrest']

/-! ## §4. Characters. -/

theorem onlyAsciiDigits_append {cs ds : List Char} (hcs : OnlyAsciiDigits cs)
    (hds : OnlyAsciiDigits ds) : OnlyAsciiDigits (cs ++ ds) := by
  intro c hc
  rcases List.mem_append.mp hc with hc | hc
  · exact hcs c hc
  · exact hds c hc

theorem onlyAsciiDigits_gap {gap : List Char} (h : ∀ c ∈ gap, isGapMark c = true) :
    OnlyAsciiDigits gap := by
  intro c hc hdigit
  rw [(numberMark_false (gapMark_apart (h c hc))).1] at hdigit
  cases hdigit

theorem onlyAsciiDigits_letter {letter : Char} (h : letter ∈ commandLetters) {cs : List Char}
    (hcs : OnlyAsciiDigits cs) : OnlyAsciiDigits (letter :: cs) := by
  intro c hc hdigit
  rcases List.mem_cons.mp hc with rfl | hc
  · rw [(numberMark_false (letter_apart h).2).1] at hdigit
    cases hdigit
  · exact hcs c hc hdigit

theorem IsNumeral.onlyAsciiDigits {t : List Char} (h : IsNumeral t) : OnlyAsciiDigits t := by
  intro c hc hdigit
  rcases h.inNumeral c hc with h | rfl | (rfl | rfl) | rfl | rfl
  · exact h
  all_goals exact absurd hdigit (by decide)

theorem Takes.onlyAsciiDigits {s : Slot} {a : Argument} {cs rest : List Char}
    (h : Takes P s a cs rest) (hrest : OnlyAsciiDigits rest) : OnlyAsciiDigits cs := by
  cases h with
  | coordinate h =>
    rw [h.split]
    exact onlyAsciiDigits_append h.numeral.onlyAsciiDigits hrest
  | @flag mark _ hc _ =>
    have hflag : OnlyAsciiDigits [mark] := by
      intro c hmem _
      rw [List.mem_singleton.mp hmem]
      rcases hc with rfl | rfl <;> rfl
    exact onlyAsciiDigits_append hflag hrest

theorem Arguments.onlyAsciiDigits {slots : List Slot} {args : List Argument} {cs rest : List Char}
    (h : Arguments P slots args cs rest) (hrest : OnlyAsciiDigits rest) : OnlyAsciiDigits cs := by
  induction h with
  | one h => exact h.onlyAsciiDigits hrest
  | more h hgap _ ih =>
    exact h.onlyAsciiDigits (onlyAsciiDigits_append (onlyAsciiDigits_gap hgap.marks) (ih hrest))

/-- **Path data has no digits of other scripts.** -/
theorem Commands.onlyAsciiDigits {commands : List Command} {cs : List Char}
    (h : Commands P commands cs) : OnlyAsciiDigits cs := by
  induction h with
  | done hws => exact onlyAsciiDigits_gap hws.gapMarks
  | close hws hletter _ ih =>
    exact onlyAsciiDigits_append (onlyAsciiDigits_gap hws.gapMarks)
      (onlyAsciiDigits_letter (close_mem hletter).1 ih)
  | draw hws hslots hvs hargs _ ih =>
    refine onlyAsciiDigits_append (onlyAsciiDigits_gap hws.gapMarks)
      (onlyAsciiDigits_letter (letter_of_slotsOf? hslots).1 ?_)
    exact onlyAsciiDigits_append (onlyAsciiDigits_gap hvs.gapMarks) (hargs.onlyAsciiDigits ih)

end ControlSurface.Svg
