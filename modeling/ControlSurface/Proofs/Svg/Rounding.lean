/-
  ControlSurface.Proofs.Svg.Rounding
  ──────────────────────────────────
  Rounding the numbers of path data.  The search for numbers knows no commands and no flags, yet it
  finds each coordinate, for a coordinate is the longest numeral at its place; a flag it finds alone
  only if nothing that could belong to a number follows it.

  Main results:
    * `round_commands` — what is put in the place of the commands reads as the commands with
      their coordinates rounded: a rounded coordinate neither runs into what follows nor into what
      stands before, since a space is put between.
    * `rounding_keeps_meaning` — rounded path data whose flags are set apart reads as the rounded
      commands and as nothing else.
    * `touching_flags_change` — flags that touch what follows are rounded together with it.
-/
import ControlSurface.Proofs.Svg.NumberRounding
import ControlSurface.Proofs.Svg.PathData

namespace ControlSurface.Svg

open ControlSurface.Text
open ControlSurface.Number (Digits IsPlain UnsignedPlain isDecimalDigit_of_ascii)

section Rounding

variable {places : Nat}

/-! ## §1. What stands between. -/

/-- What stands in gaps is kept. -/
theorem roundFrom_gap {gap : List Char} (h : ∀ c ∈ gap, isGapMark c = true) (rest : List Char)
    (before : Option Char) :
    roundFrom places 0 before (gap ++ rest)
      = gap ++ roundFrom places 0 (gap.getLast?.or before) rest := by
  induction gap generalizing before with
  | nil => rfl
  | cons c gap ih =>
    rw [List.cons_append, roundFrom_copy (numberOf_of_not (gapMark_apart (h c (List.mem_cons_self ..))) _),
      ih fun d hd => h d (List.mem_cons_of_mem _ hd), List.cons_append, getLast?_cons_or]

theorem roundFrom_gap_only {gap : List Char} (h : ∀ c ∈ gap, isGapMark c = true)
    (before : Option Char) : roundFrom places 0 before gap = gap := by
  have hcopy := @roundFrom_gap places gap h [] before
  rwa [roundFrom, List.append_nil] at hcopy

/-! ## §2. Arguments. -/

/-- An argument as text. -/
def Argument.text : Argument → List Char
  | .coordinate t => t
  | .flag mark => [mark]

/-- An argument with its number rounded; flags stay as they are. -/
def Argument.rounded (places : Nat) : Argument → Argument
  | .coordinate t => .coordinate (Svg.rounded places t)
  | .flag mark => .flag mark

/-- Whether the number of an argument is finite. -/
def Argument.Finite : Argument → Prop
  | .coordinate t => HasFiniteValue t
  | .flag _ => True

/-- A number is what is put in its place, after a space or after nothing. -/
theorem spaced_eq (before : Option Char) (r : List Char) :
    ∃ lead, Spaces lead ∧ spaced before r = lead ++ r := by
  unfold spaced
  split
  next => exact ⟨[' '], fun c hc => by rw [List.mem_singleton.mp hc]; rfl, rfl⟩
  next => exact ⟨[], fun _ hc => absurd hc List.not_mem_nil, rfl⟩

/-- **One argument is rounded**, and a space may be put before it. -/
theorem round_takes (hplaces : 0 < places) {s : Slot} {a : Argument} {cs rest : List Char}
    (h : Takes SetApart s a cs rest) (hascii : OnlyAsciiDigits cs) (hfinite : a.Finite)
    (before : Option Char) :
    ∃ last, EndsNumber last ∧ IsPlain (a.rounded places).text
      ∧ roundFrom places 0 before cs
        = spaced before (a.rounded places).text ++ roundFrom places 0 (some last) rest := by
  cases h with
  | @coordinate cs t rest h =>
    obtain ⟨last, hlast, hends⟩ := h.numeral.endsInNumber
    have hfound := h.numberOf_eq hascii
    refine ⟨last, hends, rounded_isPlain hplaces h.numeral hfinite, ?_⟩
    rw [h.split] at hfound ⊢
    rw [roundFrom_number h.numeral.ne_nil hfound, hlast]
    rfl
  | @flag c rest hc hrest =>
    have hplain : IsPlain [c] := by
      refine .positive (.whole ⟨by simp, fun d hd => ?_⟩)
      rw [List.mem_singleton.mp hd]
      rcases hc with rfl | rfl <;> rfl
    have hlongest := longestNumeral_plain hplain hrest
    have hround : roundFrom places 0 before ([c] ++ rest)
        = spaced before (rounded places [c]) ++ roundFrom places 0 (some c) rest :=
      roundFrom_number (List.cons_ne_nil c []) (hlongest.numberOf_eq hascii) before
    rw [rounded_flag hplaces hc] at hround
    refine ⟨c, ?_, hplain, hround⟩
    rcases hc with rfl | rfl <;> exact Or.inl rfl

/-- What is put in the place of an argument is read as the argument rounded. -/
theorem takes_rounded {P : List Char → Prop} {s : Slot} {a : Argument} {cs rest : List Char}
    (h : Takes P s a cs rest) (hplain : IsPlain (a.rounded places).text) {out : List Char}
    (hout : SetApart out) :
    Takes Anything s (a.rounded places) ((a.rounded places).text ++ out) out := by
  cases h with
  | coordinate _ => exact .coordinate (longestNumeral_plain hplain hout)
  | flag hc _ => exact .flag hc trivial

theorem setApart_gapMark {c : Char} (h : isGapMark c = true) (cs : List Char) :
    SetApart (c :: cs) := setApart_of_not (gapMark_apart h) cs

theorem setApart_letter {letter : Char} (h : letter ∈ commandLetters) (cs : List Char) :
    SetApart (letter :: cs) := setApart_of_not (letter_apart h).2 cs

theorem Gap.append_spaces {gap lead : List Char} (h : Gap gap) (hlead : Spaces lead) :
    Gap (gap ++ lead) := by
  have happend : ∀ {ws : List Char}, Spaces ws → Spaces (ws ++ lead) := by
    intro ws hws c hc
    rcases List.mem_append.mp hc with hc | hc
    · exact hws c hc
    · exact hlead c hc
  cases h with
  | spaces hws => exact .spaces (happend hws)
  | comma hws hvs =>
    rw [List.append_assoc, List.cons_append]
    exact .comma hws (happend hvs)

/-- **A row of arguments is rounded**, and a space may be put before it. -/
theorem round_arguments (hplaces : 0 < places) {slots : List Slot} {args : List Argument}
    {cs rest : List Char} (h : Arguments SetApart slots args cs rest)
    (hascii : OnlyAsciiDigits rest) (hfinite : ∀ a ∈ args, a.Finite)
    (hrest : ∀ before, SetApart (roundFrom places 0 before rest)) (before : Option Char) :
    (∃ lead cs' last, Spaces lead ∧ roundFrom places 0 before cs = lead ++ cs'
      ∧ Arguments Anything slots (args.map (·.rounded places)) cs'
          (roundFrom places 0 last rest))
      ∧ ∀ c, before = some c → EndsNumber c → SetApart (roundFrom places 0 before cs) := by
  induction h generalizing before with
  | @one s a cs rest h =>
    obtain ⟨last, _, hplain, hround⟩ := round_takes hplaces h (h.onlyAsciiDigits hascii)
      (hfinite a (List.mem_cons_self ..)) before
    obtain ⟨lead, hlead, hspaced⟩ := spaced_eq before (a.rounded places).text
    constructor
    · refine ⟨lead, _, some last, hlead, ?_, .one (takes_rounded h hplain (hrest (some last)))⟩
      rw [hround, hspaced, List.append_assoc]
    · rintro c rfl hc
      rw [hround]
      exact spaced_setApart hplain _ hc
  | @more s s' slots a args cs gap mid rest h hgap hmid ih =>
    have hmidAscii : OnlyAsciiDigits (gap ++ mid) :=
      onlyAsciiDigits_append (onlyAsciiDigits_gap hgap.marks) (hmid.onlyAsciiDigits hascii)
    obtain ⟨last, hends, hplain, hround⟩ := round_takes hplaces h (h.onlyAsciiDigits hmidAscii)
      (hfinite a (List.mem_cons_self ..)) before
    obtain ⟨lead, hlead, hspaced⟩ := spaced_eq before (a.rounded places).text
    obtain ⟨⟨lead', mid', last', hlead', hmid', hargs⟩, hapart⟩ :=
      ih hascii (fun b hb => hfinite b (List.mem_cons_of_mem _ hb)) hrest
        (gap.getLast?.or (some last))
    rw [roundFrom_gap hgap.marks] at hround
    -- without a gap the next argument comes right after this one
    have hout : SetApart (gap ++ roundFrom places 0 (gap.getLast?.or (some last)) mid) := by
      cases gap with
      | nil => exact hapart last rfl hends
      | cons c gap => exact setApart_gapMark (hgap.marks c (List.mem_cons_self ..)) _
    constructor
    · refine ⟨lead, (a.rounded places).text ++ (gap ++ (lead' ++ mid')), last', hlead, ?_,
        .more ?_ (hgap.append_spaces hlead') hargs⟩
      · rw [hround, hspaced, hmid', List.append_assoc]
      · rw [List.append_assoc, ← hmid']
        exact takes_rounded h hplain hout
    · rintro c rfl hc
      rw [hround]
      exact spaced_setApart hplain _ hc

/-! ## §3. Commands. -/

/-- A command with its coordinates rounded. -/
def Command.rounded (places : Nat) (c : Command) : Command :=
  ⟨c.letter, c.arguments.map (·.rounded places)⟩

/-- Whether all numbers of a row of commands are finite. -/
def FiniteNumbers (commands : List Command) : Prop :=
  ∀ c ∈ commands, ∀ a ∈ c.arguments, a.Finite

theorem roundFrom_letter {letter : Char} (h : letter ∈ commandLetters) (cs : List Char)
    (before : Option Char) :
    roundFrom places 0 before (letter :: cs)
      = letter :: roundFrom places 0 (some letter) cs :=
  roundFrom_copy (numberOf_of_not (letter_apart h).2 cs) before

/-- What is put in the place of commands is set apart from a number before it. -/
theorem Commands.round_setApart {P : List Char → Prop} {commands : List Command}
    {cs : List Char} (h : Commands P commands cs) (before : Option Char) :
    SetApart (roundFrom places 0 before cs) := by
  have hspaces : ∀ {ws out : List Char}, Spaces ws → SetApart out → SetApart (ws ++ out) := by
    intro ws out hws hout
    cases ws with
    | nil => exact hout
    | cons c ws => exact setApart_gapMark (hws.gapMarks c (List.mem_cons_self ..)) _
  rcases h.head with hws | ⟨ws, letter, rest, rfl, hws, hletter⟩
  · rw [roundFrom_gap_only hws.gapMarks, ← List.append_nil cs]
    exact hspaces hws fun _ hc => by cases hc
  · rw [roundFrom_gap hws.gapMarks, roundFrom_letter hletter]
    exact hspaces hws (setApart_letter hletter _)

/-- **Commands are rounded**, whatever stands before them. -/
theorem round_commands (hplaces : 0 < places) {commands : List Command} {cs : List Char}
    (h : Commands SetApart commands cs) (hfinite : FiniteNumbers commands)
    (before : Option Char) :
    Commands Anything (commands.map (·.rounded places)) (roundFrom places 0 before cs) := by
  induction h generalizing before with
  | done hws =>
    rw [roundFrom_gap_only hws.gapMarks]
    exact .done hws
  | close hws hletter _ ih =>
    rw [roundFrom_gap hws.gapMarks, roundFrom_letter (close_mem hletter).1]
    exact .close hws hletter (ih (fun c hc => hfinite c (List.mem_cons_of_mem _ hc)) _)
  | @draw ws vs cs rest letter slots rounds args commands hws hslots hvs hargs hrest ih =>
    obtain ⟨⟨lead, cs', last, hlead, hround, hargs'⟩, _⟩ :=
      round_arguments hplaces hargs hrest.onlyAsciiDigits
        (hfinite ⟨letter, args⟩ (List.mem_cons_self ..)) hrest.round_setApart
        (vs.getLast?.or (some letter))
    rw [roundFrom_gap hws.gapMarks, roundFrom_letter (letter_of_slotsOf? hslots).1,
      roundFrom_gap hvs.gapMarks, hround, ← List.append_assoc]
    -- the space before the first argument joins those after the letter
    have hvs' : Spaces (vs ++ lead) := by
      intro c hc
      rcases List.mem_append.mp hc with hc | hc
      · exact hvs c hc
      · exact hlead c hc
    exact .draw hws hslots hvs' hargs'
      (ih (fun c hc => hfinite c (List.mem_cons_of_mem _ hc)) last)

end Rounding

/-! ## §4. Path data. -/

/-- Whether path data, read as some commands, reads after rounding as the commands with their
coordinates rounded and as nothing else. -/
def KeepsMeaning (places : Nat) (commands : List Command) (cs : List Char) : Prop :=
  ∀ commands', PathData Anything commands' (roundNumbers places cs)
    ↔ commands' = commands.map (·.rounded places)

/-- What follows flags in one way follows them anyhow. -/
theorem Takes.anything {P : List Char → Prop} {s : Slot} {a : Argument} {cs rest : List Char}
    (h : Takes P s a cs rest) : Takes Anything s a cs rest := by
  cases h with
  | coordinate h => exact .coordinate h
  | flag hc _ => exact .flag hc trivial

theorem Arguments.anything {P : List Char → Prop} {slots : List Slot} {args : List Argument}
    {cs rest : List Char} (h : Arguments P slots args cs rest) :
    Arguments Anything slots args cs rest := by
  induction h with
  | one h => exact .one h.anything
  | more h hgap _ ih => exact .more h.anything hgap ih

theorem Commands.anything {P : List Char → Prop} {commands : List Command} {cs : List Char}
    (h : Commands P commands cs) : Commands Anything commands cs := by
  induction h with
  | done hws => exact .done hws
  | close hws hletter _ ih => exact .close hws hletter ih
  | draw hws hslots hvs hargs _ ih => exact .draw hws hslots hvs hargs.anything ih

/-- **Rounding keeps the meaning of path data** of finite numbers in which each flag is set apart
from what follows: it was valid in one reading, it is valid, and it reads as the same commands with
each coordinate rounded and each flag as it was. -/
theorem rounding_keeps_meaning {places : Nat} (hplaces : 0 < places) {commands : List Command}
    {cs : List Char} (h : PathData SetApart commands cs) (hfinite : FiniteNumbers commands) :
    (∀ commands', PathData Anything commands' cs ↔ commands' = commands)
      ∧ KeepsMeaning places commands cs := by
  have hround : PathData Anything (commands.map (·.rounded places)) (roundNumbers places cs) := by
    refine ⟨round_commands hplaces h.reads hfinite none, fun c hc => ?_⟩
    rw [List.head?_map] at hc
    obtain ⟨first, hfirst, rfl⟩ := Option.map_eq_some_iff.mp hc
    exact h.moves first hfirst
  constructor
  · intro commands'
    constructor
    · intro h'
      exact h'.reads.unique h.reads
    · rintro rfl
      exact ⟨h.reads.anything, h.moves⟩
  · intro commands'
    constructor
    · intro h'
      exact h'.reads.unique hround.reads
    · rintro rfl
      exact hround

/-! ## §5. An arc. -/

theorem takes_digit {P : List Char → Prop} {c : Char} (hc : isAsciiDigit c = true)
    {rest : List Char} (hrest : SetApart rest) :
    Takes P .coordinate (.coordinate [c]) (c :: rest) rest := by
  have hplain : IsPlain [c] := by
    refine .positive (.whole ⟨by simp, fun d hd => ?_⟩)
    rw [List.mem_singleton.mp hd]
    exact hc
  exact .coordinate (longestNumeral_plain hplain hrest)

/-- Arguments with a space between them. -/
theorem arguments_space {P : List Char → Prop} {s s' : Slot} {slots : List Slot} {a : Argument}
    {args : List Argument} {cs mid rest : List Char} (h : Takes P s a cs (' ' :: mid))
    (hrest : Arguments P (s' :: slots) args mid rest) :
    Arguments P (s :: s' :: slots) (a :: args) cs rest := by
  have hspaces : Spaces [' '] := fun c hc => by rw [List.mem_singleton.mp hc]; rfl
  exact @Arguments.more P s s' slots a args cs [' '] mid rest h (.spaces hspaces) hrest

/-- Arguments with nothing between them. -/
theorem arguments_touching {P : List Char → Prop} {s s' : Slot} {slots : List Slot}
    {a : Argument} {args : List Argument} {cs mid rest : List Char} (h : Takes P s a cs mid)
    (hrest : Arguments P (s' :: slots) args mid rest) :
    Arguments P (s :: s' :: slots) (a :: args) cs rest := by
  have hspaces : Spaces [] := fun c hc => absurd hc List.not_mem_nil
  exact @Arguments.more P s s' slots a args cs [] mid rest h (.spaces hspaces) hrest

/-- A circle's arc from the origin, its flags and its end to be written behind it. -/
def arcFrom (tail : List Char) : List Char := "M0 0A5 5 0 ".toList ++ tail

/-- The commands of an arc. -/
def arcCommands (args : List Argument) : List Command :=
  [⟨'M', [.coordinate ['0'], .coordinate ['0']]⟩,
    ⟨'A', .coordinate ['5'] :: .coordinate ['5'] :: .coordinate ['0'] :: args⟩]

theorem pathData_arcFrom {P : List Char → Prop} {args : List Argument} {tail : List Char}
    (h : Arguments P [.flag, .flag, .coordinate, .coordinate] args tail []) :
    PathData P (arcCommands args) (arcFrom tail) := by
  have hspace : ∀ cs, SetApart (' ' :: cs) := setApart_gapMark rfl
  have harc : Arguments P (List.replicate (0 + 1) [.coordinate, .coordinate, .coordinate, .flag,
      .flag, .coordinate, .coordinate]).flatten
      (.coordinate ['5'] :: .coordinate ['5'] :: .coordinate ['0'] :: args)
      ("5 5 0 ".toList ++ tail) [] :=
    arguments_space (takes_digit rfl (hspace _)) (arguments_space (takes_digit rfl (hspace _))
      (arguments_space (takes_digit rfl (hspace _)) h))
  have hmove : Arguments P (List.replicate (0 + 1) (List.replicate 2 .coordinate)).flatten
      [.coordinate ['0'], .coordinate ['0']] ("0 0A5 5 0 ".toList ++ tail)
      ("A5 5 0 ".toList ++ tail) :=
    arguments_space (takes_digit rfl (hspace _))
      (.one (takes_digit rfl (setApart_letter (by decide) _)))
  have hnone : Spaces [] := fun c hc => absurd hc List.not_mem_nil
  have hrest : Commands P [⟨'A', _⟩] ("A5 5 0 ".toList ++ tail) :=
    @Commands.draw P [] [] _ [] 'A' _ 0 _ [] hnone rfl hnone harc (.done hnone)
  refine ⟨@Commands.draw P [] [] _ _ 'M' _ 0 _ _ hnone rfl hnone hmove hrest, fun c hc => ?_⟩
  cases hc
  exact Or.inl rfl

/-- A coordinate is finite if its number is found to be. -/
theorem finite_of_readFloat? {t : List Char}
    (h : ((Number.readFloat? t).map fun x => match Number.parts x with
      | .finite _ => true
      | _ => false) = some true) : (Argument.coordinate t).Finite := by
  intro x hx
  rw [hx, Option.map_some, Option.some_inj] at h
  cases hparts : Number.parts x with
  | finite d => exact ⟨d, rfl⟩
  | infinite _ => rw [hparts] at h; cases h
  | notANumber => rw [hparts] at h; cases h

theorem finiteNumbers_arcCommands {args : List Argument} (h : ∀ a ∈ args, a.Finite) :
    FiniteNumbers (arcCommands args) := by
  have hzero : (Argument.coordinate ['0']).Finite := finite_of_readFloat? (by decide)
  have hfive : (Argument.coordinate ['5']).Finite := finite_of_readFloat? (by decide)
  intro c hc a ha
  simp only [arcCommands, List.mem_cons, List.not_mem_nil, or_false] at hc
  rcases hc with rfl | rfl
  · simp only [List.mem_cons, List.not_mem_nil, or_false, or_self] at ha
    exact ha ▸ hzero
  · simp only [List.mem_cons] at ha
    rcases ha with rfl | rfl | rfl | ha
    · exact hfive
    · exact hfive
    · exact hzero
    · exact h a ha

/-- An arc with a small coordinate that touches the one before. -/
def apartArguments : List Argument :=
  [.flag '0', .flag '1', .coordinate ['-', '9'], .coordinate ['-', '.', '0', '0', '0', '1']]

theorem apart_arguments :
    Arguments SetApart [.flag, .flag, .coordinate, .coordinate] apartArguments
      "0 1-9-.0001".toList [] := by
  have hminus : ∀ cs, SetApart ('-' :: cs) :=
    setApart_cons (by decide) (by decide) (by unfold IsExponentMark; decide)
  have hsmall : Digits ['0', '0', '0', '1'] := Number.digits_of_all (by simp) rfl
  have hlast : LongestNumeral "-.0001".toList "-.0001".toList [] :=
    (IsNumeral.intro (.some (Or.inl rfl)) (.fraction hsmall) .none).longest
  have hnine : IsPlain ['-', '9'] := .negative (.whole (Number.digits_of_all (by simp) rfl))
  exact arguments_space (.flag (Or.inl rfl) (setApart_gapMark rfl _))
    (arguments_touching (.flag (Or.inr rfl) (hminus _))
      (arguments_touching (.coordinate (longestNumeral_plain hnine (hminus _)))
        (.one (.coordinate hlast))))

/-- An arc whose flags are set apart keeps its meaning, though a coordinate of it loses its sign and
is set apart by a space. -/
theorem apart_keeps_meaning :
    0 < 3 ∧ PathData SetApart (arcCommands apartArguments) (arcFrom "0 1-9-.0001".toList)
      ∧ FiniteNumbers (arcCommands apartArguments)
      ∧ KeepsMeaning 3 (arcCommands apartArguments) (arcFrom "0 1-9-.0001".toList)
      ∧ roundNumbers 3 (arcFrom "0 1-9-.0001".toList) = arcFrom "0 1-9 0".toList := by
  have hreads := pathData_arcFrom apart_arguments
  have hfinite : FiniteNumbers (arcCommands apartArguments) := by
    refine finiteNumbers_arcCommands fun a ha => ?_
    simp only [apartArguments, List.mem_cons, List.not_mem_nil, or_false] at ha
    rcases ha with rfl | rfl | rfl | rfl
    · trivial
    · trivial
    · exact finite_of_readFloat? (by decide)
    · exact finite_of_readFloat? (by decide)
  exact ⟨by decide, hreads, hfinite, (rounding_keeps_meaning (by decide) hreads hfinite).2,
    by decide +kernel⟩

/-- An arc whose flags touch each other and the coordinate behind them. -/
def touchingArguments : List Argument :=
  [.flag '0', .flag '1', .coordinate ['1', '0'], .coordinate ['1', '0']]

theorem isPlain_ten : IsPlain ['1', '0'] :=
  .positive (.whole (Number.digits_of_all (List.cons_ne_nil _ _) rfl))

theorem touching_arguments :
    Arguments Anything [.flag, .flag, .coordinate, .coordinate] touchingArguments
      "0110 10".toList [] :=
  arguments_touching (.flag (Or.inl rfl) trivial) (arguments_touching (.flag (Or.inr rfl) trivial)
    (arguments_space (.coordinate (longestNumeral_plain isPlain_ten (setApart_gapMark rfl _)))
      (.one (.coordinate (longestNumeral_plain isPlain_ten fun _ hc => by cases hc)))))

/-- **Flags that touch a coordinate change**: the two flags and the coordinate behind them are one
number to the search, which loses its leading zero, so the first flag is lost, the second one takes
its place, and the coordinate falls apart. -/
theorem touching_flags_change :
    PathData Anything (arcCommands touchingArguments) (arcFrom "0110 10".toList)
      ∧ FiniteNumbers (arcCommands touchingArguments)
      ∧ roundNumbers 3 (arcFrom "0110 10".toList) = arcFrom "110 10".toList
      ∧ ¬ KeepsMeaning 3 (arcCommands touchingArguments) (arcFrom "0110 10".toList) := by
  have hround : roundNumbers 3 (arcFrom "0110 10".toList) = arcFrom "110 10".toList := by
    decide +kernel
  have hfinite : FiniteNumbers (arcCommands touchingArguments) := by
    refine finiteNumbers_arcCommands fun a ha => ?_
    simp only [touchingArguments, List.mem_cons, List.not_mem_nil, or_false] at ha
    rcases ha with rfl | rfl | rfl | rfl
    · trivial
    · trivial
    · exact finite_of_readFloat? (by decide)
    · exact finite_of_readFloat? (by decide)
  refine ⟨pathData_arcFrom touching_arguments, hfinite, hround, fun hkeeps => ?_⟩
  -- what comes out is read with both flags set and the coordinates 0 and 10
  have hother : Arguments Anything [.flag, .flag, .coordinate, .coordinate]
      [.flag '1', .flag '1', .coordinate ['0'], .coordinate ['1', '0']] "110 10".toList [] :=
    arguments_touching (.flag (Or.inr rfl) trivial) (arguments_touching (.flag (Or.inr rfl) trivial)
      (arguments_space (takes_digit rfl (setApart_gapMark rfl _))
        (.one (.coordinate (longestNumeral_plain isPlain_ten fun _ hc => by cases hc)))))
  have hreads := (hkeeps _).mp (hround ▸ pathData_arcFrom hother)
  simp [arcCommands, touchingArguments, Command.rounded, Argument.rounded] at hreads

end ControlSurface.Svg
