/-
  ControlSurface.Proofs.Markup.Reading
  ────────────────────────────────────
  How the pieces that markup is put together from are read: each the same whatever follows it, up
  to the next tag.

  Main results:
    * `tokens?_append_tag` — markup that is read to its end is read the same before a tag.
    * `tokens?_opening`, `tokens?_closing` — tags that are written down are read as such.
-/
import ControlSurface.Proofs.Markup.Token
import ControlSurface.Proofs.Text.Search
import Mathlib.Data.List.TakeWhile

namespace ControlSurface.Markup

open ControlSurface.Text

/-! ## §1. Tokens before a tag. -/

/-- A run that ended in a text ends at the same place whatever follows the text. -/
theorem run_append {p : Char → Bool} {cs rest : List Char} {c : Char}
    (h : cs.dropWhile p = c :: rest) (more : List Char) :
    (cs ++ more).dropWhile p = c :: (rest ++ more)
      ∧ (cs ++ more).takeWhile p = cs.takeWhile p := by
  induction cs with
  | nil => cases h
  | cons d cs ih =>
    cases hd : p d with
    | true =>
      rw [List.dropWhile_cons_of_pos hd] at h
      rw [List.cons_append, List.dropWhile_cons_of_pos hd, List.takeWhile_cons_of_pos hd,
        List.takeWhile_cons_of_pos hd, (ih h).2]
      exact ⟨(ih h).1, rfl⟩
    | false =>
      rw [List.dropWhile_cons_of_neg (by simp [hd])] at h
      cases h
      rw [List.cons_append, List.dropWhile_cons_of_neg (by simp [hd]),
        List.takeWhile_cons_of_neg (by simp [hd]), List.takeWhile_cons_of_neg (by simp [hd])]
      exact ⟨rfl, rfl⟩

theorem afterBracket?_append {cs rest : List Char} (h : afterBracket? cs = some rest)
    (more : List Char) : afterBracket? (cs ++ more) = some (rest ++ more) := by
  unfold afterBracket? at h ⊢
  split at h
  next heq =>
    cases h
    rw [(run_append heq more).1]
    rfl
  next => cases h

theorem length_of_commentEnd? {cs rest : List Char} (h : commentEnd? cs = some rest) :
    3 ≤ cs.length := by
  induction cs with
  | nil => cases h
  | cons c cs ih =>
    rw [commentEnd?] at h
    split at h
    next found hfound =>
      obtain ⟨mark, hmark, hafter⟩ := List.exists_of_findSome?_eq_some hfound
      have hlong : ∀ m ∈ commentEnds, 3 ≤ m.length := by decide
      have := hlong mark hmark
      rw [after?_eq_some_iff.mp hafter, List.length_append]
      omega
    next =>
      have := ih h
      rw [List.length_cons]
      omega

theorem commentEnd?_append {cs rest : List Char} (h : commentEnd? cs = some rest)
    (more : List Char) : commentEnd? (cs ++ more) = some (rest ++ more) := by
  induction cs with
  | nil => cases h
  | cons c cs ih =>
    rw [commentEnd?] at h
    rw [List.cons_append, commentEnd?, ← List.cons_append]
    split at h
    next found hfound =>
      cases h
      obtain ⟨mark, hmark, hafter⟩ := List.exists_of_findSome?_eq_some hfound
      rw [after?_eq_some_iff.mp hafter]
      rcases (by simpa [commentEnds] using hmark : mark = _ ∨ mark = _) with rfl | rfl
      all_goals rfl
    next hnone =>
      -- the comment goes on for three characters, so an end here lies before what follows
      have hlong := length_of_commentEnd? h
      have hmore : (commentEnds.findSome? fun mark => after? mark (c :: cs ++ more)) = none := by
        rw [List.findSome?_eq_none_iff] at hnone ⊢
        intro mark hmark
        have hshort : ∀ m ∈ commentEnds, m.length ≤ 4 := by decide
        have := hshort mark hmark
        rw [after?_append_right (by rw [List.length_cons]; omega), hnone mark hmark]
        rfl
      rw [hmore]
      exact ih h

theorem afterComment?_append {cs rest : List Char} (h : afterComment? cs = some rest)
    (more : List Char) : afterComment? (cs ++ more) = some (rest ++ more) := by
  unfold afterComment? at h
  split at h
  next => cases h; rfl
  next => cases h; rfl
  next hbracket hdash =>
    have hlong := length_of_commentEnd? h
    obtain ⟨c, d, cs, rfl⟩ : ∃ c d more, cs = c :: d :: more := by
      match cs, hlong with
      | c :: d :: more, _ => exact ⟨c, d, more, rfl⟩
    rw [List.cons_append, List.cons_append, afterComment?, ← List.cons_append, ← List.cons_append]
    · exact commentEnd?_append h more
    · intro after heq
      cases heq
      exact hbracket _ rfl
    · intro after heq
      cases heq
      exact hdash _ rfl

theorem quoted?_append {cs rest : List Char} {text : String} (h : quoted? cs = some (text, rest))
    (more : List Char) : quoted? (cs ++ more) = some (text, rest ++ more) := by
  unfold quoted? at h
  split at h
  next cs =>
    split at h
    next heq =>
      cases h
      rw [List.cons_append, quoted?, (run_append heq more).1, (run_append heq more).2]
      rfl
    next => cases h
  next => cases h

theorem attribute?_append {cs rest : List Char} {a : String × Option String}
    (h : attribute? cs = some (a, rest)) (hrest : rest ≠ []) (more : List Char) :
    attribute? (cs ++ more) = some (a, rest ++ more) := by
  unfold attribute? at h ⊢
  dsimp only at h ⊢
  cases hdrop : cs.dropWhile isTagNameChar with
  | nil =>
    rw [hdrop] at h
    split at h
    next => cases h
    next =>
      cases h
      exact absurd rfl hrest
  | cons c after =>
    rw [(run_append hdrop more).1, (run_append hdrop more).2]
    rw [hdrop] at h
    split at h
    next => cases h
    next hname =>
      rw [if_neg hname]
      split at h
      next heq =>
        cases heq
        obtain ⟨⟨text, left⟩, hquoted, heq⟩ := Option.map_eq_some_iff.mp h
        cases heq
        show (quoted? (after ++ more)).map _ = _
        rw [quoted?_append hquoted more]
        rfl
      next hplain =>
        cases h
        split
        next heq =>
          cases heq
          exact absurd rfl (hplain _)
        next => rfl

theorem attributesFrom_nil (passed : List (String × Option String)) :
    attributesFrom passed [] = none := by
  rw [attributesFrom.eq_def]
  rfl

/-- The attributes of a tag that ends are read the same whatever follows the tag. -/
theorem attributesFrom_append {passed given : List (String × Option String)} {closed : Bool}
    {cs rest : List Char} (h : attributesFrom passed cs = some (given, closed, rest))
    (more : List Char) : attributesFrom passed (cs ++ more) = some (given, closed, rest ++ more) := by
  induction hn : cs.length using Nat.strongRecOn generalizing passed cs with
  | ind n ih =>
    subst hn
    rw [attributesFrom.eq_def] at h ⊢
    cases hdrop : cs.dropWhile isTagSpace with
    | nil =>
      rw [hdrop] at h
      cases h
    | cons c after =>
      rw [(run_append hdrop more).1]
      rw [hdrop] at h
      split at h
      next heq =>
        cases heq
        cases h
        rfl
      next heq =>
        cases heq
        cases h
        rfl
      next hbracket hslash =>
        -- an attribute comes first, and the tag goes on after it
        split at h
        next a left hattribute =>
          split at h
          next hlen =>
            have hleft : left ≠ [] := by
              rintro rfl
              rw [attributesFrom_nil] at h
              cases h
            have hmore := attribute?_append hattribute hleft more
            split
            next heq =>
              cases heq
              exact absurd rfl (hbracket _)
            next heq =>
              obtain ⟨rfl, hafter⟩ := List.cons.inj heq
              cases after with
              | nil => cases hattribute
              | cons d after =>
                cases hafter
                exact absurd rfl (hslash _)
            next =>
              rw [← List.cons_append, hmore]
              dsimp only
              rw [if_pos (by simp only [List.length_append]; omega)]
              exact ih left.length hlen h rfl
          next => cases h
        next => cases h

theorem opening?_append {cs rest : List Char} {t : Token} (h : opening? cs = some (t, rest))
    (more : List Char) : opening? (cs ++ more) = some (t, rest ++ more) := by
  unfold opening? at h ⊢
  dsimp only at h ⊢
  split at h
  next => cases h
  next hname =>
    obtain ⟨⟨given, closed, left⟩, htag, heq⟩ := Option.map_eq_some_iff.mp h
    cases heq
    cases hdrop : cs.dropWhile isTagNameChar with
    | nil =>
      rw [hdrop, attributesFrom_nil] at htag
      cases htag
    | cons c after =>
      rw [(run_append hdrop more).1, (run_append hdrop more).2, if_neg hname, ← List.cons_append,
        attributesFrom_append (hdrop ▸ htag) more]
      rfl

theorem closing?_append {cs rest : List Char} {t : Token} (h : closing? cs = some (t, rest))
    (more : List Char) : closing? (cs ++ more) = some (t, rest ++ more) := by
  unfold closing? at h ⊢
  dsimp only at h ⊢
  split at h
  next => cases h
  next hname =>
    split at h
    next left hend =>
      cases h
      cases hdrop : cs.dropWhile isTagNameChar with
      | nil =>
        rw [hdrop] at hend
        cases hend
      | cons c after =>
        rw [hdrop] at hend
        rw [(run_append hdrop more).1, (run_append hdrop more).2, if_neg hname, ← List.cons_append,
          (run_append hend more).1]
        rfl
    next => cases h

theorem afterDeclaration?_append {cs rest : List Char} (h : afterDeclaration? cs = some rest)
    (more : List Char) : afterDeclaration? (cs ++ more) = some (rest ++ more) := by
  unfold afterDeclaration? at h ⊢
  split at h
  next left hleft =>
    rw [after?_eq_some_iff.mp hleft, List.append_assoc, after?_append]
    exact afterComment?_append h more
  next hnone =>
    have hkeep : after? ['-', '-'] (cs ++ more) = none := by
      match cs, h, hnone with
      | [], h, _ => cases h
      | [c], h, _ =>
        have hc : '-' ≠ c := by
          rintro rfl
          cases h
        exact if_neg hc
      | c :: d :: cs, _, hnone =>
        rw [after?_append_right (by simp), hnone]
        rfl
    rw [hkeep]
    exact afterBracket?_append h more

theorem bracketed?_append {cs rest : List Char} {t : Token} (h : bracketed? cs = some (t, rest))
    (more : List Char) : bracketed? (cs ++ more) = some (t, rest ++ more) := by
  unfold bracketed? at h
  split at h
  next cs => exact closing?_append h more
  next cs =>
    obtain ⟨left, hleft, heq⟩ := Option.map_eq_some_iff.mp h
    cases heq
    show (afterDeclaration? (cs ++ more)).map _ = _
    rw [afterDeclaration?_append hleft]
    rfl
  next cs =>
    obtain ⟨left, hleft, heq⟩ := Option.map_eq_some_iff.mp h
    cases heq
    show (afterBracket? (cs ++ more)).map _ = _
    rw [afterBracket?_append hleft]
    rfl
  next hslash hmark hask =>
    cases cs with
    | nil => exact absurd h (by simp [opening?])
    | cons c cs =>
      rw [List.cons_append, bracketed?]
      · exact opening?_append h more
      · intro after heq
        cases heq
        exact hslash _ rfl
      · intro after heq
        cases heq
        exact hmark _ rfl
      · intro after heq
        cases heq
        exact hask _ rfl

/-- A reference does not reach over the beginning of a tag. -/
theorem character_append_tag (c : Char) (cs more : List Char) :
    character c (cs ++ '<' :: more) = character c cs := by
  cases hdrop : cs.dropWhile isReferenceChar with
  | nil =>
    have hall : ∀ d ∈ cs, isReferenceChar d = true := List.dropWhile_eq_nil_iff.mp hdrop
    have hmore : (cs ++ '<' :: more).dropWhile isReferenceChar = '<' :: more :=
      dropWhile_append_stop hall fun d hd => by cases hd; decide
    unfold character
    rw [hmore, hdrop]
    simp
  | cons d after =>
    unfold character
    rw [(run_append hdrop _).1, (run_append hdrop _).2, hdrop]
    rfl

theorem character_le (c : Char) (cs : List Char) : (character c cs).2 ≤ cs.length := by
  unfold character
  dsimp only
  split
  next h =>
    obtain ⟨_, hsemicolon⟩ := h
    have hlen := congrArg List.length
      (List.takeWhile_append_dropWhile (p := isReferenceChar) (l := cs))
    obtain ⟨after, hdrop⟩ := List.head?_eq_some_iff.mp hsemicolon
    rw [hdrop, List.length_append, List.length_cons] at hlen
    split
    next => dsimp only; omega
    next => exact Nat.zero_le _
  next => exact Nat.zero_le _

/-- **A token is read the same before a tag.** -/
theorem next?_append_tag {cs rest : List Char} {t : Token} (h : next? cs = some (t, rest))
    (more : List Char) : next? (cs ++ '<' :: more) = some (t, rest ++ '<' :: more) := by
  unfold next? at h
  split at h
  next => cases h
  next cs => exact bracketed?_append h _
  next c cs hbracket =>
    cases h
    rw [List.cons_append, next?, character_append_tag, List.drop_append_of_le_length (character_le c cs)]
    exact hbracket

theorem tokens?_nil : tokens? [] = some [] := by
  rw [tokens?.eq_def]
  rfl

theorem tokens?_next {cs rest : List Char} {t : Token} (h : next? cs = some (t, rest))
    (hlen : rest.length < cs.length) : tokens? cs = (tokens? rest).map (t :: ·) := by
  rw [tokens?.eq_def, if_neg (by rintro hnil; rw [List.isEmpty_iff.mp hnil] at h; cases h), h]
  exact if_pos hlen

/-- **Markup that is read to its end is read the same before a tag.** -/
theorem tokens?_append_tag {cs : List Char} {ts : List Token} (h : tokens? cs = some ts)
    (more : List Char) :
    tokens? (cs ++ '<' :: more) = (tokens? ('<' :: more)).map (ts ++ ·) := by
  induction hn : cs.length using Nat.strongRecOn generalizing cs ts with
  | ind n ih =>
    subst hn
    rw [tokens?.eq_def] at h
    split at h
    next hnil =>
      rw [List.isEmpty_iff.mp hnil]
      cases h
      exact (Option.map_id_apply).symm
    next =>
      split at h
      next t rest hnext =>
        split at h
        next hlen =>
          obtain ⟨us, hus, rfl⟩ := Option.map_eq_some_iff.mp h
          rw [tokens?_next (next?_append_tag hnext more)
            (by simp only [List.length_append]; omega), ih rest.length hlen hus rfl, Option.map_map]
          rfl
        next => cases h
      next => cases h

/-! ## §2. Written pieces. -/

/-- A character is read however it is written. -/
theorem tokens?_writes {cs : List Char} {c : Char} (h : Writes cs c) (rest : List Char) :
    tokens? (cs ++ rest) = (tokens? rest).map (.char c :: ·) := by
  obtain ⟨d, more, rfl, hread⟩ := h.read
  have hplain : d ≠ '<' := fun heq => h.opens (heq ▸ List.mem_cons_self ..)
  have hnext : next? (d :: more ++ rest) = some (.char c, rest) := by
    rw [List.cons_append, next?, hread, List.drop_left]
    exact fun heq => hplain heq
  exact tokens?_next hnext (by rw [List.length_append, List.length_cons]; omega)

/-- The name of a tag or of an attribute. -/
structure IsTagName (name : String) : Prop where
  ne_empty : name ≠ ""
  chars : ∀ c ∈ name.toList, isTagNameChar c = true

/-- What ends a name of a tag. -/
def EndsTagName (rest : List Char) : Prop := ∀ c, rest.head? = some c → isTagNameChar c = false

theorem IsTagName.take {name : String} (h : IsTagName name) {rest : List Char}
    (hrest : EndsTagName rest) :
    String.ofList ((name.toList ++ rest).takeWhile isTagNameChar) = name := by
  rw [takeWhile_append_stop h.chars hrest, String.ofList_toList]

theorem IsTagName.drop {name : String} (h : IsTagName name) {rest : List Char}
    (hrest : EndsTagName rest) : (name.toList ++ rest).dropWhile isTagNameChar = rest :=
  dropWhile_append_stop h.chars hrest

/-- A name begins with no blank and with nothing that would begin another token. -/
theorem IsTagName.start {name : String} (h : IsTagName name) :
    ∃ c more, name.toList = c :: more ∧ isTagSpace c = false ∧ c ∉ ['/', '>', '!', '?'] := by
  obtain ⟨c, more, hcons⟩ := List.exists_cons_of_ne_nil
    (fun hnil => h.ne_empty (String.toList_eq_nil_iff.mp hnil))
  have hc := h.chars c (hcons ▸ List.mem_cons_self ..)
  simp only [isTagNameChar, Bool.not_eq_true', Bool.or_eq_false_iff] at hc
  refine ⟨c, more, hcons, hc.1, fun hmem => ?_⟩
  have hmore : ∀ d ∈ ['/', '>', '!', '?'],
      ['<', '>', '/', '!', '?', '=', '"', '\''].contains d = true :=
    List.all_eq_true.mp (by decide)
  rw [hmore c hmem] at hc
  exact absurd hc.2 (by decide)

/-- The tag of a name and attributes is read, whatever follows it. -/
theorem tokens?_opening {name : String} (hname : IsTagName name) {tail rest : List Char}
    (hends : EndsTagName tail) {given : List (String × Option String)} {closed : Bool}
    (htail : attributesFrom [] tail = some (given, closed, rest))
    (hlen : rest.length ≤ tail.length) :
    tokens? ('<' :: (name.toList ++ tail))
      = (tokens? rest).map (.opening name given closed :: ·) := by
  have hopen : opening? (name.toList ++ tail) = some (.opening name given closed, rest) := by
    unfold opening?
    rw [hname.take hends, hname.drop hends]
    dsimp only
    rw [if_neg hname.ne_empty, htail]
    rfl
  obtain ⟨c, more, hcons, _, hc⟩ := hname.start
  refine tokens?_next ?_ (by simp; omega)
  show bracketed? (name.toList ++ tail) = _
  rw [hcons, List.cons_append] at hopen ⊢
  rw [bracketed?, hopen]
  all_goals
    rintro after heq
    cases heq
    exact absurd hc (by decide)

/-- The tag that ends an element is read, whatever follows it. -/
theorem tokens?_closing {name : String} (hname : IsTagName name) (rest : List Char) :
    tokens? ('<' :: '/' :: (name.toList ++ '>' :: rest))
      = (tokens? rest).map (.closing name :: ·) := by
  have hends : EndsTagName ('>' :: rest) := fun c hc => by cases hc; decide
  refine tokens?_next ?_ (by simp; omega)
  show closing? (name.toList ++ '>' :: rest) = _
  unfold closing?
  rw [hname.take hends, hname.drop hends]
  dsimp only
  rw [if_neg hname.ne_empty]
  rfl

/-! ## §3. Attributes. -/

theorem attributesFrom_open (passed : List (String × Option String)) (rest : List Char) :
    attributesFrom passed ('>' :: rest) = some (passed.reverse, false, rest) := by
  rw [attributesFrom.eq_def]
  rfl

theorem attributesFrom_closed (passed : List (String × Option String)) (rest : List Char) :
    attributesFrom passed ('/' :: '>' :: rest) = some (passed.reverse, true, rest) := by
  rw [attributesFrom.eq_def]
  rfl

/-- An attribute after a space is read, and the tag goes on after it. -/
theorem attributesFrom_attribute {name : String} (hname : IsTagName name) {tail rest : List Char}
    {a : String × Option String} (h : attribute? (name.toList ++ tail) = some (a, rest))
    (hlen : rest.length ≤ tail.length) (passed : List (String × Option String)) :
    attributesFrom passed (' ' :: (name.toList ++ tail)) = attributesFrom (a :: passed) rest := by
  obtain ⟨c, more, hcons, hspace, hc⟩ := hname.start
  have hskip : (' ' :: (name.toList ++ tail)).dropWhile isTagSpace = name.toList ++ tail := by
    rw [List.dropWhile_cons_of_pos (by decide), hcons, List.cons_append,
      List.dropWhile_cons_of_neg (by simp [hspace])]
  rw [attributesFrom.eq_def, hskip]
  split
  next heq =>
    rw [hcons, List.cons_append] at heq
    obtain rfl := (List.cons.inj heq).1
    exact absurd hc (by simp)
  next heq =>
    rw [hcons, List.cons_append] at heq
    obtain rfl := (List.cons.inj heq).1
    exact absurd hc (by simp)
  next =>
    rw [h]
    exact if_pos (by simp; omega)

/-- An attribute with a value in quotes is read with the references in the value. -/
theorem attributesFrom_value {name : String} (hname : IsTagName name) {value : List Char}
    (hvalue : '"' ∉ value) (passed : List (String × Option String)) (rest : List Char) :
    attributesFrom passed (' ' :: (name.toList ++ '=' :: '"' :: (value ++ '"' :: rest)))
      = attributesFrom ((name, some (String.ofList (decode value))) :: passed) rest := by
  have hends : EndsTagName ('=' :: '"' :: (value ++ '"' :: rest)) := fun c hc => by cases hc; decide
  refine attributesFrom_attribute hname ?_ (by simp; omega) passed
  unfold attribute?
  rw [hname.take hends, hname.drop hends]
  dsimp only
  rw [if_neg hname.ne_empty]
  show (quoted? ('"' :: (value ++ '"' :: rest))).map _ = _
  rw [quoted?, dropWhile_append_mark hvalue, takeWhile_append_mark hvalue]
  rfl

/-- An attribute without value is read before a space or a bracket. -/
theorem attributesFrom_bare {name : String} (hname : IsTagName name) {c : Char}
    (hc : c = ' ' ∨ c = '>') (passed : List (String × Option String)) (rest : List Char) :
    attributesFrom passed (' ' :: (name.toList ++ c :: rest))
      = attributesFrom ((name, none) :: passed) (c :: rest) := by
  have hends : EndsTagName (c :: rest) := fun d hd => by
    cases hd
    rcases hc with rfl | rfl <;> decide
  refine attributesFrom_attribute hname ?_ le_rfl passed
  unfold attribute?
  rw [hname.take hends, hname.drop hends]
  dsimp only
  rw [if_neg hname.ne_empty]
  rcases hc with rfl | rfl <;> rfl

/-! ## §4. Balanced text. -/

/-- A text that is read as balanced tokens, whatever follows it. -/
structure ReadsAs (text : List Char) (ts : List Token) : Prop where
  read : ∀ rest, tokens? (text ++ rest) = (tokens? rest).map (ts ++ ·)
  balanced : Balanced ts

theorem ReadsAs.nil : ReadsAs [] [] := ⟨fun _ => Option.map_id_apply.symm, rfl⟩

theorem ReadsAs.append {s t : List Char} {ts us : List Token} (hs : ReadsAs s ts)
    (ht : ReadsAs t us) : ReadsAs (s ++ t) (ts ++ us) where
  read rest := by
    rw [List.append_assoc, hs.read, ht.read, Option.map_map]
    simp [Function.comp_def]
  balanced := hs.balanced.append ht.balanced

theorem ReadsAs.tokens? {text : List Char} {ts : List Token} (h : ReadsAs text ts) :
    Markup.tokens? text = some ts := by
  have hall := h.read []
  rw [List.append_nil, tokens?_nil] at hall
  rw [hall]
  simp

theorem Writes.readsAs {cs : List Char} {c : Char} (h : Writes cs c) : ReadsAs cs [.char c] :=
  ⟨tokens?_writes h, rfl⟩

/-- Characters are read however each of them is written. -/
theorem readsAs_flatMap {f : Char → List Char} (hf : ∀ c, Writes (f c) c) (cs : List Char) :
    ReadsAs (cs.flatMap f) (cs.map .char) := by
  induction cs with
  | nil => exact .nil
  | cons c cs ih => exact (hf c).readsAs.append ih

/-- Characters that begin neither a reference nor a tag are read as themselves. -/
theorem readsAs_chars {cs : List Char} (h : ∀ c ∈ cs, c ≠ '&' ∧ c ≠ '<') :
    ReadsAs cs (cs.map .char) := by
  induction cs with
  | nil => exact .nil
  | cons c cs ih =>
    obtain ⟨hampersand, hbracket⟩ := h c (List.mem_cons_self ..)
    exact (writes_self hampersand hbracket).readsAs.append
      (ih fun d hd => h d (List.mem_cons_of_mem c hd))

end ControlSurface.Markup
