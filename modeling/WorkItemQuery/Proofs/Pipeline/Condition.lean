/-
The ways to write a condition, and that each of them is read back. `and` binds tighter than `or`, both
group to the left, and `not` takes the shortest condition behind it, so `Written` says at which of three
levels a list of tokens stands for a condition.

A name may be a word of the language. Only one such name is ambiguous: `not not in group 'a'` is the
negation of a test of the field `not`, and not a test of that field itself.
-/
import WorkItemQuery.Proofs.Pipeline.Value

namespace WorkItemQuery.Pipeline

open Rule WorkItemQuery.Text

/-- What the parts of a condition may be made of without parentheses. -/
inductive Level where
  /-- A test, a negation, or a condition in parentheses. -/
  | factor
  /-- Factors with `and` between them. -/
  | term
  /-- Terms with `or` between them. -/
  | whole
deriving DecidableEq

/-- Whether a field is named as the word `not`. -/
def Operand.IsNot : Operand → Prop
  | .name n => SpellsWord "not" n.toList
  | .key _ => False

/-- The ways to write a condition at a level. -/
inductive Written : Level → Condition → List Token → Prop
  | test {o : Operand} {r : Relation} {v : Literal} : (o.IsNot → r ≠ .domain .notInGroup) →
      Written .factor (.test o r v) (o.token :: r.token :: v.tokens)
  | not {c : Condition} {ts : List Token} : Written .factor c ts → Written .factor (.not c) (.word "not" :: ts)
  | parens {c : Condition} {ts : List Token} : Written .whole c ts →
      Written .factor c (.sign '(' :: (ts ++ [.sign ')']))
  | factor {c : Condition} {ts : List Token} : Written .factor c ts → Written .term c ts
  | and {c d : Condition} {ts us : List Token} : Written .term c ts → Written .factor d us →
      Written .term (.and c d) (ts ++ .word "and" :: us)
  | term {c : Condition} {ts : List Token} : Written .term c ts → Written .whole c ts
  | or {c d : Condition} {ts us : List Token} : Written .whole c ts → Written .term d us →
      Written .whole (.or c d) (ts ++ .word "or" :: us)

/-! ## Texts that are no factor -/

theorem result_factor (depth : Nat) (cs : List Char) : (factor (depth + 1) cs).result =
    ((keyword "not" cs).result.bind (fun r =>
        (factor depth (skipGap false r.2)).result.map fun r => (.not r.1, r.2)) <|>
      (symbol '(' cs).result.bind (fun r => (conditionOf (factor depth) (skipGap false r.2)).result.bind fun r =>
        (symbol ')' (skipGap false r.2)).result.map fun r' => (r.1, r'.2)) <|>
      (predicate cs).result) := by
  rw [factor]
  simp only [result_named, result_orElse, result_bind, result_map, result_gap, Option.bind_some, result_pure,
    Option.map_eq_bind, Function.comp_def]

/-- A factor starts with a parenthesis, a bracket, a letter or an underscore. -/
theorem result_factor_none {c : Char} (hp : c ≠ '(') (hb : c ≠ '[') (hc : (isLetter c || c == '_') = false)
    (cs : List Char) : ∀ depth, (factor depth (c :: cs)).result = none
  | 0 => rfl
  | depth + 1 => by
    have hn : c.toLower ≠ 'n' := by
      intro h
      rw [isLetter_of_toLower (c := c) (by rw [h]; decide)] at hc
      cases hc
    have hpred : (predicate (c :: cs)).result = none := by
      unfold predicate operand indexer
      simp [hb, readName, hc]
    rw [result_factor, result_keyword, readWord_ne (l := 'n') rfl hn, result_symbol_ne hp, hpred]
    rfl

/-- A name with no relation behind it is no test. -/
theorem result_predicate_none {n rest : List Char} (hn : IsNameChars n) (ha : ∀ c ∈ rest.head?, isInName c = false)
    (hr : (relation (skipGap false rest)).result = none) : (predicate (n ++ rest)).result = none := by
  unfold predicate
  simp [result_operand_name hn ha, hr]

theorem isNameChars_of_spells {w : String} {cs : List Char} (h : SpellsWord w cs) (hw : w.toList ≠ [])
    (hl : ∀ l ∈ w.toList, isLetter l = true) : IsNameChars cs ∧ ∀ c ∈ cs, isLetter c = true := by
  have hall := isLetter_of_spells h hl
  refine ⟨?_, hall⟩
  cases cs with
  | nil => exact absurd h.symm hw
  | cons c cs =>
    refine ⟨by simp [hall c List.mem_cons_self], fun x hx => ?_⟩
    simp [isInName, isNameChar, hall x (List.mem_cons_of_mem _ hx)]

theorem notInName_of_value {v : Literal} {cs rest : List Char} (h : Laid v.tokens cs rest)
    (ha : ∀ c ∈ cs.head?, isNameChar c = false) : ∀ c ∈ cs.head?, isInName c = false := by
  intro c hc
  have hp : c ≠ '.' := by
    rintro rfl
    rcases head_value h hc with hs | hv
    · exact absurd hs (by decide)
    · exact (startsValue_ne hv).1 (by simp)
  simp [isInName, ha c hc, hp]

/-- The words of an operator and a value behind them are no test of a field with the name of the first word. -/
theorem result_predicate_operator {op : DomainOp} {v : Literal} {w cs rest : List Char} (hop : op ≠ .notInGroup)
    (hw : (Token.operator op).Spelled w) (ha : (Token.operator op).Apart cs) (h : Laid v.tokens cs rest) :
    (predicate (w ++ cs)).result = none := by
  have hone : ∀ {u : String}, u.toList ≠ [] → (∀ l ∈ u.toList, isLetter l = true) → SpellsWord u w →
      (predicate (w ++ cs)).result = none := fun hu hl hw =>
    result_predicate_none (isNameChars_of_spells hw hu hl).1 (notInName_of_value h ha) (result_relation_value h)
  cases op with
  | isIn => exact hone (u := "in") (by decide) (by decide) hw
  | under => exact hone (u := "under") (by decide) (by decide) hw
  | wasEver => exact hone (u := "ever") (by decide) (by decide) hw
  | contains => exact hone (u := "contains") (by decide) (by decide) hw
  | inGroup =>
    obtain ⟨a, b, u, rfl, hin, hb, hs, hu⟩ := hw
    obtain ⟨c, u, rfl, hc⟩ := spellsWord_cons (l := 'g') hu rfl
    have hl : isLetter c = true := isLetter_of_toLower (by rw [hc]; decide)
    -- what stands behind the word `in` is the word `group`, which starts no relation
    have hskip : skipGap false (b ++ (c :: u ++ cs)) = c :: (u ++ cs) := by
      rw [skipGap_gap (gap_blanks hs), List.cons_append,
        skipGap_cons (not_isSpace_of_isLetter hl) (by rintro rfl; exact absurd hl (by decide))]
    rw [List.append_assoc, List.append_assoc]
    refine result_predicate_none (isNameChars_of_spells hin (by decide) (by decide)).1 ?_ ?_
    · obtain ⟨d, b, rfl⟩ := List.exists_cons_of_ne_nil hb
      rintro _ ⟨⟩
      rcases isSpace_iff.1 (hs d List.mem_cons_self) with rfl | rfl | rfl | rfl <;> decide
    · rw [hskip]
      refine result_relation_none (readWords_ne (l := 'n') rfl (by rw [hc]; decide) _ _) (by rw [hc]; decide) ?_
      intro hmem
      have hall : ∀ c ∈ ['=', '<', '>', '!'], isLetter c = false := by decide
      rw [hall c hmem] at hl; cases hl
  | notInGroup => exact absurd rfl hop

/-- Nor are they a factor. -/
theorem result_factor_operator {op : DomainOp} {v : Literal} {w cs rest : List Char} (hop : op ≠ .notInGroup)
    (hw : (Token.operator op).Spelled w) (ha : (Token.operator op).Apart cs) (h : Laid v.tokens cs rest) :
    ∀ depth, (factor depth (w ++ cs)).result = none
  | 0 => rfl
  | depth + 1 => by
    have hpred := result_predicate_operator hop hw ha h
    obtain ⟨c, w, rfl, hl, u, hu, hc⟩ := Token.spelled_starts hw
    have hn : c.toLower ≠ 'n' := by
      intro hn
      rw [hn] at hc
      cases op <;> cases hu <;> first | exact hop rfl | exact absurd hc (by decide)
    have hp : c ≠ '(' := by rintro rfl; exact absurd hl (by decide)
    rw [List.cons_append] at hpred ⊢
    rw [result_factor, result_keyword, readWord_ne (l := 'n') rfl hn, result_symbol_ne hp, hpred]
    rfl

/-! ## Tests -/

theorem isInName_of_name : ∀ {n : List Char}, IsNameChars n → ∀ c ∈ n, isInName c = true
  | c :: cs, hn, x, hx => by
    rcases List.mem_cons.1 hx with rfl | hx
    · rcases Bool.or_eq_true_iff.1 hn.1 with hl | hu
      · simp [isInName, isNameChar, hl]
      · simp [isInName, isNameChar, hu]
    · exact hn.2 x hx

/-- What a word is read off of a text that starts with a name: the name itself, or its part before a point. -/
theorem readWord_name {w : String} (hne : w.toList ≠ []) (hl : ∀ l ∈ w.toList, isLetter l = true)
    {n mid rest : List Char} (hn : IsNameChars n) (ha : ∀ c ∈ mid.head?, isInName c = false)
    (h : readWord w.toList (n ++ mid) = some ((), rest)) :
    (SpellsWord w n ∧ rest = mid) ∨ ∃ v cs, n = v ++ '.' :: cs ∧ SpellsWord w v ∧ rest = '.' :: (cs ++ mid) := by
  unfold readWord at h
  split at h
  · rename_i r hr
    split at h
    · rename_i hends
      cases h
      obtain ⟨a, hcs, hw⟩ := readLetters_some _ _ hr
      have hletters := (isNameChars_of_spells hw hne hl).2
      rcases List.append_eq_append_iff.1 hcs with ⟨t, rfl, rfl⟩ | ⟨t, rfl, rfl⟩
      · cases t with
        | nil => rw [List.append_nil] at hw; exact .inl ⟨hw, rfl⟩
        | cons x t =>
          have hx := ha x rfl
          simp [isInName, isNameChar, hletters x (by simp)] at hx
      · cases t with
        | nil => exact .inl ⟨by rwa [List.append_nil], rfl⟩
        | cons x t =>
          have hx := isInName_of_name hn x (by simp)
          rw [isInName, endsWord_iff.1 hends x rfl, Bool.false_or, beq_iff_eq] at hx
          subst hx
          exact .inr ⟨a, t, rfl, hw, rfl⟩
    · cases h
  · cases h

/-- A test is no negation. -/
theorem result_not_test {o : Operand} {r : Relation} {v : Literal} {cs rest : List Char}
    (hnot : o.IsNot → r ≠ .domain .notInGroup) (h : Laid (o.token :: r.token :: v.tokens) cs rest) (depth : Nat) :
    ((keyword "not" (skipGap false cs)).result.bind fun r =>
      (factor depth (skipGap false r.2)).result.map fun r => (Condition.not r.1, r.2)) = none := by
  obtain ⟨w, mid, hskip, hw, ha, h, -⟩ := h.uncons
  rw [hskip]
  rw [result_keyword]
  rcases hread : readWord "not".toList (w ++ mid) with _ | ⟨⟨⟩, rest⟩
  · rfl
  suffices hnone : (factor depth (skipGap false rest)).result = none by simp [hnone]
  -- the word is read off the name of the field, or off its part before a point
  cases o with
  | key k =>
    obtain ⟨-, rfl⟩ := hw
    rw [List.cons_append, readWord_ne (l := 'n') rfl (by decide)] at hread
    cases hread
  | name n =>
    obtain ⟨hn, rfl⟩ := hw
    rcases readWord_name (by decide) (by decide) hn ha hread with ⟨hword, rfl⟩ | ⟨v, cs, -, -, rfl⟩
    · obtain ⟨u, last, hskip', hu, hb, hv, -⟩ := h.uncons
      rw [hskip']
      cases r with
      | compare op =>
        obtain ⟨c, u, rfl, hc⟩ := Token.spelled_starts hu
        have hne : c ≠ '(' ∧ c ≠ '[' ∧ (isLetter c || c == '_') = false := by
          rcases hc with rfl | rfl | rfl | rfl <;> decide
        exact result_factor_none hne.1 hne.2.1 hne.2.2 _ depth
      | domain op => exact result_factor_operator (fun hop => hnot hword (by rw [hop])) hu hb hv depth
    · rw [skipGap_cons (by decide) (by decide)]
      exact result_factor_none (by decide) (by decide) (by decide) _ depth

theorem result_factor_test {o : Operand} {r : Relation} {v : Literal} {cs rest : List Char}
    (hnot : o.IsNot → r ≠ .domain .notInGroup) (h : Laid (o.token :: r.token :: v.tokens) cs rest)
    (hr : EndsValue rest) (depth : Nat) :
    (factor (depth + 1) (skipGap false cs)).result = some (.test o r v, rest) := by
  have hneg := result_not_test hnot h depth
  have hpred := result_predicate h hr
  have hparen : ∃ c mid, skipGap false cs = c :: mid ∧ c ≠ '(' := by
    obtain ⟨w, mid, hskip, hw, -⟩ := h.uncons
    obtain ⟨c, w, rfl, hc⟩ := Token.spelled_starts hw
    refine ⟨c, w ++ mid, hskip, ?_⟩
    rintro rfl
    cases o with
    | name n =>
      have hc : (isLetter '(' || '(' == '_') = true := hc
      exact absurd hc (by decide)
    | key k => cases hc
  obtain ⟨c, mid, hskip, hp⟩ := hparen
  rw [result_factor, hneg, hpred, hskip, result_symbol_ne hp]
  rfl

/-! ## Connectives -/

/-- The rest of a condition with one connective between its parts, after the parts that make up `acc`. -/
def resume (connective : String) (join : Condition → Condition → Condition) (part : Rule Condition)
    (acc : Condition) (cs : List Char) : Option (Condition × List Char) :=
  (many (do gap; keyword connective; gap; part) cs).result.map fun r => (r.1.foldl join acc, r.2)

section Connectives

variable {connective : String} {join : Condition → Condition → Condition} {part : Rule Condition}

theorem result_joined (cs : List Char) : (joined connective join part cs).result =
    (part cs).result.bind fun r => resume connective join part r.1 r.2 := by
  unfold joined separated resume
  rw [result_named, result_bind, result_bind, Option.bind_assoc]
  congr 1
  funext r
  refine (congrArg (Option.bind · _) (result_bind (many _) _ r.2)).trans ?_
  cases (many (do gap; keyword connective; gap; part) r.2).result <;> rfl

theorem resume_step {acc c : Condition} {cs mid rest : List Char}
    (hword : (keyword connective (skipGap false cs)).result = some ((), mid))
    (hpart : (part (skipGap false mid)).result = some (c, rest)) (hlt : rest.length < cs.length) :
    resume connective join part acc cs = resume connective join part (join acc c) rest := by
  have hread : ((do gap; keyword connective; gap; part : Rule Condition) cs).result = some (c, rest) := by
    simp only [result_bind, result_gap, Option.bind_some, hword, hpart]
  unfold resume
  rw [result_many_some hread hlt, Option.map_map]
  rfl

theorem resume_stop (acc : Condition) {cs : List Char} (h : readWord connective.toList (skipGap false cs) = none) :
    resume connective join part acc cs = some (acc, cs) := by
  have hread : ((do gap; keyword connective; gap; part : Rule Condition) cs).result = none := by
    simp only [result_bind, result_gap, Option.bind_some, result_keyword, h, Option.bind_none]
  unfold resume
  rw [result_many_none hread]
  rfl

end Connectives

/-- No connective stands before the rest of the text. -/
def EndsTerm (cs : List Char) : Prop := readWord "and".toList (skipGap false cs) = none

/-- What it is to read a condition at a level: a factor is taken off the text, a term and a whole condition
go on with their connective. -/
def Reads (depth : Nat) (c : Condition) (cs rest : List Char) : Level → Prop
  | .factor => (factor depth (skipGap false cs)).result = some (c, rest)
  | .term => (joined "and" .and (factor depth) (skipGap false cs)).result =
      resume "and" .and (factor depth) c rest
  | .whole => EndsTerm rest → (conditionOf (factor depth) (skipGap false cs)).result =
      resume "or" .or (joined "and" .and (factor depth)) c rest

theorem reads_written {level : Level} {c : Condition} {ts : List Token} (hw : Written level c ts) :
    ∀ {depth : Nat} {cs rest : List Char}, ts.length ≤ depth → Laid ts cs rest → EndsValue rest →
      Reads depth c cs rest level := by
  induction hw with
  | @test o r v hnot =>
    intro depth cs rest hd h hr
    obtain ⟨depth, rfl⟩ : ∃ d, depth = d + 1 := ⟨depth - 1, by simp at hd; omega⟩
    exact result_factor_test hnot h hr depth
  | @not c ts _ ih =>
    intro depth cs rest hd h hr
    obtain ⟨depth, rfl⟩ : ∃ d, depth = d + 1 := ⟨depth - 1, by simp at hd; omega⟩
    obtain ⟨mid, hword, h, -⟩ := keyword_laid h
    have hread : (factor depth (skipGap false mid)).result = some (c, rest) := ih (by simpa using hd) h hr
    show (factor (depth + 1) _).result = _
    rw [result_factor, hword, Option.bind_some, hread]
    rfl
  | @parens c ts _ ih =>
    intro depth cs rest hd h hr
    obtain ⟨depth, rfl⟩ : ∃ d, depth = d + 1 := ⟨depth - 1, by simp at hd; omega⟩
    obtain ⟨mid, hopen, h, -⟩ := symbol_laid h
    obtain ⟨last, hin, h⟩ := h.of_append
    have hlast := endsValue_sign h
    obtain ⟨stop, hclose, h, -⟩ := symbol_laid h
    cases h
    -- no connective stands before the closing parenthesis, so the condition inside ends there
    have hand : EndsTerm last := by unfold EndsTerm; rw [hclose]; exact readWord_ne (l := 'a') rfl (by decide) _
    have hor : readWord "or".toList (skipGap false last) = none := by
      rw [hclose]; exact readWord_ne (l := 'o') rfl (by decide) _
    have hwhole : Reads depth c mid last .whole := ih (by simp at hd; omega) hin hlast
    have hread := hwhole hand
    rw [resume_stop c hor] at hread
    show (factor (depth + 1) _).result = _
    rw [result_factor, hopen, result_keyword, readWord_ne (l := 'n') rfl (by decide), result_symbol_self,
      Option.bind_some, hread, Option.bind_some, hclose, result_symbol_self]
    rfl
  | @factor c ts _ ih =>
    intro depth cs rest hd h hr
    show (joined _ _ _ _).result = _
    rw [result_joined, ih hd h hr]
    rfl
  | @and c d ts us _ _ ihc ihd =>
    intro depth cs rest hd h hr
    rw [List.length_append, List.length_cons] at hd
    obtain ⟨mid, hc, h⟩ := h.of_append
    have hmid := endsValue_word h
    obtain ⟨last, hword, h, hlt⟩ := keyword_laid h
    have hread : (factor depth (skipGap false last)).result = some (d, rest) := ihd (by omega) h hr
    have hle := h.length_le
    show (joined _ _ _ _).result = _
    rw [show (joined _ _ _ _).result = _ from ihc (by omega) hc hmid, resume_step hword hread (by omega)]
  | @term c ts _ ih =>
    intro depth cs rest hd h hr hand
    unfold conditionOf
    rw [result_named, result_joined, show (joined _ _ _ _).result = _ from ih hd h hr, resume_stop c hand]
    rfl
  | @or c d ts us _ _ ihc ihd =>
    intro depth cs rest hd h hr hand
    rw [List.length_append, List.length_cons] at hd
    obtain ⟨mid, hc, h⟩ := h.of_append
    have hmid := endsValue_word h
    -- the term before `or` is complete, since `or` is not `and`
    have hor : EndsTerm mid := by
      rw [EndsTerm, ← result_keyword]
      exact keyword_laid_ne (l := 'a') rfl (by decide) h
    obtain ⟨last, hword, h, hlt⟩ := keyword_laid h
    have hread : (joined "and" .and (factor depth) (skipGap false last)).result = some (d, rest) := by
      rw [show (joined _ _ _ _).result = _ from ihd (by omega) h hr, resume_stop d hand]
    have hle := h.length_le
    rw [ihc (by omega) hc hmid hor, resume_step hword hread (by omega)]

/-- Every way to write a condition is read back, up to a text that does not go on with it. -/
theorem result_condition {c : Condition} {ts : List Token} {cs rest : List Char} (hw : Written .whole c ts)
    (h : Laid ts cs rest) (hr : EndsValue rest) (hand : EndsTerm rest)
    (hor : readWord "or".toList (skipGap false rest) = none) :
    (condition (skipGap false cs)).result = some (c, rest) := by
  have hd := h.length_le_skipGap
  unfold condition
  rw [reads_written hw (Nat.le_succ_of_le hd) h hr hand, resume_stop c hor]

end WorkItemQuery.Pipeline
