/-
Steps and whole pipelines are read off their layout, with any blanks and comments between the tokens
and around them.
-/
import WorkItemQuery.Pipeline.Parse
import WorkItemQuery.Proofs.Pipeline.Condition

namespace WorkItemQuery.Pipeline

open Rule WorkItemQuery.Text

/-! ## What ends a step -/

/-- A step ends before a text that goes on neither with a comma nor with the first letter of a connective or
of a direction. -/
def EndsStep (cs : List Char) : Prop :=
  EndsValue cs ∧ ∀ c ∈ (skipGap false cs).head?, c ≠ ',' ∧ c.toLower ∉ ['a', 'o', 'd']

theorem endsStep_bar {ts : List Token} {cs rest : List Char} (h : Laid (.sign '|' :: ts) cs rest) : EndsStep cs := by
  refine ⟨endsValue_sign h, ?_⟩
  obtain ⟨mid, hskip, -⟩ := symbol_laid h
  rw [hskip]
  rintro _ ⟨⟩
  decide

theorem endsStep_last {cs : List Char} (h : LastGap cs) : EndsStep cs := by
  refine ⟨endsValue_last h, ?_⟩
  rw [skipGap_last h]
  rintro _ ⟨⟩

theorem readWord_first {w : String} {l : Char} {cs : List Char} (hl : l ∈ w.toList.head?)
    (h : ∀ c ∈ cs.head?, c.toLower ≠ l) : readWord w.toList cs = none := by
  rcases cs with _ | ⟨c, cs⟩
  · obtain ⟨ls, hw⟩ := List.head?_eq_some_iff.1 hl
    rw [hw]; rfl
  · exact readWord_ne hl (h c rfl) cs

namespace EndsStep

variable {cs : List Char} (h : EndsStep cs)
include h

theorem no_comma (mid : List Char) : skipGap false cs ≠ ',' :: mid := by
  intro hskip
  exact (h.2 ',' (by rw [hskip]; rfl)).1 rfl

theorem no_word {w : String} {l : Char} (hl : l ∈ w.toList.head?) (hmem : l ∈ ['a', 'o', 'd']) :
    readWord w.toList (skipGap false cs) = none :=
  readWord_first hl fun c hc heq => (h.2 c hc).2 (heq ▸ hmem)

end EndsStep

/-! ## Sort keys -/

/-- A sort key without a direction ends before a text that does not go on with one. -/
def EndsKey (cs : List Char) : Prop := ∀ c ∈ (skipGap false cs).head?, c.toLower ∉ ['a', 'd']

theorem endsKey_comma {ts : List Token} {cs rest : List Char} (h : Laid (.sign ',' :: ts) cs rest) : EndsKey cs := by
  obtain ⟨mid, hskip, -⟩ := symbol_laid h
  unfold EndsKey
  rw [hskip]
  rintro _ ⟨⟩
  decide

theorem EndsStep.endsKey {cs : List Char} (h : EndsStep cs) : EndsKey cs := by
  intro c hc hmem
  refine (h.2 c hc).2 ?_
  simp only [List.mem_cons, List.not_mem_nil, or_false] at hmem ⊢
  exact hmem.imp_right .inr

namespace SortKey

def tokens (k : SortKey) : List Token := [k.operand.token, .word (if k.descending then "desc" else "asc")]

/-- The ways to write a sort key. The ascending order need not be written. -/
inductive Written : SortKey → List Token → Prop
  | plain {o : Operand} : Written ⟨o, false⟩ [o.token]
  | directed {k : SortKey} : Written k k.tokens

theorem commas_head {k : SortKey} {ks : List SortKey} {ts : List Token} (h : Commas Written (k :: ks) ts) :
    ∃ us, ts = k.operand.token :: us := by
  cases h with
  | cons hk _ => cases hk <;> exact ⟨_, rfl⟩

end SortKey

/-- Whether a field is named so that the word `by` is read off its name. -/
def Operand.StartsBy : Operand → Prop
  | .name n => ∃ w rest, n.toList = w ++ rest ∧ SpellsWord "by" w ∧ ∀ c ∈ rest.head?, c = '.'
  | .key _ => False

/-- The ways to write a step. -/
inductive StepWritten : Step → List Token → Prop
  | all : StepWritten (.select .all) [.word "select", .sign '*']
  | fields {n : String} {ns : List String} :
      StepWritten (.select (.fields (n :: ns))) (.word "select" :: listed (fun n => [.name n]) (n :: ns))
  | filter {c : Condition} {ts : List Token} : Written .whole c ts → StepWritten (.filter c) (.word "where" :: ts)
  | orderBy {ks : List SortKey} {ts : List Token} : Commas SortKey.Written ks ts →
      StepWritten (.order ks) (.word "order" :: .word "by" :: ts)
  | order {k : SortKey} {ks : List SortKey} {ts : List Token} : ¬k.operand.StartsBy →
      Commas SortKey.Written (k :: ks) ts → StepWritten (.order (k :: ks)) (.word "order" :: ts)
  | asOfString {s : String} : StepWritten (.asOf s) [.word "asof", .string s]
  | asOfDate {s : String} : StepWritten (.asOf s) [.word "asof", .date s]

/-! ## Steps -/

theorem result_ident_item : ReadsItem ident (fun n ts => ts = [.name n]) EndsValue := by
  intro n ts cs rest hts h _
  subst hts
  obtain ⟨w, mid, hskip, ⟨hn, rfl⟩, ha, h, -⟩ := h.uncons
  cases h
  rw [hskip, result_ident, readName_append hn ha, String.ofList_toList]

theorem result_direction_none {cs : List Char} (h : EndsKey cs) : (direction (skipGap false cs)).result = none := by
  have hasc : readWord "asc".toList (skipGap false cs) = none :=
    readWord_first (l := 'a') rfl fun c hc heq => h c hc (by simp [heq])
  have hdesc : readWord "desc".toList (skipGap false cs) = none :=
    readWord_first (l := 'd') rfl fun c hc heq => h c hc (by simp [heq])
  unfold direction
  rw [result_named, result_orElse, result_bind, result_bind, result_keyword, result_keyword, hasc, hdesc]
  rfl

theorem result_sortKey : ReadsItem sortKey SortKey.Written EndsKey := by
  intro k ts cs rest hw h hr
  cases hw with
  | @plain o =>
    obtain ⟨w, mid, hskip, hw, ha, h, -⟩ := h.uncons
    cases h
    unfold sortKey
    rw [hskip]
    simp [result_operand hw ha, result_direction_none hr]
  | directed =>
    obtain ⟨o, descending⟩ := k
    obtain ⟨w, mid, hskip, hw, ha, h, -⟩ := h.uncons
    obtain ⟨last, hword, h, -⟩ := keyword_laid h
    cases h
    have hdir : (direction (skipGap false mid)).result = some (descending, rest) := by
      unfold direction
      cases descending with
      | false =>
        have hword : (keyword "asc" (skipGap false mid)).result = some ((), rest) := hword
        simp [hword]
      | true =>
        have hword : (keyword "desc" (skipGap false mid)).result = some ((), rest) := hword
        have hasc : (keyword "asc" (skipGap false mid)).result = none :=
          keyword_laid_ne (w := "desc") (l := 'a') rfl (by decide) h
        simp [hword, hasc]
    unfold sortKey
    rw [hskip]
    simp [result_operand hw ha, hdir]

theorem result_select_all {cs rest : List Char} (h : Laid [.word "select", .sign '*'] cs rest) :
    (selectStep (skipGap false cs)).result = some (.select .all, rest) := by
  obtain ⟨mid, hword, h, -⟩ := keyword_laid h
  obtain ⟨last, hskip, h, -⟩ := symbol_laid h
  cases h
  unfold selectStep wildcard
  simp [hword, hskip]

theorem result_select_fields {n : String} {ns : List String} {cs rest : List Char}
    (h : Laid (.word "select" :: listed (fun n => [.name n]) (n :: ns)) cs rest) (hr : EndsStep rest) :
    (selectStep (skipGap false cs)).result = some (.select (.fields (n :: ns)), rest) := by
  obtain ⟨mid, hword, h, -⟩ := keyword_laid h
  have hstar : (wildcard (skipGap false mid)).result = none := by
    obtain ⟨w, last, hskip, hw, -⟩ := h.uncons
    obtain ⟨c, w, rfl, hc⟩ := Token.spelled_starts hw
    have hc : (isLetter c || c == '_') = true := hc
    unfold wildcard
    rw [result_named, result_bind, hskip, List.cons_append,
      result_symbol_ne (by rintro rfl; exact absurd hc (by decide))]
    rfl
  have hlist := result_commaList endsValue_sign hr.1 hr.no_comma result_ident_item
    (commas_iff.2 ⟨List.cons_ne_nil n ns, rfl⟩) h
  unfold selectStep fieldList
  simp [hword, hstar, hlist]

theorem result_filterStep {c : Condition} {ts : List Token} {cs rest : List Char} (hw : Written .whole c ts)
    (h : Laid (.word "where" :: ts) cs rest) (hr : EndsStep rest) :
    (filterStep (skipGap false cs)).result = some (.filter c, rest) := by
  obtain ⟨mid, hword, h, -⟩ := keyword_laid h
  have hc := result_condition hw h hr.1 (hr.no_word (l := 'a') rfl (by decide))
    (hr.no_word (l := 'o') rfl (by decide))
  unfold filterStep
  simp [hword, hc]

/-- The word `by` is no part of the first sort key, unless the name of a field says so. -/
theorem result_by_none {k : SortKey} {ks : List SortKey} {ts : List Token} {cs rest : List Char}
    (hby : ¬k.operand.StartsBy) (hw : Commas SortKey.Written (k :: ks) ts) (h : Laid ts cs rest) :
    (keyword "by" (skipGap false cs)).result = none := by
  obtain ⟨us, rfl⟩ := SortKey.commas_head hw
  obtain ⟨w, mid, hskip, hw, ha, -⟩ := h.uncons
  rw [hskip, result_keyword]
  refine Option.eq_none_iff_forall_ne_some.2 fun ⟨⟨⟩, last⟩ hread => ?_
  rcases ho : k.operand with n | key
  · rw [ho] at hw ha hby
    obtain ⟨hn, rfl⟩ := hw
    rcases readWord_name (w := "by") (by decide) (by decide) hn ha hread with ⟨hword, rfl⟩ | ⟨v, cs, hcs, hv, rfl⟩
    · exact hby ⟨n.toList, [], by simp, hword, by simp⟩
    · exact hby ⟨v, '.' :: cs, hcs, hv, by simp⟩
  · rw [ho] at hw
    obtain ⟨-, rfl⟩ := hw
    rw [List.cons_append, readWord_ne (l := 'b') rfl (by decide)] at hread
    cases hread

theorem result_orderBy {ks : List SortKey} {ts : List Token} {cs rest : List Char}
    (hw : Commas SortKey.Written ks ts) (h : Laid (.word "order" :: .word "by" :: ts) cs rest)
    (hr : EndsStep rest) : (orderStep (skipGap false cs)).result = some (.order ks, rest) := by
  obtain ⟨mid, hword, h, -⟩ := keyword_laid h
  obtain ⟨last, hby, h, -⟩ := keyword_laid h
  have hlist := result_commaList endsKey_comma hr.endsKey hr.no_comma result_sortKey hw h
  unfold orderStep
  simp [hword, hby, hlist]

theorem result_order {k : SortKey} {ks : List SortKey} {ts : List Token} {cs rest : List Char}
    (hby : ¬k.operand.StartsBy) (hw : Commas SortKey.Written (k :: ks) ts) (h : Laid (.word "order" :: ts) cs rest)
    (hr : EndsStep rest) : (orderStep (skipGap false cs)).result = some (.order (k :: ks), rest) := by
  obtain ⟨mid, hword, h, -⟩ := keyword_laid h
  have hlist := result_commaList endsKey_comma hr.endsKey hr.no_comma result_sortKey hw h
  unfold orderStep
  simp [hword, result_by_none hby hw h, hlist]

theorem result_asOfStep_date {s : String} {cs rest : List Char} (h : Laid [.word "asof", .date s] cs rest)
    (hr : EndsValue rest) : (asOfStep (skipGap false cs)).result = some (.asOf s, rest) := by
  obtain ⟨mid, hword, h, -⟩ := keyword_laid h
  obtain ⟨w, last, hskip, ⟨u, hu, rfl⟩, -, h, -⟩ := h.uncons
  cases h
  unfold asOfStep
  rw [List.append_assoc] at hskip
  simp [hword, hskip, result_timestamp hu hr]

theorem result_asOfStep_string {s : String} {cs rest : List Char} (h : Laid [.word "asof", .string s] cs rest)
    (hr : EndsValue rest) : (asOfStep (skipGap false cs)).result = some (.asOf s, rest) := by
  obtain ⟨mid, hword, h, -⟩ := keyword_laid h
  obtain ⟨w, last, hskip, rfl, -, h, -⟩ := h.uncons
  cases h
  have hread := readQuoted_quoteChars (s := s) fun c hc => (hr c hc).2
  have hdate : (timestamp (skipGap false mid)).result = none := by
    rw [hskip, quoteChars, List.cons_append, List.cons_append]
    exact result_timestamp_none (by decide) _
  rw [← hskip] at hread
  unfold asOfStep
  simp [hword, hdate, hread]

theorem result_step_eq (cs : List Char) : (step cs).result =
    ((selectStep cs).result <|> (filterStep cs).result <|> (orderStep cs).result <|> (asOfStep cs).result) := by
  unfold step
  simp only [result_named, result_orElse]

/-- A step starts with its own word, and the words of steps differ in their first letters. -/
theorem result_step {s : Step} {ts : List Token} {cs rest : List Char} (hs : StepWritten s ts) (h : Laid ts cs rest)
    (hr : EndsStep rest) : (step (skipGap false cs)).result = some (s, rest) := by
  have hselect : (keyword "select" (skipGap false cs)).result = none →
      (selectStep (skipGap false cs)).result = none :=
    fun h => by unfold selectStep; simp [h]
  have hfilter : (keyword "where" (skipGap false cs)).result = none →
      (filterStep (skipGap false cs)).result = none :=
    fun h => by unfold filterStep; simp [h]
  have horder : (keyword "order" (skipGap false cs)).result = none →
      (orderStep (skipGap false cs)).result = none :=
    fun h => by unfold orderStep; simp [h]
  rw [result_step_eq]
  cases hs with
  | all => rw [result_select_all h]; rfl
  | fields => rw [result_select_fields h hr]; rfl
  | filter hw =>
    rw [hselect (keyword_laid_ne (l := 's') rfl (by decide) h), result_filterStep hw h hr]
    rfl
  | orderBy hw =>
    rw [hselect (keyword_laid_ne (l := 's') rfl (by decide) h),
      hfilter (keyword_laid_ne (l := 'w') rfl (by decide) h), result_orderBy hw h hr]
    rfl
  | order hby hw =>
    rw [hselect (keyword_laid_ne (l := 's') rfl (by decide) h),
      hfilter (keyword_laid_ne (l := 'w') rfl (by decide) h), result_order hby hw h hr]
    rfl
  | asOfString =>
    rw [hselect (keyword_laid_ne (l := 's') rfl (by decide) h),
      hfilter (keyword_laid_ne (l := 'w') rfl (by decide) h),
      horder (keyword_laid_ne (l := 'o') rfl (by decide) h), result_asOfStep_string h hr.1]
    rfl
  | asOfDate =>
    rw [hselect (keyword_laid_ne (l := 's') rfl (by decide) h),
      hfilter (keyword_laid_ne (l := 'w') rfl (by decide) h),
      horder (keyword_laid_ne (l := 'o') rfl (by decide) h), result_asOfStep_date h hr.1]
    rfl

/-! ## Pipelines -/

/-- The ways to write steps, each after a bar. -/
abbrev StepsWritten : List Step → List Token → Prop := Preceded (.sign '|') StepWritten

/-- Steps are read up to a text that goes on with neither of them nor with a bar. -/
theorem result_steps {steps : List Step} {ts : List Token} {rest : List Char} (hs : StepsWritten steps ts)
    (hr : EndsStep rest) (hbar : ∀ mid, skipGap false rest ≠ '|' :: mid) : ∀ {cs : List Char}, Laid ts cs rest →
      (many (do gap; symbol '|'; gap; step) cs).result = some (steps, rest) := by
  induction hs with
  | nil =>
    intro cs h
    cases h
    refine result_many_none ?_
    simp only [result_bind, result_gap, result_symbol, Option.bind_some]
    rcases hskip : skipGap false rest with _ | ⟨c, cs⟩
    · rfl
    · have hc : c ≠ '|' := by rintro rfl; exact hbar cs hskip
      simp [hc]
  | @cons s steps ts us hs hsteps ih =>
    intro cs h
    obtain ⟨mid, hskip, h, hlt⟩ := symbol_laid h
    obtain ⟨last, hstep, h⟩ := h.of_append
    have hlast : EndsStep last := by
      cases hsteps with
      | nil => cases h; exact hr
      | cons _ _ => exact endsStep_bar h
    have hread : ((do gap; symbol '|'; gap; step : Rule Step) cs).result = some (s, last) := by
      simp [hskip, result_step hs hstep hlast]
    have hle := hstep.length_le
    rw [result_many_some hread (by omega), ih h]
    rfl

/-- A pipeline is read off its tokens, up to a text that does not go on with it. -/
theorem result_pipeline {entity : String} {steps : List Step} {ts : List Token} {cs rest : List Char}
    (hs : StepsWritten steps ts) (h : Laid (.word "from" :: .name entity :: ts) cs rest) (hr : EndsStep rest)
    (hbar : ∀ mid, skipGap false rest ≠ '|' :: mid) :
    (pipeline (skipGap false cs)).result = some (⟨entity, steps⟩, rest) := by
  obtain ⟨mid, hword, h, -⟩ := keyword_laid h
  obtain ⟨w, last, hskip, ⟨hn, rfl⟩, ha, h, -⟩ := h.uncons
  have hname : readName (skipGap false mid) = some (entity, last) := by
    rw [hskip, readName_append hn ha, String.ofList_toList]
  unfold pipeline source
  rw [result_named, result_bind, result_named]
  simp only [result_bind, hword, Option.bind_some, result_gap, result_ident, hname]
  refine (result_bind (many _) _ last).trans ?_
  rw [result_steps hs hr hbar h]
  rfl

theorem ofText_eq_ok_iff {cs : List Char} {p : Pipeline} :
    ofText cs = .ok p ↔ ∃ rest, (program cs).result = some (p, rest) := by
  unfold ofText
  split
  · rename_i hreply; rw [hreply]; simp
  · rename_i hreply; rw [hreply]; simp

theorem result_program (cs : List Char) : (program cs).result =
    (pipeline (skipGap false cs)).result.bind fun r =>
      if skipGap false r.2 = [] then some (r.1, []) else none := by
  unfold program endOfText
  simp only [result_named, result_bind, result_gap, Option.bind_some, result_lexeme, result_pure]
  congr 1
  funext r
  cases skipGap false r.2 <;> rfl

/-- Every layout of a pipeline's tokens is read back as the pipeline. -/
theorem ofText_layout {entity : String} {steps : List Step} {ts : List Token} {cs : List Char}
    (hs : StepsWritten steps ts) (h : Layout (.word "from" :: .name entity :: ts) cs) :
    ofText cs = .ok ⟨entity, steps⟩ := by
  obtain ⟨rest, h, hrest⟩ := h
  have hskip := skipGap_last hrest
  have hpipeline := result_pipeline hs h (endsStep_last hrest) (by simp [hskip])
  refine ofText_eq_ok_iff.2 ⟨[], ?_⟩
  rw [result_program, hpipeline, Option.bind_some, if_pos hskip]

end WorkItemQuery.Pipeline
