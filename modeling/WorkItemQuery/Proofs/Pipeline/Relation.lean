/-
Operands and relations are read off their layout, whatever stands between them. `EndsValue` says which
texts end the number or the string before them; every token that can follow a value starts such a text.
-/
import WorkItemQuery.Proofs.Pipeline.Lexeme
import WorkItemQuery.Proofs.Pipeline.Rule

namespace WorkItemQuery.Pipeline

open Rule WorkItemQuery.Text

/-! ## Lexemes as rules -/

@[simp] theorem result_gap (cs : List Char) : (gap cs).result = some ((), skipGap false cs) := rfl

@[simp] theorem result_symbol (s : Char) (cs : List Char) :
    (symbol s cs).result = match cs with
      | c :: rest => if c = s then some ((), rest) else none
      | [] => none := by
  refine (result_ofScan _ cs).trans ?_
  cases cs <;> rfl

theorem result_symbol_self (s : Char) (cs : List Char) : (symbol s (s :: cs)).result = some ((), cs) := by
  simp

theorem result_symbol_ne {s c : Char} (h : c ≠ s) (cs : List Char) : (symbol s (c :: cs)).result = none := by
  simp [h]

theorem result_keyword (w : String) (cs : List Char) : (keyword w cs).result = readWord w.toList cs := by
  unfold keyword; rw [result_lexeme]

@[simp] theorem result_ident (cs : List Char) : (ident cs).result = readName cs := by
  unfold ident; rw [result_lexeme]

@[simp] theorem result_string (cs : List Char) : (string cs).result = readQuoted cs := by
  unfold string; rw [result_lexeme]

@[simp] theorem result_number (cs : List Char) : (number cs).result = readNumber cs := by
  unfold number; rw [result_lexeme]

theorem keyword_laid {w : String} {ts : List Token} {cs rest : List Char} (h : Laid (.word w :: ts) cs rest) :
    ∃ mid, (keyword w (skipGap false cs)).result = some ((), mid) ∧ Laid ts mid rest ∧ mid.length < cs.length := by
  obtain ⟨v, mid, hskip, hv, ha, h, hlt⟩ := h.uncons
  exact ⟨mid, by rw [hskip, result_keyword, readWord_spelled hv.2 ha], h, hlt⟩

/-- One word is not another with a different first letter. -/
theorem keyword_laid_ne {v w : String} {l : Char} {ts : List Token} {cs rest : List Char} (hl : l ∈ v.toList.head?)
    (hne : l ∉ w.toList.head?) (h : Laid (.word w :: ts) cs rest) :
    (keyword v (skipGap false cs)).result = none := by
  obtain ⟨u, mid, hskip, hu, -⟩ := h.uncons
  obtain ⟨c, u, rfl, -, hc⟩ := Token.spelled_starts hu
  rw [hskip, result_keyword]
  exact readWord_ne hl (by rintro rfl; exact hne hc) _

theorem symbol_laid {s : Char} {ts : List Token} {cs rest : List Char} (h : Laid (.sign s :: ts) cs rest) :
    ∃ mid, skipGap false cs = s :: mid ∧ Laid ts mid rest ∧ mid.length < cs.length := by
  obtain ⟨v, mid, hskip, ⟨-, rfl⟩, -, h, hlt⟩ := h.uncons
  exact ⟨mid, hskip, h, hlt⟩

/-! ## What ends a value -/

/-- Numbers and strings end before such a text. -/
def EndsValue (cs : List Char) : Prop := ∀ c ∈ cs.head?, (Scan.isDigit c = false ∧ c ≠ '.') ∧ c ≠ '\''

theorem endsValue_gap {c : Char} (h : isSpace c = true ∨ c = '-') :
    (Scan.isDigit c = false ∧ c ≠ '.') ∧ c ≠ '\'' := by
  rcases h with hs | rfl
  · rcases isSpace_iff.1 hs with rfl | rfl | rfl | rfl <;> decide
  · decide

theorem endsValue_of_starts {t : Token} {ts : List Token} {cs rest : List Char} (h : Laid (t :: ts) cs rest)
    (ht : ∀ c, t.Starts c → (Scan.isDigit c = false ∧ c ≠ '.') ∧ c ≠ '\'') : EndsValue cs := by
  intro c hc
  rcases h.head hc with hs | hm | hc
  · exact endsValue_gap (.inl hs)
  · exact endsValue_gap (.inr hm)
  · exact ht c hc

theorem endsValue_word {w : String} {ts : List Token} {cs rest : List Char} (h : Laid (.word w :: ts) cs rest) :
    EndsValue cs :=
  endsValue_of_starts h fun c hc => ⟨⟨not_isDigit_of_isLetter hc.1, by rintro rfl; exact absurd hc.1 (by decide)⟩,
    by rintro rfl; exact absurd hc.1 (by decide)⟩

theorem endsValue_sign {s : Char} {ts : List Token} {cs rest : List Char} (h : Laid (.sign s :: ts) cs rest) :
    EndsValue cs :=
  endsValue_of_starts h fun c hc => by
    have hall : ∀ s ∈ signs, (Scan.isDigit s = false ∧ s ≠ '.') ∧ s ≠ '\'' := by decide
    exact hall c hc.1

theorem endsValue_last {cs : List Char} (h : LastGap cs) : EndsValue cs := by
  intro c hc
  have hgap : isSpace c = true ∨ c = '-' := by
    cases h with
    | gap hg =>
      rw [← List.append_nil cs] at hc
      rcases gap_head hg hc with hs | hm | hc
      · exact .inl hs
      · exact .inr hm
      · cases hc
    | comment hg _ =>
      rcases gap_head hg hc with hs | hm | hc
      · exact .inl hs
      · exact .inr hm
      · cases hc; exact .inr rfl
  exact endsValue_gap hgap

/-! ## Operands and relations -/

namespace Operand

def token : Operand → Token
  | name n => .name n
  | key k => .key k

end Operand

namespace Relation

def token : Relation → Token
  | compare op => .comparison op
  | domain op => .operator op

end Relation

theorem isNameChars_cons {n : List Char} (h : IsNameChars n) :
    ∃ c cs, n = c :: cs ∧ (isLetter c || c == '_') = true := by
  rcases n with _ | ⟨c, cs⟩
  · cases h
  · exact ⟨c, cs, rfl, h.1⟩

theorem result_operand_name {n rest : List Char} (hn : IsNameChars n) (hr : ∀ c ∈ rest.head?, isInName c = false) :
    (operand (n ++ rest)).result = some (.name (String.ofList n), rest) := by
  have hread := readName_append hn hr
  obtain ⟨c, cs, rfl, hc⟩ := isNameChars_cons hn
  have hb : c ≠ '[' := by rintro rfl; exact absurd hc (by decide)
  rw [List.cons_append] at hread ⊢
  unfold operand indexer
  simp [hb, hread]

theorem result_operand {o : Operand} {w rest : List Char} (hw : o.token.Spelled w) (ha : o.token.Apart rest) :
    (operand (w ++ rest)).result = some (o, rest) := by
  cases o with
  | name n =>
    obtain ⟨hn, rfl⟩ := hw
    rw [result_operand_name hn ha, String.ofList_toList]
  | key k =>
    obtain ⟨hk, rfl⟩ := hw
    unfold operand indexer
    simp [readKey_append hk]

@[simp] theorem result_domainWords (op : DomainOp) (ws : List String) (cs : List Char) :
    (domainWords op ws cs).result = (readWords (ws.map String.toList) cs).map fun r => (op, r.2) := by
  unfold domainWords
  rw [result_bind, result_lexeme]
  cases readWords (ws.map String.toList) cs <;> rfl

theorem result_domainOp (cs : List Char) :
    (domainOp cs).result =
      ((readWords ["not".toList, "in".toList, "group".toList] cs).map (fun r => (.notInGroup, r.2)) <|>
        (readWords ["in".toList, "group".toList] cs).map (fun r => (.inGroup, r.2)) <|>
        (readWords ["in".toList] cs).map (fun r => (.isIn, r.2)) <|>
        (readWords ["under".toList] cs).map (fun r => (.under, r.2)) <|>
        (readWords ["ever".toList] cs).map (fun r => (.wasEver, r.2)) <|>
        (readWords ["contains".toList] cs).map (fun r => (.contains, r.2))) := by
  unfold domainOp
  simp only [result_named, result_orElse, result_domainWords, List.map_cons, List.map_nil]

/-- Operators start with the first letters of their words. -/
theorem result_domainOp_none {c : Char} {cs : List Char}
    (hnot : readWords ["not".toList, "in".toList, "group".toList] (c :: cs) = none)
    (h : ∀ l ∈ ['i', 'u', 'e', 'c'], c.toLower ≠ l) : (domainOp (c :: cs)).result = none := by
  rw [result_domainOp, hnot, readWords_ne (l := 'i') rfl (h _ (by simp)), readWords_ne (l := 'i') rfl (h _ (by simp)),
    readWords_ne (l := 'u') rfl (h _ (by simp)), readWords_ne (l := 'e') rfl (h _ (by simp)),
    readWords_ne (l := 'c') rfl (h _ (by simp))]
  rfl

theorem readComparison_none {c : Char} (h : c ∉ ['=', '<', '>', '!']) (cs : List Char) :
    readComparison (c :: cs) = none := by
  unfold readComparison
  split <;> simp_all

theorem result_relation_none {c : Char} {cs : List Char}
    (hnot : readWords ["not".toList, "in".toList, "group".toList] (c :: cs) = none)
    (h : ∀ l ∈ ['i', 'u', 'e', 'c'], c.toLower ≠ l) (hs : c ∉ ['=', '<', '>', '!']) :
    (relation (c :: cs)).result = none := by
  unfold relation comparison
  rw [result_orElse, result_map, result_map, result_lexeme, readComparison_none hs, result_domainOp_none hnot h]
  rfl

theorem result_comparison {op : BinaryOp} {w rest : List Char} (hw : (Token.comparison op).Spelled w)
    (hr : ∀ c ∈ rest.head?, c ≠ '>' ∧ c ≠ '=') : (relation (w ++ rest)).result = some (.compare op, rest) := by
  obtain ⟨c, cs, hcs, hc⟩ := Token.spelled_starts hw
  obtain ⟨s, hs, rfl⟩ := hw
  have hread := readComparison_append hs hr
  rw [hcs, List.cons_append] at hread ⊢
  have hn : c.toLower ≠ 'n' := by rcases hc with rfl | rfl | rfl | rfl <;> decide
  have h : ∀ l ∈ ['i', 'u', 'e', 'c'], c.toLower ≠ l := by rcases hc with rfl | rfl | rfl | rfl <;> decide
  unfold relation comparison
  rw [result_orElse, result_map, result_map, result_lexeme, hread,
    result_domainOp_none (readWords_ne (l := 'n') rfl hn _ _) h]
  rfl

theorem readWords_spelled {rest : List Char} (ha : ∀ c ∈ rest.head?, isNameChar c = false) :
    ∀ {ws : List String} {w : List Char}, (∀ v ∈ ws, ∃ l, l ∈ v.toList.head? ∧ isLetter l = true) →
      SpellsWords ws w → readWords (ws.map String.toList) (w ++ rest) = some ((), rest)
  | [], w, _, h => by subst h; rfl
  | [v], w, _, h => readWord_spelled h ha
  | v :: u :: ws, w, hl, h => by
    obtain ⟨a, b, w, rfl, hva, hb, hs, h⟩ := h
    -- the next word starts with a letter, so the blanks end before it
    have hr : ∀ c ∈ (w ++ rest).head?, isSpace c = false := by
      obtain ⟨l, hu, hl'⟩ := hl u (by simp)
      obtain ⟨c, cs, rfl, rfl⟩ := spellsWords_cons h hu
      rintro _ ⟨⟩
      exact not_isSpace_of_isLetter (isLetter_of_toLower hl')
    rw [List.map_cons, List.map_cons, List.append_assoc _ w rest, readWords_cons hva hb hs hr]
    exact readWords_spelled ha (fun v hv => hl v (List.mem_cons_of_mem _ hv)) h

/-- The word `in` alone is not the start of `in group`. -/
theorem readWords_inGroup_none {w rest : List Char} (hw : SpellsWord "in" w)
    (hg : ∀ c ∈ (rest.dropWhile isSpace).head?, c.toLower ≠ 'g') :
    readWords ["in".toList, "group".toList] (w ++ rest) = none := by
  rw [readWords, readLetters_append rest _ w hw]
  · rcases rest with _ | ⟨c, rest⟩
    · rfl
    · dsimp only
      split
      · rcases hd : (c :: rest).dropWhile isSpace with _ | ⟨d, ds⟩
        · rfl
        · exact readWords_ne (l := 'g') rfl (hg d (by simp [hd])) [] ds
      · rfl
  · simp

theorem result_operator {op : DomainOp} {w rest : List Char} (hw : (Token.operator op).Spelled w)
    (ha : ∀ c ∈ rest.head?, isNameChar c = false)
    (hg : op = .isIn → ∀ c ∈ (rest.dropWhile isSpace).head?, c.toLower ≠ 'g') :
    (relation (w ++ rest)).result = some (.domain op, rest) := by
  have hread := readWords_spelled ha (fun v => operatorWords_head) hw
  obtain ⟨c, cs, hcs, -, v, hv, hc⟩ := Token.spelled_starts hw
  -- the alternatives before the right one fail on their first letter, `in group` on its second word
  have hne : ∀ {u : String} {l : Char}, l ∈ u.toList.head? → l ∉ v.toList.head? → ∀ ws,
      readWords (u.toList :: ws) (w ++ rest) = none := by
    intro u l hu hl ws
    rw [hcs]; exact readWords_ne hu (fun h => hl (h ▸ hc)) ws _
  unfold relation
  rw [result_orElse, result_map, result_domainOp]
  cases op <;> cases hv <;> simp only [operatorWords, List.map_cons, List.map_nil] at hread
  case notInGroup => rw [hread]; rfl
  case inGroup => rw [hne (l := 'n') rfl (by decide), hread]; rfl
  case isIn => rw [hne (l := 'n') rfl (by decide), readWords_inGroup_none hw (hg rfl), hread]; rfl
  all_goals
    rw [hne (l := 'n') rfl (by decide), hne (l := 'i') rfl (by decide), hne (l := 'i') rfl (by decide)]
  case under => rw [hread]; rfl
  case wasEver => rw [hne (l := 'u') rfl (by decide), hread]; rfl
  case contains => rw [hne (l := 'u') rfl (by decide), hne (l := 'e') rfl (by decide), hread]; rfl

end WorkItemQuery.Pipeline
