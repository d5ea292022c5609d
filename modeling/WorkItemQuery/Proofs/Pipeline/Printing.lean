/-
Writing queries as pipelines, and that reading undoes it. A query is written with one operator in each
step and with parentheses only where a condition would otherwise group differently. Every layout of
the tokens is read back as the query: words in any letter case, any blanks and comments.
-/
import WorkItemQuery.Proofs.Pipeline.Meaning
import WorkItemQuery.Proofs.Pipeline.Program

namespace WorkItemQuery

open Pipeline Time

/-! ## Queries that pipelines can say -/

namespace Expr

/-- The fields of an item. -/
inductive IsOperand : Expr → Prop
  | field {n : String} : IsName n → IsOperand (Expr.field n)
  | indexer {k : String} : IsKey k → IsOperand (.indexer k)

/-- The field named as the word `not`, in any letter case. -/
def IsNotField (o : Expr) : Prop := ∃ n : String, o = Expr.field n ∧ SpellsWord "not" n.toList

/-- The predicates of filters. -/
inductive IsPredicate : Expr → Prop
  | compare {op : BinaryOp} {o : Expr} {k : Constant} : op.IsComparison → o.IsOperand → k.IsLiteral →
      IsPredicate (.binary op o (.constant k))
  | domain {op : DomainOp} {o : Expr} {k : Constant} : ¬(op = .notInGroup ∧ o.IsNotField) → o.IsOperand →
      k.IsLiteral → IsPredicate (.domain op o (.constant k))
  | and {p q : Expr} : IsPredicate p → IsPredicate q → IsPredicate (.binary .andAlso p q)
  | or {p q : Expr} : IsPredicate p → IsPredicate q → IsPredicate (.binary .orElse p q)
  | not {p : Expr} : IsPredicate p → IsPredicate (.unary .not p)

/-- The queries that start from a table and go on by steps. -/
inductive IsQuery : Expr → Prop
  | table {entity : String} : IsName entity → IsQuery (Expr.table entity)
  | all {source : Expr} : IsQuery source → IsQuery (.select source .all)
  | fields {source : Expr} {ns : List String} : ns ≠ [] → (∀ n ∈ ns, IsName n) → IsQuery source →
      IsQuery (.select source (.fields ns))
  | filter {source p : Expr} : p.IsPredicate → IsQuery source → IsQuery (.filter source (itLambda p))
  | order {source o : Expr} {d : Direction} : o.IsOperand → d ≠ .unspecified → IsQuery source →
      IsQuery (.order source (itLambda o) d)
  | asOf {source : Expr} {t : Timestamp} : t.HasShortYear → IsQuery source → IsQuery (.asOf source t)

/-! ## Tokens of queries -/

/-- The operand that a field is written as. -/
def operand : Expr → Operand
  | .indexer k => .key k
  | .member _ n => .name n
  | _ => .name ""

/-- Tokens in parentheses, if they need them. -/
def grouped (needed : Bool) (ts : List Token) : List Token :=
  if needed then .sign '(' :: (ts ++ [.sign ')']) else ts

/-- The tokens of a predicate at a level. The left operand of a connective may be made with the same
connective, the right one may not. -/
def conditionTokens (style : TimeStyle) : Level → Expr → List Token
  | level, .binary .orElse p q =>
    grouped (level != .whole) (p.conditionTokens style .whole ++ .word "or" :: q.conditionTokens style .term)
  | level, .binary .andAlso p q =>
    grouped (level == .factor) (p.conditionTokens style .term ++ .word "and" :: q.conditionTokens style .factor)
  | _, .unary .not p => .word "not" :: p.conditionTokens style .factor
  | _, .binary op o (.constant k) => o.operand.token :: .comparison op :: (k.literal style).tokens
  | _, .domain op o (.constant k) => o.operand.token :: .operator op :: (k.literal style).tokens
  | _, _ => []

/-- The word of a direction. -/
def directionWord : Direction → String
  | .descending => "desc"
  | _ => "asc"

/-- The tokens of a query. -/
def tokens (style : TimeStyle) : Expr → List Token
  | .constant (.table entity) => [.word "from", .name entity]
  | .select source .all => source.tokens style ++ [.sign '|', .word "select", .sign '*']
  | .select source (.fields ns) =>
    source.tokens style ++ .sign '|' :: .word "select" :: listed (fun n => [.name n]) ns
  | .filter source (.lambda _ p) =>
    source.tokens style ++ .sign '|' :: .word "where" :: p.conditionTokens style .whole
  | .order source (.lambda _ o) d =>
    source.tokens style ++ [.sign '|', .word "order", .word "by", o.operand.token, .word (directionWord d)]
  | .asOf source t =>
    source.tokens style ++
      [.sign '|', .word "asof", if style.asOfWord then .date (style.spell t) else .string (style.spell t)]
  | _ => []

/-! ## Reading back -/

theorem IsOperand.toExpr_operand {o : Expr} (h : o.IsOperand) : o.operand.toExpr = o := by
  cases h <;> rfl

theorem IsOperand.isNotField {o : Expr} (h : o.IsOperand) (hnot : o.operand.IsNot) : o.IsNotField := by
  cases h with
  | @field n _ => exact ⟨n, rfl, hnot⟩
  | indexer _ => exact absurd hnot id

theorem says_grouped {level : Level} {p : Expr} {ts : List Token} {needed : Bool} (h : Says .whole p ts)
    (hlevel : needed = false → Says level p ts) : Says level p (grouped needed ts) := by
  cases needed with
  | false => exact hlevel rfl
  | true => exact h.parens.anywhere

theorem conditionTokens_compare {style : TimeStyle} {level : Level} {op : BinaryOp} {o : Expr} {k : Constant}
    (h : op.IsComparison) : conditionTokens style level (.binary op o (.constant k)) =
      o.operand.token :: .comparison op :: (k.literal style).tokens := by
  cases op <;> first | rfl | exact absurd h id

/-- The tokens of a predicate stand for it at every level. -/
theorem says_conditionTokens (style : TimeStyle) {p : Expr} (hp : p.IsPredicate) :
    ∀ level : Level, Says level p (p.conditionTokens style level) := by
  induction hp with
  | @compare op o k hop ho hk =>
    intro level
    have htest : Says .factor (.binary op o (.constant k))
        (o.operand.token :: .comparison op :: (k.literal style).tokens) := by
      have h := Says.test (r := .compare op) (fun _ => by simp) (Constant.constant_literal style hk) (o := o.operand)
      rwa [ho.toExpr_operand] at h
    rw [conditionTokens_compare hop]
    exact htest.anywhere
  | @domain op o k hnot ho hk =>
    intro level
    have htest : Says .factor (.domain op o (.constant k))
        (o.operand.token :: .operator op :: (k.literal style).tokens) := by
      have h := Says.test (r := .domain op) (fun hn heq => hnot ⟨by simpa using heq, ho.isNotField hn⟩)
        (Constant.constant_literal style hk) (o := o.operand)
      rwa [ho.toExpr_operand] at h
    rw [conditionTokens]
    exact htest.anywhere
  | @and p q _ _ ihp ihq =>
    intro level
    -- without parentheses the conjunction is a term, so only a factor needs them
    have hand := (ihp .term).and (ihq .factor)
    rw [conditionTokens]
    refine says_grouped hand.whole fun hlevel => ?_
    cases level with
    | factor => exact absurd hlevel (by decide)
    | term => exact hand
    | whole => exact hand.whole
  | @or p q _ _ ihp ihq =>
    intro level
    have hor := (ihp .whole).or (ihq .term)
    rw [conditionTokens]
    refine says_grouped hor fun hlevel => ?_
    cases level with
    | whole => exact hor
    | _ => exact absurd hlevel (by decide)
  | @not p _ ih =>
    intro level
    rw [conditionTokens]
    exact (ih .factor).not.anywhere

/-- The tokens of a query stand for it. -/
theorem saysQuery_tokens (style : TimeStyle) {e : Expr} (he : e.IsQuery) : SaysQuery e (e.tokens style) := by
  induction he with
  | @table entity _ => exact .table entity
  | all _ ih => exact ih.step .all rfl
  | fields hne _ _ ih =>
    obtain ⟨n, ns, rfl⟩ := List.exists_cons_of_ne_nil hne
    exact ih.step .fields rfl
  | filter hp _ ih =>
    obtain ⟨c, hw, hc⟩ := says_conditionTokens style hp .whole
    exact ih.step (.filter hw) (by rw [Step.apply, hc]; rfl)
  | @order source o d ho hd _ ih =>
    have hwritten : StepWritten (.order [⟨o.operand, d == .descending⟩])
        [.word "order", .word "by", o.operand.token, .word (directionWord d)] := by
      have h := StepWritten.orderBy (.cons (.directed (k := ⟨o.operand, d == .descending⟩)) .nil)
      cases d <;> exact h
    refine ih.step hwritten ?_
    show Except.ok (Expr.order source (itLambda o.operand.toExpr) (SortKey.direction _)) = _
    rw [ho.toExpr_operand]
    cases d with
    | unspecified => exact absurd rfl hd
    | _ => rfl
  | @asOf source t ht _ ih =>
    have hwritten : StepWritten (.asOf (style.spell t))
        [.word "asof", if style.asOfWord then .date (style.spell t) else .string (style.spell t)] := by
      cases style.asOfWord with
      | true => exact .asOfDate
      | false => exact .asOfString
    refine ih.step hwritten ?_
    rw [Step.apply, timeOf, ofQueryText?_rfc3339 (style.spells ht)]
    rfl

/-! ## Layouts exist -/

theorem spellable_word {w : String} (h : w ∈ keywords) : (Token.word w).Spellable := by
  have hall : ∀ w ∈ keywords, w.toList.map Char.toLower = w.toList := by decide
  exact ⟨w.toList, h, hall w h⟩

theorem spellable_sign {c : Char} (h : c ∈ signs) : (Token.sign c).Spellable := ⟨[c], h, rfl⟩

theorem spellable_operand {o : Expr} (h : o.IsOperand) : o.operand.token.Spellable := by
  cases h with
  | field hn => exact ⟨_, hn, rfl⟩
  | indexer hk => exact ⟨_, hk, rfl⟩

theorem spellable_listed {α : Type} {f : α → Token} : ∀ {as : List α}, (∀ a ∈ as, (f a).Spellable) →
    ∀ t ∈ listed (fun a => [f a]) as, t.Spellable
  | [], _, t, ht => by cases ht
  | a :: as, h, t, ht => by
    rcases List.mem_cons.1 ht with rfl | ht
    · exact h a List.mem_cons_self
    · obtain ⟨b, hb, ht⟩ := List.mem_flatMap.1 ht
      rcases List.mem_cons.1 ht with rfl | ht
      · exact spellable_sign (by decide)
      · obtain rfl := List.mem_singleton.1 ht
        exact h b (List.mem_cons_of_mem a hb)

theorem spellable_literal (style : TimeStyle) {k : Constant} (h : k.IsLiteral) :
    ∀ t ∈ (k.literal style).tokens, t.Spellable := by
  have hlist : ∀ {items : List Scalar}, (∀ x ∈ items, x.token.Spellable) →
      ∀ t ∈ (Literal.list items).tokens, t.Spellable := by
    intro items hitems
    exact List.forall_mem_cons.2 ⟨spellable_sign (by decide), List.forall_mem_append.2
      ⟨spellable_listed hitems, List.forall_mem_singleton.2 (spellable_sign (by decide))⟩⟩
  cases k with
  | string s => exact List.forall_mem_singleton.2 ⟨_, rfl⟩
  | int32 v => exact List.forall_mem_singleton.2 ⟨_, NumberText.isNumber_ofInt _, rfl⟩
  | int64 v => exact List.forall_mem_singleton.2 ⟨_, NumberText.isNumber_ofInt _, rfl⟩
  | null => exact List.forall_mem_singleton.2 (spellable_word (by decide))
  | timestamp t => exact List.forall_mem_singleton.2 ⟨_, "date".toList, by decide, rfl⟩
  | intList vs => exact hlist (List.forall_mem_map.2 fun v _ => ⟨_, NumberText.isNumber_ofInt _, rfl⟩)
  | stringList ss => exact hlist (List.forall_mem_map.2 fun s _ => ⟨_, rfl⟩)
  | table _ | int16 _ | double _ | bool _ | foreign _ _ => exact absurd h id

theorem spellable_grouped {needed : Bool} {ts : List Token} (h : ∀ t ∈ ts, t.Spellable) :
    ∀ t ∈ grouped needed ts, t.Spellable := by
  cases needed with
  | false => exact h
  | true => exact List.forall_mem_cons.2 ⟨spellable_sign (by decide), List.forall_mem_append.2
      ⟨h, List.forall_mem_singleton.2 (spellable_sign (by decide))⟩⟩

theorem spellable_comparison {op : BinaryOp} (h : op.IsComparison) : (Token.comparison op).Spellable := by
  cases op <;> first | exact ⟨_, _, List.mem_cons_self, rfl⟩ | exact absurd h id

theorem exists_spellsWords : ∀ {ws : List String}, (∀ w ∈ ws, SpellsWord w w.toList) → ∃ cs, SpellsWords ws cs
  | [], _ => ⟨[], rfl⟩
  | [w], h => ⟨w.toList, h w List.mem_cons_self⟩
  | w :: v :: ws, h => by
    obtain ⟨cs, hcs⟩ := exists_spellsWords fun u hu => h u (List.mem_cons_of_mem w hu)
    exact ⟨_, w.toList, [' '], cs, rfl, h w List.mem_cons_self, by simp, by simp [isSpace], hcs⟩

theorem spellable_operator (op : DomainOp) : (Token.operator op).Spellable :=
  exists_spellsWords (by cases op <;> decide)

theorem spellable_conditionTokens (style : TimeStyle) {p : Expr} (hp : p.IsPredicate) :
    ∀ level : Level, ∀ t ∈ p.conditionTokens style level, t.Spellable := by
  induction hp with
  | @compare op o k hop ho hk =>
    intro level
    rw [conditionTokens_compare hop]
    exact List.forall_mem_cons.2 ⟨spellable_operand ho,
      List.forall_mem_cons.2 ⟨spellable_comparison hop, spellable_literal style hk⟩⟩
  | domain _ ho hk =>
    intro level
    exact List.forall_mem_cons.2 ⟨spellable_operand ho,
      List.forall_mem_cons.2 ⟨spellable_operator _, spellable_literal style hk⟩⟩
  | and _ _ ihp ihq =>
    intro level
    exact spellable_grouped (List.forall_mem_append.2 ⟨ihp .term,
      List.forall_mem_cons.2 ⟨spellable_word (by decide), ihq .factor⟩⟩)
  | or _ _ ihp ihq =>
    intro level
    exact spellable_grouped (List.forall_mem_append.2 ⟨ihp .whole,
      List.forall_mem_cons.2 ⟨spellable_word (by decide), ihq .term⟩⟩)
  | not _ ih =>
    intro level
    exact List.forall_mem_cons.2 ⟨spellable_word (by decide), ih .factor⟩

theorem spellable_tokens (style : TimeStyle) {e : Expr} (he : e.IsQuery) : ∀ t ∈ e.tokens style, t.Spellable := by
  have hstep : ∀ {ts us : List Token}, (∀ t ∈ ts, t.Spellable) → (∀ t ∈ us, t.Spellable) →
      ∀ t ∈ ts ++ .sign '|' :: us, t.Spellable := fun hts hus =>
    List.forall_mem_append.2 ⟨hts, List.forall_mem_cons.2 ⟨spellable_sign (by decide), hus⟩⟩
  induction he with
  | table hn => exact List.forall_mem_cons.2 ⟨spellable_word (by decide), List.forall_mem_singleton.2 ⟨_, hn, rfl⟩⟩
  | all _ ih =>
    exact hstep ih (List.forall_mem_cons.2 ⟨spellable_word (by decide),
      List.forall_mem_singleton.2 (spellable_sign (by decide))⟩)
  | fields _ hns _ ih =>
    exact hstep ih (List.forall_mem_cons.2 ⟨spellable_word (by decide),
      spellable_listed fun n hn => ⟨_, hns n hn, rfl⟩⟩)
  | filter hp _ ih =>
    exact hstep ih (List.forall_mem_cons.2 ⟨spellable_word (by decide), spellable_conditionTokens style hp .whole⟩)
  | @order source o d ho _ _ ih =>
    have hdirection : directionWord d ∈ keywords := by cases d <;> decide
    exact hstep ih (List.forall_mem_cons.2 ⟨spellable_word (by decide), List.forall_mem_cons.2
      ⟨spellable_word (by decide), List.forall_mem_cons.2 ⟨spellable_operand ho,
        List.forall_mem_singleton.2 (spellable_word hdirection)⟩⟩⟩)
  | @asOf source t _ _ ih =>
    refine hstep ih (List.forall_mem_cons.2 ⟨spellable_word (by decide), List.forall_mem_singleton.2 ?_⟩)
    cases style.asOfWord with
    | true => exact ⟨_, "date".toList, by decide, rfl⟩
    | false => exact ⟨_, rfl⟩

end Expr

/-- Reading undoes writing: a query can be laid out as text, and every layout of its tokens is read back as
the query. -/
theorem parse_layout (style : TimeStyle) {e : Expr} (he : e.IsQuery) :
    (∃ text : String, Layout (e.tokens style) text.toList) ∧
      ∀ text : String, Layout (e.tokens style) text.toList → parse text = .ok e := by
  constructor
  · obtain ⟨cs, hcs⟩ := exists_layout (Expr.spellable_tokens style he)
    exact ⟨String.ofList cs, by rwa [String.toList_ofList]⟩
  · intro text h
    exact (Expr.saysQuery_tokens style he).parse_eq h

theorem parse_layout_bug :
    parse "FROM Bug -- all\n|Where[Rank]=1" =
      .ok (.filter (Expr.table "Bug") (Expr.itLambda (.binary .equal (.indexer "Rank") (.constant (.int32 1))))) := by
  have hquery : Expr.IsQuery
      (.filter (Expr.table "Bug") (Expr.itLambda (.binary .equal (.indexer "Rank") (.constant (.int32 1))))) :=
    .filter (.compare trivial (.indexer (by decide)) trivial) (.table (by decide))
  have hvalue : Laid [.number (.ofInt 1)] ['1'] [] :=
    .cons (g := []) (w := ['1']) .nil ⟨NumberText.isNumber_ofInt 1, by decide⟩ trivial .nil
  have htest : Laid [.key "Rank", .comparison .equal, .number (.ofInt 1)] "[Rank]=1".toList [] :=
    .cons (g := []) (w := "[Rank]".toList) .nil ⟨by decide, by decide⟩ trivial
      (.cons (g := []) (w := ['=']) .nil ⟨"=", by decide, by decide⟩ trivial hvalue)
  have hstep : Laid (.sign '|' :: .word "where" :: _) " -- all\n|Where[Rank]=1".toList [] :=
    .cons (g := " -- all\n".toList) (w := ['|'])
      (.blank (by decide) (.comment (t := " all".toList) (by decide) .nil)) ⟨by decide, rfl⟩ trivial
      (.cons (g := []) (w := "Where".toList) .nil ⟨by decide, by decide⟩ (by rintro c ⟨⟩; decide) htest)
  have hfrom : Laid (.word "from" :: .name "Bug" :: _) "FROM Bug -- all\n|Where[Rank]=1".toList [] :=
    .cons (g := []) (w := "FROM".toList) .nil ⟨by decide, by decide⟩ (by rintro c ⟨⟩; decide)
      (.cons (g := [' ']) (w := "Bug".toList) (.blank (by decide) .nil) ⟨by decide, rfl⟩
        (by rintro c ⟨⟩; decide) hstep)
  exact (parse_layout .exact hquery).2 _ ⟨[], hfrom, .gap .nil⟩

end WorkItemQuery
