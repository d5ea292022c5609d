/-
Texts only say what statements can hold: of all that the query of a text is made of, nothing lacks a form
save doubles that are too great for their type. So the compilation of a text fails for want of a field, of
fields to select, or because of such a double, and a statement it gives is about the entity after `from`.
-/
import WorkItemQuery.Proofs.Compilation.FromText
import WorkItemQuery.Proofs.Compilation.Refusal
import WorkItemQuery.Proofs.Number.Double
import WorkItemQuery.Proofs.Pipeline.Accepted

namespace WorkItemQuery

open Compilation Pipeline Number

/-! ## What a text can say -/

/-- The double is too great for its type. -/
def Expr.IsInfinite (e : Expr) : Prop := ∃ negative, e = .constant (.double (.infinity negative))

/-- Whatever an expression holds has a form in statements, save infinite doubles. -/
def Expr.IsSupported (p : Position) (e : Expr) : Prop :=
  ∀ q part, e.Holds p q part → part.HasNoForm q → q = .elsewhere ∧ part.IsInfinite

theorem isSupported_of_parts {p : Position} {e : Expr} (hform : ¬e.HasNoForm p)
    (hparts : ∀ q f, (q, f) ∈ e.parts → f.IsSupported q) : e.IsSupported p := by
  intro q part hholds hnone
  cases hholds with
  | here => exact absurd hnone hform
  | inside hf _ hholds => exact hparts _ _ hf q part hholds hnone

theorem isSupported_pair {e left right : Expr} (hform : ¬e.HasNoForm .elsewhere)
    (hparts : e.parts = [(.elsewhere, left), (.elsewhere, right)]) (hleft : left.IsSupported .elsewhere)
    (hright : right.IsSupported .elsewhere) : e.IsSupported .elsewhere := by
  refine isSupported_of_parts hform fun q f hf => ?_
  rw [hparts] at hf
  rcases List.mem_cons.1 hf with heq | hf
  · cases heq; exact hleft
  · cases List.mem_singleton.1 hf; exact hright

theorem isSupported_single {e part : Expr} (hform : ¬e.HasNoForm .elsewhere)
    (hparts : e.parts = [(.elsewhere, part)]) (h : part.IsSupported .elsewhere) : e.IsSupported .elsewhere := by
  refine isSupported_of_parts hform fun q f hf => ?_
  rw [hparts] at hf
  cases List.mem_singleton.1 hf; exact h

namespace Pipeline

/-- Of the values of literals only infinite doubles have no form. -/
theorem isInfinite_constant {v : Literal} {k : Constant} (h : v.constant = .ok k) (hnone : k.HasNoForm) :
    (Expr.constant k).IsInfinite := by
  cases v with
  | list items =>
    obtain ⟨⟨numbers, strings⟩, -, h⟩ := bind_eq_ok h
    rcases numbers with _ | ⟨n, ns⟩ <;> rcases strings with _ | ⟨s, ss⟩ <;> cases h <;> cases hnone
  | timestamp text =>
    obtain ⟨t, -, h⟩ := bind_eq_ok h
    cases h; cases hnone
  | string text => cases h; cases hnone
  | number n =>
    have h : n.constant = .ok k := h
    unfold NumberText.constant at h
    split at h
    · split at h <;> cases h <;> cases hnone
    · cases h
      rcases Double.ofDecimal_finite_or (Decimal.ofParts n.negative n.whole n.fraction 0) with hfinite | hinfinite
      · have hnone : Double.isFinite _ = false := hnone
        rw [hfinite] at hnone
        cases hnone
      · rw [hinfinite]
        exact ⟨_, rfl⟩
  | null => cases h; cases hnone

theorem isSupported_constant {v : Literal} {k : Constant} (h : v.constant = .ok k) :
    (Expr.constant k).IsSupported .elsewhere := by
  intro q part hholds hnone
  cases hholds with
  | here => exact ⟨rfl, isInfinite_constant h hnone⟩
  | inside hf _ _ => cases hf

theorem isSupported_operand (o : Operand) : o.toExpr.IsSupported .elsewhere := by
  cases o with
  | key k => exact isSupported_of_parts id fun q f hf => by cases hf
  | name n =>
    have hitem : (Expr.parameter Expr.itName).IsSupported .target :=
      isSupported_of_parts id fun q f hf => by cases hf
    refine isSupported_of_parts (fun h => absurd h.1 (by decide)) fun q f hf => ?_
    cases List.mem_singleton.1 hf
    exact hitem

theorem isSupported_condition : ∀ {c : Condition} {p : Expr}, c.HasComparisons → c.toExpr = .ok p →
    p.IsSupported .elsewhere := by
  intro c
  induction c with
  | test o r v =>
    intro p hcmp hp
    obtain ⟨k, hk, hp⟩ := bind_eq_ok hp
    cases hp
    cases r with
    | compare op =>
      refine isSupported_pair ?_ rfl (isSupported_operand o) (isSupported_constant hk)
      cases op <;> first | exact absurd hcmp id | simp [Expr.HasNoForm, Relation.toExpr]
    | domain op => exact isSupported_pair id rfl (isSupported_operand o) (isSupported_constant hk)
  | not c ih =>
    intro p hcmp hp
    obtain ⟨q, hq, hp⟩ := bind_eq_ok hp
    cases hp
    exact isSupported_single id rfl (ih hcmp hq)
  | and c d ihc ihd | or c d ihc ihd =>
    intro p hcmp hp
    obtain ⟨q, hq, hp⟩ := bind_eq_ok hp
    obtain ⟨q', hq', hp⟩ := bind_eq_ok hp
    cases hp
    exact isSupported_pair (by simp [Expr.HasNoForm]) rfl (ihc hcmp.1 hq) (ihd hcmp.2 hq')

theorem Step.Gives.isSupported {s : Step} {step : QueryStep} (h : s.Gives step) (hcmp : s.HasComparisons)
    {source : Expr} (hsource : source.IsSupported .elsewhere) : (step.apply source).IsSupported .elsewhere := by
  cases h with
  | select | asOf _ => exact isSupported_single id rfl hsource
  | filter hp =>
    exact isSupported_pair id rfl hsource (isSupported_single id rfl (isSupported_condition hcmp hp))
  | @order keys k _ =>
    have hdirection : k.direction ≠ .unspecified := by
      unfold SortKey.direction
      split <;> decide
    exact isSupported_pair hdirection rfl hsource (isSupported_single id rfl (isSupported_operand k.operand))

/-- The query of a text holds nothing without a form, save infinite doubles. -/
theorem isSupported_queryOf {steps : List QueryStep} {p : Pipeline} (hcmp : ∀ s ∈ p.steps, s.HasComparisons)
    (h : ∀ step ∈ steps, ∃ s ∈ p.steps, s.Gives step) (entity : String) :
    (queryOf entity steps).IsSupported .elsewhere := by
  suffices hfold : ∀ source : Expr, source.IsSupported .elsewhere →
      (steps.foldl QueryStep.apply source).IsSupported .elsewhere by
    exact hfold _ (isSupported_of_parts id fun q f hf => by cases hf)
  induction steps with
  | nil => exact fun _ hsource => hsource
  | cons step steps ih =>
    intro source hsource
    obtain ⟨⟨s, hs, hgives⟩, hmore⟩ := List.forall_mem_cons.1 h
    exact ih hmore _ (hgives.isSupported (hcmp s hs) hsource)

end Pipeline

/-! ## Compiling a text -/

theorem entity_translation {σ : Type} {mapper : FieldMapper σ} {mode : ProjectionMode} {entity : String}
    {steps : List QueryStep} {fields after : σ} {q : Statement}
    (h : translation mapper mode entity steps fields = (.ok q, after)) : q.entity = some entity := by
  obtain ⟨clauses, mid, -, h⟩ := Asking.bind_eq_ok h
  obtain ⟨select, last, -, h⟩ := Asking.bind_eq_ok h
  cases hempty : select.isEmpty with
  | true => simp only [hempty, if_true] at h; cases h
  | false => simp only [hempty, Bool.false_eq_true, if_false] at h; cases h; rfl

/-- The compilation of a text gives a statement about the entity after `from`, or fails for want of a field or of
fields to select, or because of an infinite double in the query. -/
theorem compile_of_parse {text : String} {e : Expr} (h : parse text = .ok e) {σ : Type} (mapper : FieldMapper σ)
    (mode : ProjectionMode) (fields : σ) :
    match (compile mapper mode e fields).result with
    | .ok q => ∃ entity rest, q.entity = some entity ∧ Laid [.word "from", .name entity] text.toList rest
    | .error (.unknownField _) | .error (.emptySelect _) => True
    | .error (.unsupported _) => ∃ number, number.IsInfinite ∧ e.Holds .elsewhere .elsewhere number
    | .error .malformedOrder | .error .missingSource => False := by
  obtain ⟨p, hp, he⟩ := parse_ok_iff.1 h
  obtain ⟨steps, rfl, hsteps⟩ := toExpr_eq_queryOf he
  have hsupported := isSupported_queryOf (hasComparisons_of_ofText hp) hsteps p.entity
  rcases hresult : (compile mapper mode (queryOf p.entity steps) fields).result with err | q
  · rcases blames_compile hresult with ⟨entity, rfl⟩ | hblames
    · trivial
    · cases err with
      | unknownField _ | emptySelect _ => trivial
      | unsupported what =>
        obtain ⟨position, part, hholds, hnone⟩ := hblames
        obtain ⟨rfl, hinfinite⟩ := hsupported position part hholds hnone
        exact ⟨part, hinfinite, hholds⟩
      | malformedOrder =>
        obtain ⟨position, source, selector, hholds⟩ := hblames
        obtain ⟨-, negative, heq⟩ := hsupported position _ hholds rfl
        cases heq
      | missingSource =>
        have hnone : (queryOf p.entity steps).elementType = none := hblames
        rw [elementType_queryOf] at hnone
        cases hnone
  · -- the statement is put together from the steps, and the entity is read off the text
    have hplain : ∀ step ∈ steps, step.IsPlain := by
      intro step hstep
      obtain ⟨s, -, hgives⟩ := hsteps step hstep
      exact hgives.isPlain
    rcases htranslation : translation mapper mode p.entity steps fields with ⟨result, after⟩
    obtain ⟨s, hs, -⟩ := compilation_queryOf mapper mode p.entity hplain fields htranslation
    rw [(compile_eq hs).1] at hresult
    subst hresult
    obtain ⟨ts, -, last, hlaid, -⟩ := ofText_ok_iff.1 hp
    obtain ⟨rest, hfrom, -⟩ : ∃ rest, Laid [.word "from", .name p.entity] text.toList rest ∧ Laid ts rest last :=
      hlaid.of_append
    exact ⟨p.entity, rest, entity_translation htranslation, hfrom⟩

theorem parse_effort {n : NumberText} {k : Constant} (hn : IsNumber n) (hk : (Literal.number n).constant = .ok k) :
    parse ("from Bug|where[Effort]>" ++ n.text) = .ok (.filter (Expr.table "Bug")
      (Expr.itLambda (.binary .greaterThan (.indexer "Effort") (.constant k)))) := by
  have hvalue : Laid [.number n] (n.chars ++ []) [] := Token.Spelled.laid (t := .number n) ⟨hn, rfl⟩ trivial
  rw [List.append_nil] at hvalue
  have htest : Laid [.key "Effort", .comparison .greaterThan, .number n] ("[Effort]>".toList ++ n.chars) [] :=
    .cons (g := []) (w := "[Effort]".toList) .nil ⟨by decide, by decide⟩ trivial
      (.cons (g := []) (w := ['>']) .nil ⟨">", by decide, by decide⟩ trivial hvalue)
  have hwhere : Laid (.sign '|' :: .word "where" :: _) ("|where".toList ++ ("[Effort]>".toList ++ n.chars)) [] :=
    .cons (g := []) (w := ['|']) .nil ⟨by decide, rfl⟩ trivial
      (.cons (g := []) (w := "where".toList) .nil ⟨by decide, by decide⟩ (by rintro c ⟨⟩; decide) htest)
  have hfrom : Laid (.word "from" :: .name "Bug" :: _)
      ("from Bug".toList ++ ("|where".toList ++ ("[Effort]>".toList ++ n.chars))) [] :=
    .cons (g := []) (w := "from".toList) .nil ⟨by decide, by decide⟩ (by rintro c ⟨⟩; decide)
      (.cons (g := [' ']) (w := "Bug".toList) (.blank (by decide) .nil) ⟨by decide, rfl⟩ (by rintro c ⟨⟩; decide)
        hwhere)
  have hwritten : Written .whole (.test (.key "Effort") (.compare .greaterThan) (.number n))
      [.key "Effort", .comparison .greaterThan, .number n] := .term (.factor (.test fun h => absurd h id))
  have hsays := (SaysQuery.table "Bug").step (.filter hwritten) (by rw [Step.apply, Condition.toExpr, hk]; rfl)
  exact hsays.parse_eq ⟨[], by simpa [NumberText.text] using hfrom, .gap .nil⟩

/-- A number with 310 digits before its point is read as infinity, and refused. -/
theorem compile_of_parse_infinite :
    let mapper : FieldMapper Unit := ⟨fun _ property s => (.ok property, s), fun _ _ => ["Id"], fun _ _ => []⟩
    let n : NumberText := ⟨false, List.replicate 310 '9', ['5']⟩
    let e := Expr.filter (Expr.table "Bug") (Expr.itLambda
      (.binary .greaterThan (.indexer "Effort") (.constant (.double (.infinity false)))))
    parse ("from Bug|where[Effort]>" ++ n.text) = .ok e ∧
      (compile mapper .explicit e ()).result = .error (.unsupported (.constant (.double (.infinity false)))) ∧
      ∃ number, number.IsInfinite ∧ e.Holds .elsewhere .elsewhere number := by
  intro mapper n e
  have hn : IsNumber n :=
    ⟨List.cons_ne_nil '9' _, fun c hc => by rw [List.eq_of_mem_replicate hc]; decide, by decide⟩
  have hinfinite : Double.ofDecimal (Decimal.ofParts false (List.replicate 310 '9') ['5'] 0) = .infinity false := by
    decide +kernel
  have hparse : parse ("from Bug|where[Effort]>" ++ n.text) = .ok e := parse_effort hn (by rw [← hinfinite]; rfl)
  have hresult : (compile mapper .explicit e ()).result =
      .error (.unsupported (.constant (.double (.infinity false)))) := rfl
  have hcompile := compile_of_parse hparse mapper .explicit ()
  rw [hresult] at hcompile
  exact ⟨hparse, hresult, hcompile⟩

end WorkItemQuery
