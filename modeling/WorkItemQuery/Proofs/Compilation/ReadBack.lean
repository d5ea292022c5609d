/-
A statement's filters say what the text of the query said. Joined with `AND` and put behind `where`, they
are read by the grammar of pipelines as one condition: the predicates of the query's filters in their
order and the limit to work item types, each with its fields and constants restated.
-/
import Mathlib.Data.List.Forall2
import WorkItemQuery.Fields.Builtin
import WorkItemQuery.Proofs.Compilation.FromText
import WorkItemQuery.Proofs.Compilation.Rendering

namespace WorkItemQuery

open Compilation Pipeline

/-! ## Fragments of conditions -/

section Conditions

variable {r after : Registry} {entity : String} {parts : List Fragment}

theorem groupOf_eq_ok {σ : Type} {left right : Asking σ (List Fragment)} {text : Asking σ String} {s s' : σ}
    (h : groupOf left text right s = (.ok parts, s')) :
    ∃ l s₁ t s₂ m, left s = (.ok l, s₁) ∧ text s₁ = (.ok t, s₂) ∧ right s₂ = (.ok m, s') ∧
      parts = .groupOpen :: (l ++ .literal t :: (m ++ [.groupClose])) := by
  obtain ⟨l, s₁, hl, h⟩ := Asking.bind_eq_ok h
  obtain ⟨t, s₂, ht, h⟩ := Asking.bind_eq_ok h
  obtain ⟨m, s₃, hm, h⟩ := Asking.bind_eq_ok h
  cases h
  exact ⟨l, s₁, t, s₂, m, hl, ht, hm, rfl⟩

theorem ask_registry {property field : String} (h : ask .registry entity property r = (.ok field, after)) :
    r.resolve entity property = .ok field ∧ after = r := by
  unfold ask at h
  have hresolve : FieldMapper.registry.resolve entity property r = (r.resolve entity property, r) := rfl
  rw [hresolve] at h
  rcases hf : r.resolve entity property with err | field'
  · rw [hf] at h; cases h
  · rw [hf] at h; cases h; exact ⟨rfl, rfl⟩

theorem fragments_operand {o : Operand} (h : fragments .registry entity o.toExpr r = (.ok parts, after)) :
    ∃ property field, r.resolve entity property = .ok field ∧ parts = [.field field] ∧ after = r ∧
      o.toExpr.restated r entity = Expr.field field := by
  have hfield : ∀ {property : String},
      (do return [.field (← ask .registry entity property)] : Asking Registry (List Fragment)) r =
        (.ok parts, after) →
      ∃ field, r.resolve entity property = .ok field ∧ parts = [.field field] ∧ after = r := by
    intro property hparts
    obtain ⟨field, mid, hask, hend⟩ := Asking.bind_eq_ok hparts
    obtain ⟨hf, rfl⟩ := ask_registry hask
    cases hend
    exact ⟨field, hf, rfl, rfl⟩
  cases o with
  | name n =>
    obtain ⟨field, hf, hparts, hafter⟩ := hfield h
    refine ⟨n, field, hf, hparts, hafter, ?_⟩
    show Expr.field (r.fieldOf entity n) = _
    rw [Registry.fieldOf, hf]
  | key k =>
    obtain ⟨field, hf, hparts, hafter⟩ := hfield h
    refine ⟨k, field, hf, hparts, hafter, ?_⟩
    show Expr.field (r.fieldOf entity k) = _
    rw [Registry.fieldOf, hf]

theorem fragments_constant {σ : Type} {mapper : FieldMapper σ} {s s' : σ} {k : Constant}
    (h : fragments mapper entity (.constant k) s = (.ok parts, s')) :
    ∃ f, constantFragment? k = some f ∧ parts = [f] ∧ s' = s := by
  rw [fragments] at h
  rcases hf : constantFragment? k with _ | f
  · rw [hf] at h; cases h
  · rw [hf] at h; cases h; exact ⟨f, rfl, rfl, rfl⟩

theorem fragments_relation {σ : Type} {mapper : FieldMapper σ} {s s' : σ} {rel : Relation} {p q : Expr}
    (h : fragments mapper entity (rel.toExpr p q) s = (.ok parts, s')) :
    ∃ l s₁ text m, fragments mapper entity p s = (.ok l, s₁) ∧ rel.text? = some text ∧
      fragments mapper entity q s₁ = (.ok m, s') ∧
      parts = .groupOpen :: (l ++ .literal text :: (m ++ [.groupClose])) := by
  cases rel with
  | compare op =>
    obtain ⟨l, s₁, t, s₂, m, hl, ht, hm, hparts⟩ := groupOf_eq_ok h
    unfold operatorText at ht
    rcases hop : binaryText? op with _ | text
    · rw [hop] at ht; cases ht
    · rw [hop] at ht; cases ht; exact ⟨l, s₁, t, m, hl, hop, hm, hparts⟩
  | domain op =>
    obtain ⟨l, s₁, t, s₂, m, hl, ht, hm, hparts⟩ := groupOf_eq_ok h
    cases ht
    exact ⟨l, s₁, _, m, hl, rfl, hm, hparts⟩

theorem restated_relation (rel : Relation) (p q : Expr) :
    (rel.toExpr p q).restated r entity = rel.toExpr (p.restated r entity) (q.restated r entity) := by
  cases rel <;> rfl

/-- The fragments of a condition read as its predicate, restated. -/
theorem readsAs_condition (hr : r.HasReadableFields) : ∀ {c : Condition} {p : Expr} {parts : List Fragment}
    {after : Registry}, c.HasComparisons → c.IsWhole → c.toExpr = .ok p →
    fragments .registry entity p r = (.ok parts, after) →
      after = r ∧ parts ≠ [] ∧ ReadsAs (Fragment.renderAll parts) (p.restated r entity) := by
  intro c
  induction c with
  | test o rel v =>
    intro p parts after hcmp hwhole hp h
    obtain ⟨k, hk, hp⟩ := bind_eq_ok hp
    cases hp
    obtain ⟨l, s₁, text, m, hl, htext, hm, rfl⟩ := fragments_relation h
    obtain ⟨property, field, hf, rfl, rfl, hrestated⟩ := fragments_operand hl
    obtain ⟨f, hfragment, rfl, rfl⟩ := fragments_constant hm
    obtain ⟨hname, hnot⟩ := Registry.readable hr hf
    refine ⟨rfl, List.cons_ne_nil _ _, ?_⟩
    rw [restated_relation, hrestated]
    exact readsAs_test hname hnot htext (by rintro op rfl; exact hcmp) (isLiteral_of_constant hk hwhole) hfragment
  | not c ih =>
    intro p parts after hcmp hwhole hp h
    obtain ⟨q, hq, hp⟩ := bind_eq_ok hp
    cases hp
    obtain ⟨more, mid, hmore, h⟩ := Asking.bind_eq_ok h
    cases h
    obtain ⟨rfl, -, hreads⟩ := ih hcmp hwhole hq hmore
    exact ⟨rfl, List.cons_ne_nil _ _, readsAs_not hreads⟩
  | and c d ihc ihd =>
    intro p parts after hcmp hwhole hp h
    obtain ⟨q, hq, hp⟩ := bind_eq_ok hp
    obtain ⟨q', hq', hp⟩ := bind_eq_ok hp
    cases hp
    obtain ⟨l, s₁, t, s₂, m, hl, ht, hm, rfl⟩ := groupOf_eq_ok h
    cases ht
    obtain ⟨rfl, -, hreads⟩ := ihc hcmp.1 hwhole.1 hq hl
    obtain ⟨rfl, -, hreads'⟩ := ihd hcmp.2 hwhole.2 hq' hm
    exact ⟨rfl, List.cons_ne_nil _ _, readsAs_and hreads hreads'⟩
  | or c d ihc ihd =>
    intro p parts after hcmp hwhole hp h
    obtain ⟨q, hq, hp⟩ := bind_eq_ok hp
    obtain ⟨q', hq', hp⟩ := bind_eq_ok hp
    cases hp
    obtain ⟨l, s₁, t, s₂, m, hl, ht, hm, rfl⟩ := groupOf_eq_ok h
    cases ht
    obtain ⟨rfl, -, hreads⟩ := ihc hcmp.1 hwhole.1 hq hl
    obtain ⟨rfl, -, hreads'⟩ := ihd hcmp.2 hwhole.2 hq' hm
    exact ⟨rfl, List.cons_ne_nil _ _, readsAs_or hreads hreads'⟩

end Conditions

/-! ## Queries of a text -/

namespace Expr

/-- The body of a function; any other expression is its own body. -/
def body : Expr → Expr
  | .lambda _ e => e
  | e => e

/-- The predicates of a query's filters, in the order in which they apply. -/
def predicates : Expr → List Expr
  | .filter source predicate => source.predicates ++ [predicate.body]
  | .select source _ | .order source _ _ | .asOf source _ => source.predicates
  | _ => []

end Expr

namespace Compilation.QueryStep

/-- The steps that a text can give: filters with a condition of whole numbers, and sort keys that are fields. -/
def FromText : QueryStep → Prop
  | filter predicate => ∃ (c : Condition) (p : Expr), c.HasComparisons ∧ c.IsWhole ∧ c.toExpr = .ok p ∧
      predicate = Expr.itLambda p
  | order selector _ => ∃ o : Operand, selector = Expr.itLambda o.toExpr
  | select _ | asOf _ => True

/-- The predicate of a filter, without its item. -/
def predicates : QueryStep → List Expr
  | filter predicate => [predicate.body]
  | _ => []

end Compilation.QueryStep

theorem isPlain_fromText {step : QueryStep} (h : step.FromText) : step.IsPlain := by
  cases step with
  | filter predicate =>
    obtain ⟨c, p, -, -, hp, rfl⟩ := h
    have hplain : isPlain p = true := isPlain_condition hp
    exact hplain
  | order selector direction =>
    obtain ⟨o, rfl⟩ := h
    cases o <;> rfl
  | select _ | asOf _ => trivial

namespace Pipeline

/-- Whether all numbers of a pipeline are written without a point. -/
def IsWhole (p : Pipeline) : Prop := ∀ c, Step.filter c ∈ p.steps → c.IsWhole

theorem queryOf_toExpr {p : Pipeline} {e : Expr} (hcmp : ∀ s ∈ p.steps, s.HasComparisons) (hwhole : p.IsWhole)
    (h : p.toExpr = .ok e) : ∃ steps, e = queryOf p.entity steps ∧ ∀ step ∈ steps, step.FromText := by
  obtain ⟨steps, rfl, hsteps⟩ := toExpr_eq_queryOf h
  refine ⟨steps, rfl, fun step hstep => ?_⟩
  obtain ⟨s, hs, hgives⟩ := hsteps step hstep
  cases hgives with
  | @filter c e he => exact ⟨c, e, hcmp _ hs, hwhole c hs, he, rfl⟩
  | @order keys k _ => exact ⟨k.operand, rfl⟩
  | select | asOf _ => trivial

end Pipeline

theorem predicates_queryOf (entity : String) (steps : List QueryStep) :
    (queryOf entity steps).predicates = steps.flatMap QueryStep.predicates := by
  suffices h : ∀ source : Expr,
      (steps.foldl QueryStep.apply source).predicates = source.predicates ++ steps.flatMap QueryStep.predicates by
    exact h (Expr.table entity)
  induction steps with
  | nil => exact fun source => (List.append_nil _).symm
  | cons step steps ih =>
    intro source
    rw [List.foldl_cons, ih]
    cases step <;> simp [QueryStep.apply, QueryStep.predicates, Expr.predicates]

/-! ## Clauses of a statement -/

/-- Clauses read as predicates, one by one. -/
def ClausesReadAs : List Fragment → List Expr → Prop := List.Forall₂ fun clause p => ReadsAs clause.render p

section Clauses

variable {r : Registry} {entity : String}

/-- One step: its clauses read as its predicate, restated. -/
theorem readsAs_step (hr : r.HasReadableFields) {step : QueryStep} (hstep : step.FromText) {c : Clauses}
    {after : Registry} (h : step.clauses .registry entity r = (.ok c, after)) :
    after = r ∧ ClausesReadAs c.filters (step.predicates.map (Expr.restated r entity)) := by
  cases step with
  | filter predicate =>
    obtain ⟨cond, p, hcmp, hwhole, hp, rfl⟩ := hstep
    obtain ⟨parts, mid, hparts, h⟩ := Asking.bind_eq_ok h
    cases h
    have hbody : fragments .registry entity p r = (.ok parts, after) := hparts
    obtain ⟨rfl, hne, hreads⟩ := readsAs_condition hr hcmp hwhole hp hbody
    obtain ⟨f, parts, rfl⟩ := List.exists_cons_of_ne_nil hne
    exact ⟨rfl, .cons hreads .nil⟩
  | order selector direction =>
    obtain ⟨o, rfl⟩ := hstep
    obtain ⟨parts, mid, hparts, hend⟩ := Asking.bind_eq_ok h
    have hkey : fragments .registry entity o.toExpr r = (.ok parts, mid) := hparts
    obtain ⟨-, -, -, -, rfl, -⟩ := fragments_operand hkey
    cases hd : directionText? direction with
    | none => rw [hd] at hend; cases hend
    | some text => rw [hd] at hend; cases hend; exact ⟨rfl, .nil⟩
  | select projection => cases h; exact ⟨rfl, .nil⟩
  | asOf time => cases h; exact ⟨rfl, .nil⟩

/-- All steps: their clauses read as their predicates, restated. -/
theorem readsAs_steps (hr : r.HasReadableFields) : ∀ {steps : List QueryStep} {cs : List Clauses} {after : Registry},
    (∀ step ∈ steps, step.FromText) → steps.mapM (QueryStep.clauses .registry entity) r = (.ok cs, after) →
      after = r ∧ ClausesReadAs (cs.flatMap Clauses.filters)
        ((steps.flatMap QueryStep.predicates).map (Expr.restated r entity)) := by
  intro steps
  induction steps with
  | nil =>
    intro cs after _ h
    rw [List.mapM_nil] at h
    cases h
    exact ⟨rfl, .nil⟩
  | cons step steps ih =>
    intro all after hsteps h
    rw [List.mapM_cons] at h
    obtain ⟨c, mid, hc, h⟩ := Asking.bind_eq_ok h
    obtain ⟨cs, last, hcs, h⟩ := Asking.bind_eq_ok h
    cases h
    obtain ⟨rfl, hfirst⟩ := readsAs_step hr (hsteps step List.mem_cons_self) hc
    obtain ⟨rfl, hrest⟩ := ih (fun s hs => hsteps s (List.mem_cons_of_mem _ hs)) hcs
    rw [List.flatMap_cons, List.flatMap_cons, List.map_append]
    exact ⟨rfl, List.rel_append hfirst hrest⟩

end Clauses

/-- The predicate that limits a query to some work item types, if there are any. -/
def typePredicates : List String → List Expr
  | [] => []
  | [name] => [.binary .equal (Expr.field typeField) (.constant (.string name))]
  | names => [.domain .isIn (Expr.field typeField) (.constant (.stringList names))]

theorem readsAs_typeClause (names : List String) :
    ClausesReadAs (typeClause? names).toList (typePredicates names) := by
  have hfield : IsName typeField := by decide
  have hnot : ¬SpellsWord "not" typeField.toList := by decide
  match names with
  | [] => exact .nil
  | [name] =>
    have htest := readsAs_test (r := .compare .equal) (k := .string name) hfield hnot rfl
      (by rintro op ⟨⟩; trivial) trivial rfl
    exact .cons htest .nil
  | name :: name' :: names =>
    have htest := readsAs_test (r := .domain .isIn) (k := .stringList (name :: name' :: names)) hfield hnot rfl
      (by rintro op ⟨⟩) (List.cons_ne_nil _ _) rfl
    exact .cons htest .nil

/-! ## The whole filter -/

/-- The conjunction of predicates, from the left. -/
def conjunction : List Expr → Option Expr
  | [] => none
  | p :: ps => some (ps.foldl (.binary .andAlso) p)

/-- Texts with `AND` between them read as the conjunction from the left. -/
theorem says_joined {clauses : List Fragment} {ps : List Expr} (h : ClausesReadAs clauses ps) :
    ∀ {text : String} {p : Expr} {ts : List Token}, Says .term p ts → Lays ts text.toList →
      ∃ us, Says .term (ps.foldl (.binary .andAlso) p) us ∧
        Lays us (String.intercalate " AND " (text :: clauses.map Fragment.render)).toList := by
  induction h with
  | nil =>
    intro text p ts hsaid hlays
    exact ⟨ts, hsaid, by simpa [String.intercalate_singleton] using hlays⟩
  | cons hclause _ ih =>
    intro text p ts hsaid hlays
    obtain ⟨us, hsaid', hlays'⟩ := hclause
    -- the clauses so far are a term, and the next clause is a factor behind one more `AND`
    have hword : (Token.word "and").Spelled "AND".toList := ⟨by decide, by decide⟩
    have hjoined := hlays.append (Lays.cons hword hlays').blank
    rename_i clause q clauses ps _
    have htext : Lays (ts ++ .word "and" :: us) (text ++ " AND " ++ clause.render).toList := by
      simpa using hjoined
    obtain ⟨vs, hvs, hlays⟩ := ih (hsaid.and hsaid') htext
    refine ⟨vs, hvs, ?_⟩
    rw [List.map_cons, String.intercalate_cons_cons, ← String.intercalate_cons_append]
    exact hlays

theorem parse_where {name text : String} {p : Expr} {ts : List Token} (hname : IsName name)
    (hsaid : Says .whole p ts) (hlays : Lays ts text.toList) :
    parse ("from " ++ name ++ " | where " ++ text) = .ok (.filter (Expr.table name) (Expr.itLambda p)) := by
  obtain ⟨c, hwritten, hc⟩ := hsaid
  have happly : (Step.filter c).apply (Expr.table name) = .ok (.filter (Expr.table name) (Expr.itLambda p)) := by
    rw [Step.apply, hc]; rfl
  refine ((SaysQuery.table name).step (.filter hwritten) happly).parse_eq ?_
  have hfrom : (Token.word "from").Spelled "from".toList := ⟨by decide, by decide⟩
  have hwhere : (Token.word "where").Spelled "where".toList := ⟨by decide, by decide⟩
  have hbar : (Token.sign '|').Spelled ['|'] := ⟨by decide, rfl⟩
  have hentity : (Token.name name).Spelled name.toList := ⟨hname, rfl⟩
  have hall := (Lays.cons hfrom (Lays.cons hentity (Lays.cons hbar (Lays.cons hwhere hlays)))) [] [] .nil
  exact ⟨[], by simpa using hall, .gap .nil⟩

/-- Clauses with `AND` between them, behind `where`, are read as one filter. -/
theorem parse_joined {clauses : List Fragment} {ps : List Expr} (h : ClausesReadAs clauses ps) (hne : clauses ≠ [])
    {name : String} (hname : IsName name) :
    ∃ body, conjunction ps = some body ∧
      parse ("from " ++ name ++ " | where " ++ String.intercalate " AND " (clauses.map Fragment.render)) =
        .ok (.filter (Expr.table name) (Expr.itLambda body)) := by
  cases h with
  | nil => exact absurd rfl hne
  | cons hfirst hrest =>
    obtain ⟨ts, hsaid, hlays⟩ := hfirst
    obtain ⟨us, hsaid', hlays'⟩ := says_joined hrest hsaid.term hlays
    exact ⟨_, rfl, parse_where hname hsaid'.whole hlays'⟩

/-- Looking up fields does not change a registry. -/
theorem mapM_ask_registry {r after : Registry} {entity : String} : ∀ {names fields : List String},
    names.mapM (ask .registry entity) r = (.ok fields, after) → after = r
  | [], fields, h => by rw [List.mapM_nil] at h; cases h; rfl
  | name :: names, fields, h => by
    rw [List.mapM_cons] at h
    obtain ⟨field, mid, hask, h⟩ := Asking.bind_eq_ok h
    obtain ⟨rest, last, hrest, h⟩ := Asking.bind_eq_ok h
    cases h
    obtain ⟨-, rfl⟩ := ask_registry hask
    exact mapM_ask_registry hrest

theorem selectList_registry {r after : Registry} {entity : String} {mode : ProjectionMode}
    {names fields : List String} (h : selectList .registry entity mode names r = (.ok fields, after)) :
    after = r := by
  unfold selectList at h
  split at h
  · exact mapM_ask_registry h
  · cases h; rfl

/-- The parts of a statement that are put together from clauses. -/
theorem statementOf_eq_ok {σ : Type} {mapper : FieldMapper σ} {mode : ProjectionMode} {entity : String}
    {steps : List QueryStep} {cs : List Clauses} {q : Statement} {s s' : σ}
    (h : statementOf mapper mode entity steps cs s = (.ok q, s')) :
    (∃ select, selectList mapper entity mode (requested (steps.filterMap QueryStep.projection?)) s =
      (.ok select, s')) ∧ q.entity = some entity ∧
      q.filters = cs.flatMap Clauses.filters ++ (typeClause? (mapper.typeRestriction s' entity)).toList ∧
      q.orders = cs.flatMap Clauses.orders := by
  obtain ⟨select, mid, hselect, hend⟩ := Asking.bind_eq_ok h
  cases hempty : select.isEmpty with
  | true => simp only [hempty, if_true] at hend; cases hend
  | false =>
    simp only [hempty, Bool.false_eq_true, if_false] at hend
    cases hend
    exact ⟨⟨select, hselect⟩, rfl, rfl, rfl⟩

theorem filters_statementOf {r after : Registry} {mode : ProjectionMode} {entity : String} {steps : List QueryStep}
    {cs : List Clauses} {q : Statement} (h : statementOf .registry mode entity steps cs r = (.ok q, after)) :
    q.filters = cs.flatMap Clauses.filters ++ (typeClause? (r.typeRestriction entity)).toList := by
  obtain ⟨⟨select, hselect⟩, -, hfilters, -⟩ := statementOf_eq_ok h
  obtain rfl := selectList_registry hselect
  exact hfilters

theorem hasReadableFields_builtin : Registry.builtin.HasReadableFields := by decide +kernel

/-- The filters of a compiled text, joined and read again, are the predicates of the text and the limit to work
item types, restated. -/
theorem parse_filterTexts {r : Registry} (hr : r.HasReadableFields) {text : String} {e : Expr}
    (hwhole : ∀ p, Pipeline.ofText text.toList = .ok p → p.IsWhole) (he : parse text = .ok e)
    {mode : ProjectionMode} {q : Statement} (hq : (compile .registry mode e r).result = .ok q)
    (hfilters : q.filters ≠ []) {name : String} (hname : IsName name) :
    ∃ entity body, e.elementType = some entity ∧
      conjunction (e.predicates.map (Expr.restated r entity) ++ typePredicates (r.typeRestriction entity)) =
        some body ∧
      parse ("from " ++ name ++ " | where " ++ String.intercalate " AND " q.filterTexts) =
        .ok (.filter (Expr.table name) (Expr.itLambda body)) := by
  obtain ⟨p, hp, hexpr⟩ := parse_ok_iff.1 he
  obtain ⟨steps, rfl, hsteps⟩ := queryOf_toExpr (hasComparisons_of_ofText hp) (hwhole p hp) hexpr
  -- the statement is put together from the steps
  rcases htranslation : translation .registry mode p.entity steps r with ⟨result, after⟩
  obtain ⟨s, hs, -⟩ := compilation_queryOf .registry mode p.entity
    (fun step h => isPlain_fromText (hsteps step h)) r htranslation
  rw [(compile_eq hs).1] at hq
  subst hq
  obtain ⟨cs, mid, hcs, hend⟩ := Asking.bind_eq_ok htranslation
  obtain ⟨rfl, hreads⟩ := readsAs_steps hr hsteps hcs
  have hclauses : ClausesReadAs q.filters ((queryOf p.entity steps).predicates.map (Expr.restated mid p.entity) ++
      typePredicates (mid.typeRestriction p.entity)) := by
    rw [filters_statementOf hend, predicates_queryOf]
    exact List.rel_append hreads (readsAs_typeClause (mid.typeRestriction p.entity))
  obtain ⟨body, hbody, hparse⟩ := parse_joined hclauses hfilters hname
  exact ⟨p.entity, body, elementType_queryOf p.entity steps, hbody, hparse⟩

theorem parse_filterTexts_bug :
    ∃ e q, parse "from Bug | where Title = null | where not State = 'New'" = .ok e ∧
      (compile .registry .defaultFields e .builtin).result = .ok q ∧
      parse ("from Bugs | where " ++ String.intercalate " AND " q.filterTexts) =
        .ok (.filter (Expr.table "Bugs") (Expr.itLambda
          (.binary .andAlso
            (.binary .andAlso
              (.binary .equal (Expr.field "System.Title") (.constant (.string "")))
              (.unary .not (.binary .equal (Expr.field "System.State") (.constant (.string "New")))))
            (.binary .equal (Expr.field typeField) (.constant (.string "Bug")))))) := by
  let p : Pipeline := ⟨"Bug", [.filter (.test (.name "Title") (.compare .equal) .null),
    .filter (.not (.test (.name "State") (.compare .equal) (.string "New")))]⟩
  have hp : Pipeline.ofText "from Bug | where Title = null | where not State = 'New'".toList = .ok p := by
    decide +kernel
  have hwhole : p.IsWhole := by
    intro c hc
    simp only [p, List.mem_cons, Step.filter.injEq, List.not_mem_nil, or_false] at hc
    rcases hc with rfl | rfl <;> trivial
  let e := queryOf "Bug" [.filter (Expr.itLambda (.binary .equal (Expr.field "Title") (.constant .null))),
    .filter (Expr.itLambda (.unary .not (.binary .equal (Expr.field "State") (.constant (.string "New")))))]
  have he : parse _ = .ok e := parse_ok_iff.2 ⟨p, hp, rfl⟩
  obtain ⟨q, hq, hlength⟩ : ∃ q, (compile .registry .defaultFields e .builtin).result = .ok q ∧
    q.filters.length = 3 := ⟨_, rfl, rfl⟩
  have hfilters : q.filters ≠ [] := by
    intro h
    rw [h] at hlength
    cases hlength
  have hname : IsName "Bugs" := by decide
  obtain ⟨entity, body, hentity, hbody, hparse⟩ := parse_filterTexts hasReadableFields_builtin
    (fun p' h => by rw [hp] at h; cases h; exact hwhole) he hq hfilters hname
  cases hentity
  refine ⟨e, q, he, hq, ?_⟩
  rw [← Option.some.inj hbody] at hparse
  exact hparse

end WorkItemQuery
