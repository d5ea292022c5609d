/-
Compilation without a walk. A query is a table and a list of steps, and a statement is put together
from what each step says by itself: clauses of filters and orders, projections, and an instant. No
pending clause and no statement are passed along; the field mapper is asked in the order of the steps,
and the first error counts. Compilation is shown to give the same statement, the same error and the
same state of the mapper, for all steps with no query inside their filters and sort keys.
-/
import WorkItemQuery.Proofs.Compilation.Fragments

namespace WorkItemQuery.Compilation

open Walk Time

variable {σ : Type}

/-- A step of a query. -/
inductive QueryStep where
  | select (projection : Projection)
  | filter (predicate : Expr)
  | order (selector : Expr) (direction : Direction)
  | asOf (time : Timestamp)

/-- What a step adds to a statement's clauses. -/
structure Clauses where
  filters : List Fragment := []
  orders : List Fragment := []

namespace QueryStep

/-- The query with one more step. -/
def apply (query : Expr) : QueryStep → Expr
  | select projection => .select query projection
  | filter predicate => .filter query predicate
  | order selector direction => .order query selector direction
  | asOf time => .asOf query time

/-- Whether the filter or the sort key of a step has no query inside. -/
def IsPlain : QueryStep → Prop
  | filter predicate => isPlain predicate = true
  | order selector _ => isPlain selector = true
  | select _ | asOf _ => True

def projection? : QueryStep → Option Projection
  | select projection => some projection
  | _ => none

def time? : QueryStep → Option Timestamp
  | asOf time => some time
  | _ => none

/-- The clauses of a step. -/
def clauses (mapper : FieldMapper σ) (entity : String) : QueryStep → Asking σ Clauses
  | filter predicate => do
    let parts ← fragments mapper entity predicate
    return { filters := clauseOf parts }
  | order selector direction => do
    let parts ← fragments mapper entity selector
    match directionText? direction with
    | some text => return { orders := [.compound (parts ++ [.literal text])] }
    | none => throw .malformedOrder
  | select _ | asOf _ => return {}

end QueryStep

/-- The query that steps make of a table. -/
def queryOf (entity : String) (steps : List QueryStep) : Expr :=
  steps.foldl QueryStep.apply (Expr.table entity)

/-- The select list, given the names that are asked for. -/
def selectList (mapper : FieldMapper σ) (entity : String) : ProjectionMode → List String → Asking σ (List String)
  | .explicit, name :: names => (name :: names).mapM (ask mapper entity)
  | _, _ => do return mapper.defaultFields (← get) entity

/-- The statement of a query whose steps have the given clauses. -/
def statementOf (mapper : FieldMapper σ) (mode : ProjectionMode) (entity : String) (steps : List QueryStep)
    (clauses : List Clauses) : Asking σ Statement := do
  let projections := steps.filterMap QueryStep.projection?
  let select ← selectList mapper entity mode (requested projections)
  if select.isEmpty then throw (.emptySelect entity)
  let types := mapper.typeRestriction (← get) entity
  return {
    entity := some entity
    projections
    select
    filters := clauses.flatMap Clauses.filters ++ (typeClause? types).toList
    orders := clauses.flatMap Clauses.orders
    asOf := (steps.filterMap QueryStep.time?).getLast? }

/-- The statement of a query, put together from its steps. -/
def translation (mapper : FieldMapper σ) (mode : ProjectionMode) (entity : String) (steps : List QueryStep) :
    Asking σ Statement := do
  let clauses ← steps.mapM (QueryStep.clauses mapper entity)
  statementOf mapper mode entity steps clauses

/-! ## The walk over one step -/

/-- The state of a walk after some steps with the given clauses. -/
structure Walked (entity : String) (steps : List QueryStep) (clauses : List Clauses) (s : State σ) : Prop where
  entity : EntityIs entity s
  projections : s.statement.projections = steps.filterMap QueryStep.projection?
  filters : s.statement.filters = clauses.flatMap Clauses.filters
  orders : s.statement.orders = clauses.flatMap Clauses.orders
  asOf : s.statement.asOf = (steps.filterMap QueryStep.time?).getLast?
  /-- No clause is left open between steps. -/
  pending : s.pending = []

/-- A walk ends as a question does, and well if it ends with an answer. -/
def Ends {β : Type} (r : Except CompileError Unit × State σ) (good : β → State σ → Prop) :
    Except CompileError β × σ → Prop
  | (.ok b, fields) => ∃ s, r = (.ok (), s) ∧ s.fields = fields ∧ good b s
  | (.error e, fields) => ∃ s, r = (.error e, s) ∧ s.fields = fields

theorem visit_apply_error {mapper : FieldMapper σ} {root : Option String} {source : Expr} {s₀ s : State σ}
    {e : CompileError} (h : visit mapper root source s₀ = (.error e, s)) (step : QueryStep) :
    visit mapper root (step.apply source) s₀ = (.error e, s) := by
  cases step <;> exact Walk.bind_error h

section Steps

variable {mapper : FieldMapper σ} {entity : String} {source : Expr} {steps : List QueryStep} {clauses : List Clauses}
  {s₀ s : State σ}

theorem visit_select (hsource : visit mapper (some entity) source s₀ = (.ok (), s))
    (htype : source.elementType = some entity) (h : Walked entity steps clauses s) (projection : Projection) :
    ∃ s', visit mapper (some entity) (.select source projection) s₀ = (.ok (), s') ∧ s'.fields = s.fields ∧
      Walked entity (steps ++ [.select projection]) (clauses ++ [⟨[], []⟩]) s' := by
  -- the entity is set once, and no step has another
  have hentity : (s.statement.setEntity entity).1 = { s.statement with entity := some entity } := by
    unfold Statement.setEntity
    rcases h.entity with hs | hs
    · rw [hs]
    · rw [hs]; show s.statement = _; rw [← hs]
  refine ⟨_, Walk.bind_ok hsource, rfl, ?_⟩
  simp only [htype, hentity]
  exact {
    entity := .inr rfl
    projections := by simp [h.projections, QueryStep.projection?]
    filters := by simp [h.filters]
    orders := by simp [h.orders]
    asOf := by simp [h.asOf, QueryStep.time?]
    pending := h.pending }

theorem visit_asOf (hsource : visit mapper (some entity) source s₀ = (.ok (), s))
    (h : Walked entity steps clauses s) (time : Timestamp) :
    ∃ s', visit mapper (some entity) (.asOf source time) s₀ = (.ok (), s') ∧ s'.fields = s.fields ∧
      Walked entity (steps ++ [.asOf time]) (clauses ++ [⟨[], []⟩]) s' := by
  refine ⟨_, Walk.bind_ok hsource, rfl, ?_⟩
  exact {
    entity := h.entity
    projections := by simp [h.projections, QueryStep.projection?]
    filters := by simp [h.filters]
    orders := by simp [h.orders]
    asOf := by simp [QueryStep.time?]
    pending := h.pending }

/-- A filter ends the clause with its fragments. -/
theorem visit_filter (hsource : visit mapper (some entity) source s₀ = (.ok (), s))
    (h : Walked entity steps clauses s) {predicate : Expr} (hplain : isPlain predicate = true) :
    Ends (visit mapper (some entity) (.filter source predicate) s₀)
      (fun c s' => Walked entity (steps ++ [.filter predicate]) (clauses ++ [c]) s')
      ((QueryStep.filter predicate).clauses mapper entity s.fields) := by
  have hemits := emits_visit mapper entity predicate hplain s h.entity
  rw [show visit mapper (some entity) (.filter source predicate) s₀ =
    (visit mapper (some entity) predicate >>= fun _ => flushFilter) s from Walk.bind_ok hsource]
  rw [QueryStep.clauses]
  rcases hparts : fragments mapper entity predicate s.fields with ⟨err | parts, fields⟩
  · rw [hparts] at hemits
    obtain ⟨s', hw, hfields⟩ := hemits
    rw [Asking.bind_error hparts, Walk.bind_error hw]
    exact ⟨s', rfl, hfields⟩
  · rw [hparts] at hemits
    rw [Asking.bind_ok hparts, Walk.bind_ok hemits]
    refine ⟨_, flushFilter_eq _, rfl, ?_⟩
    have hclause : clauseOf (s.pending ++ parts) = clauseOf parts := by rw [h.pending, List.nil_append]
    exact {
      entity := h.entity
      projections := by simp [State.filtered, h.projections, QueryStep.projection?]
      filters := by simp [State.filtered, hclause, h.filters]
      orders := by simp [State.filtered, h.orders]
      asOf := by simp [State.filtered, h.asOf, QueryStep.time?]
      pending := rfl }

/-- An order ends the clause with the fragments of its sort key and the word of its direction. -/
theorem visit_order (hsource : visit mapper (some entity) source s₀ = (.ok (), s))
    (h : Walked entity steps clauses s) {selector : Expr} (hplain : isPlain selector = true) (direction : Direction) :
    Ends (visit mapper (some entity) (.order source selector direction) s₀)
      (fun c s' => Walked entity (steps ++ [.order selector direction]) (clauses ++ [c]) s')
      ((QueryStep.order selector direction).clauses mapper entity s.fields) := by
  have hemits := emits_visit mapper entity selector hplain s h.entity
  rw [show visit mapper (some entity) (.order source selector direction) s₀ =
    (visit mapper (some entity) selector >>= fun _ => endOrder direction) s from Walk.bind_ok hsource]
  rw [QueryStep.clauses]
  rcases hparts : fragments mapper entity selector s.fields with ⟨err | parts, fields⟩
  · rw [hparts] at hemits
    obtain ⟨s', hw, hfields⟩ := hemits
    rw [Asking.bind_error hparts, Walk.bind_error hw]
    exact ⟨s', rfl, hfields⟩
  · rw [hparts] at hemits
    rw [Asking.bind_ok hparts, Walk.bind_ok hemits]
    cases hdirection : directionText? direction with
    | none =>
      rw [endOrder, hdirection]
      exact ⟨_, Walk.bind_error rfl, rfl⟩
    | some text =>
      refine ⟨_, endOrder_eq_ok.2 ⟨text, hdirection, rfl⟩, rfl, ?_⟩
      have hclause : clauseOf (s.pending ++ parts ++ [.literal text]) = [.compound (parts ++ [.literal text])] := by
        rw [h.pending, List.nil_append]
        cases parts <;> rfl
      exact {
        entity := h.entity
        projections := by simp [State.ordered, State.push, h.projections, QueryStep.projection?]
        filters := by simp [State.ordered, State.push, h.filters]
        orders := by
          show s.statement.orders ++ clauseOf (s.pending ++ parts ++ [.literal text]) = _
          rw [hclause, h.orders]
          simp
        asOf := by simp [State.ordered, State.push, h.asOf, QueryStep.time?]
        pending := rfl }

/-- One step: the walk over it ends as its clauses do. -/
theorem visit_step (hsource : visit mapper (some entity) source s₀ = (.ok (), s))
    (htype : source.elementType = some entity) (h : Walked entity steps clauses s) {step : QueryStep}
    (hplain : step.IsPlain) :
    Ends (visit mapper (some entity) (step.apply source) s₀)
      (fun c s' => Walked entity (steps ++ [step]) (clauses ++ [c]) s') (step.clauses mapper entity s.fields) := by
  cases step with
  | select projection => exact visit_select hsource htype h projection
  | filter predicate => exact visit_filter hsource h hplain
  | order selector direction => exact visit_order hsource h hplain direction
  | asOf time => exact visit_asOf hsource h time

end Steps

/-! ## The walk over a query -/

theorem elementType_apply (source : Expr) (step : QueryStep) :
    (step.apply source).elementType = source.elementType := by
  cases step <;> rw [QueryStep.apply, Expr.elementType]

theorem elementType_queryOf (entity : String) (steps : List QueryStep) :
    (queryOf entity steps).elementType = some entity := by
  suffices h : ∀ source : Expr, (steps.foldl QueryStep.apply source).elementType = source.elementType by
    exact h _
  induction steps with
  | nil => exact fun _ => rfl
  | cons step steps ih => exact fun source => (ih _).trans (elementType_apply source step)

theorem visit_foldl_error {mapper : FieldMapper σ} {root : Option String} {s₀ s : State σ} {e : CompileError} :
    ∀ (steps : List QueryStep) {source : Expr}, visit mapper root source s₀ = (.error e, s) →
      visit mapper root (steps.foldl QueryStep.apply source) s₀ = (.error e, s)
  | [], _, h => h
  | step :: steps, _, h => visit_foldl_error steps (visit_apply_error h step)

/-- All steps: the walk over them ends as their clauses do, in the order of the steps. -/
theorem visit_steps {mapper : FieldMapper σ} {entity : String} {s₀ : State σ} : ∀ (more : List QueryStep)
    {source : Expr} {steps : List QueryStep} {clauses : List Clauses} {s : State σ},
    visit mapper (some entity) source s₀ = (.ok (), s) → source.elementType = some entity →
    Walked entity steps clauses s → (∀ step ∈ more, step.IsPlain) →
    Ends (visit mapper (some entity) (more.foldl QueryStep.apply source) s₀)
      (fun cs s' => Walked entity (steps ++ more) (clauses ++ cs) s')
      (more.mapM (QueryStep.clauses mapper entity) s.fields)
  | [], source, steps, clauses, s, hsource, _, h, _ => by
    rw [List.mapM_nil]
    exact ⟨s, hsource, rfl, by simpa using h⟩
  | step :: more, source, steps, clauses, s, hsource, htype, h, hplain => by
    -- the steps walked so far grow by one; after an error no further step is walked
    have hstep := visit_step hsource htype h (hplain step List.mem_cons_self)
    rw [List.mapM_cons, List.foldl_cons]
    rcases hc : step.clauses mapper entity s.fields with ⟨err | c, fields⟩
    · rw [hc] at hstep
      obtain ⟨s', hw, hfields⟩ := hstep
      rw [Asking.bind_error hc]
      exact ⟨s', visit_foldl_error more hw, hfields⟩
    · rw [hc] at hstep
      obtain ⟨s', hw, rfl, h⟩ := hstep
      have hmore := visit_steps more hw ((elementType_apply source step).trans htype) h
        fun step hstep => hplain step (List.mem_cons_of_mem _ hstep)
      rw [Asking.bind_ok hc]
      rcases hcs : more.mapM (QueryStep.clauses mapper entity) s'.fields with ⟨err | cs, fields⟩
      · rw [hcs] at hmore
        rw [Asking.bind_error hcs]
        exact hmore
      · rw [hcs] at hmore
        rw [Asking.bind_ok hcs]
        obtain ⟨last, hlast, hfields, hwalked⟩ := hmore
        exact ⟨last, hlast, hfields, by simpa using hwalked⟩

theorem visit_queryOf (mapper : FieldMapper σ) (entity : String) {steps : List QueryStep}
    (hplain : ∀ step ∈ steps, step.IsPlain) (fields : σ) (notices : List Log.Notice) :
    Ends (visit mapper (some entity) (queryOf entity steps) { fields, notices })
      (fun cs s => Walked entity steps cs s) (steps.mapM (QueryStep.clauses mapper entity) fields) := by
  have htable : visit mapper (some entity) (Expr.table entity) { fields, notices } =
    (.ok (), { fields, notices }) := rfl
  have hwalked : Walked entity [] [] ({ fields, notices } : State σ) := ⟨.inl rfl, rfl, rfl, rfl, rfl, rfl⟩
  exact visit_steps steps htable rfl hwalked hplain

/-! ## The select list and the end -/

theorem answers_lookupAll (mapper : FieldMapper σ) (entity : String) : ∀ names : List String,
    Answers entity (lookupAll mapper entity names) (names.mapM (ask mapper entity))
  | [] => by rw [List.mapM_nil]; exact answers_pure entity []
  | name :: names => by
    rw [List.mapM_cons]
    exact .bind (answers_lookup mapper entity name) fun field =>
      .bind (answers_lookupAll mapper entity names) fun fields => answers_pure entity (field :: fields)

theorem selectFields_eq (mapper : FieldMapper σ) (mode : ProjectionMode) {entity : String} {s : State σ}
    (hs : EntityIs entity s) (projections : List Projection) :
    match selectList mapper entity mode (requested projections) s.fields with
    | (.ok names, fields) => ∃ s', selectFields mapper mode entity projections s = (.ok names, s') ∧
        s'.fields = fields ∧ s'.statement = s.statement
    | (.error e, fields) => ∃ s', selectFields mapper mode entity projections s = (.error e, s') ∧
        s'.fields = fields := by
  unfold selectFields
  rcases requested projections with _ | ⟨name, names⟩
  · cases mode <;> exact ⟨s, rfl, rfl, rfl⟩
  · cases mode with
    | defaultFields => exact ⟨_, rfl, rfl, rfl⟩
    | explicit =>
      have hlookup := answers_lookupAll mapper entity (name :: names) s hs
      show match (name :: names).mapM (ask mapper entity) s.fields with
        | (.ok names, fields) => _
        | (.error e, fields) => _
      rcases hm : (name :: names).mapM (ask mapper entity) s.fields with ⟨err | fs, fields⟩
      · rw [hm] at hlookup
        exact hlookup
      · rw [hm] at hlookup
        exact ⟨_, hlookup, rfl, rfl⟩

/-- What comes after the walk. -/
def conclude (mapper : FieldMapper σ) (mode : ProjectionMode) (root : Option String) : Walk σ Statement := do
  let entity ← entityOf root
  let select ← selection mapper mode entity
  if select.isEmpty then fail (.emptySelect entity)
  finish mapper entity select

theorem compilation_eq (mapper : FieldMapper σ) (mode : ProjectionMode) (e : Expr) :
    compilation mapper mode e = (do
      note (.compiling e.elementType)
      visit mapper e.elementType e
      conclude mapper mode e.elementType) := rfl

/-- After the walk, a compilation ends as the statement of the steps does. -/
theorem conclude_eq (mapper : FieldMapper σ) (mode : ProjectionMode) {entity : String} {steps : List QueryStep}
    {clauses : List Clauses} {s : State σ} (h : Walked entity steps clauses s) {r : Except CompileError Statement}
    {fields : σ} (hr : statementOf mapper mode entity steps clauses s.fields = (r, fields)) :
    ∃ s', conclude mapper mode (some entity) s = (r, s') ∧ s'.fields = fields := by
  have hentity : entityOf (some entity) s = (.ok entity, s) := by
    unfold entityOf
    rcases h.entity with hs | hs <;> rw [hs]
  have hselect := selectFields_eq mapper mode h.entity s.statement.projections
  rw [h.projections] at hselect
  have hselection : selection mapper mode entity s =
      selectFields mapper mode entity (steps.filterMap QueryStep.projection?) s := by
    rw [← h.projections]; rfl
  unfold conclude
  unfold statementOf at hr
  -- the select list may change the mapper, but not the clauses
  rcases hlist : selectList mapper entity mode (requested (steps.filterMap QueryStep.projection?)) s.fields with
    ⟨err | select, after⟩
  · rw [hlist] at hselect
    obtain ⟨s', hselect, hfields⟩ := hselect
    rw [Asking.bind_error hlist] at hr
    cases hr
    exact ⟨s', (Walk.bind_ok hentity).trans (Walk.bind_error (hselection.trans hselect)), hfields⟩
  · rw [hlist] at hselect
    obtain ⟨s', hselect, rfl, hstatement⟩ := hselect
    rw [Asking.bind_ok hlist] at hr
    rw [Walk.bind_ok hentity, Walk.bind_ok (hselection.trans hselect)]
    cases hempty : select.isEmpty with
    | true =>
      simp only [hempty, if_true] at hr ⊢
      cases hr
      exact ⟨s', rfl, rfl⟩
    | false =>
      simp only [hempty, Bool.false_eq_true, if_false] at hr ⊢
      cases hr
      refine ⟨(finish mapper entity select s').2, Prod.ext ?_ rfl, rfl⟩
      simp [finish, hstatement, h.projections, h.filters, h.orders, h.asOf]

/-- The walk and its end give what is put together from the steps. -/
theorem compilation_queryOf (mapper : FieldMapper σ) (mode : ProjectionMode) (entity : String)
    {steps : List QueryStep} (hplain : ∀ step ∈ steps, step.IsPlain) (fields : σ)
    {r : Except CompileError Statement} {after : σ}
    (hr : translation mapper mode entity steps fields = (r, after)) :
    ∃ s, compilation mapper mode (queryOf entity steps) { fields } = (r, s) ∧ s.fields = after := by
  have hvisit := visit_queryOf mapper entity hplain fields [.compiling (some entity)]
  unfold translation at hr
  rw [compilation_eq, elementType_queryOf]
  rcases hclauses : steps.mapM (QueryStep.clauses mapper entity) fields with ⟨err | clauses, mid⟩
  · rw [hclauses] at hvisit
    obtain ⟨s, hvisit, hfields⟩ := hvisit
    rw [Asking.bind_error hclauses] at hr
    cases hr
    exact ⟨s, (Walk.bind_ok rfl).trans (Walk.bind_error hvisit), hfields⟩
  · rw [hclauses] at hvisit
    obtain ⟨s, hvisit, rfl, hwalked⟩ := hvisit
    rw [Asking.bind_ok hclauses] at hr
    obtain ⟨s', hend, hfields⟩ := conclude_eq mapper mode hwalked hr
    exact ⟨s', (Walk.bind_ok rfl).trans ((Walk.bind_ok hvisit).trans hend), hfields⟩

theorem compile_eq {mapper : FieldMapper σ} {mode : ProjectionMode} {e : Expr} {fields : σ}
    {r : Except CompileError Statement} {s : State σ} (h : compilation mapper mode e { fields } = (r, s)) :
    (compile mapper mode e fields).result = r ∧ (compile mapper mode e fields).fields = s.fields := by
  unfold compile
  rw [h]
  exact ⟨rfl, rfl⟩

end WorkItemQuery.Compilation

namespace WorkItemQuery

open Compilation

/-- Compilation gives the statement or the error that is put together from the steps of a query, and leaves
the field mapper in the same state. -/
theorem compile_queryOf {σ : Type} (mapper : FieldMapper σ) (mode : ProjectionMode) (entity : String)
    {steps : List QueryStep} (hplain : ∀ step ∈ steps, step.IsPlain) (fields : σ) :
    let c := compile mapper mode (queryOf entity steps) fields
    (c.result, c.fields) = translation mapper mode entity steps fields := by
  rcases htranslation : translation mapper mode entity steps fields with ⟨r, after⟩
  obtain ⟨s, hs, rfl⟩ := compilation_queryOf mapper mode entity hplain fields htranslation
  obtain ⟨hresult, hfields⟩ := compile_eq hs
  exact Prod.ext hresult hfields

/-- A filter and an order become one clause each; of two errors the first counts. -/
theorem compile_queryOf_task :
    let mapper : FieldMapper Nat := ⟨fun _ property n => (.ok property, n + 1), fun _ _ => ["Id"], fun _ _ => []⟩
    let sum := Expr.binary .add (.constant (.int32 1)) (.constant (.int32 2))
    let good := compile mapper .explicit (queryOf "Task"
      [.filter (Expr.itLambda (.unary .not (Expr.field "Done"))), .order (.indexer "Rank") .descending]) 0
    let bad := compile mapper .explicit (queryOf "Task" [.filter sum, .order (.indexer "Rank") .unspecified]) 0
    (good.result, good.fields) = (.ok {
      entity := some "Task"
      select := ["Id"]
      filters := [.compound [.literal " NOT ", .field "Done"]]
      orders := [.compound [.field "Rank", .literal " desc"]] }, 2) ∧
    (bad.result, bad.fields) = (.error (.unsupported (.binary .add)), 0) := by
  constructor
  · exact compile_queryOf _ .explicit "Task" (by simp [QueryStep.IsPlain, isPlain, Expr.itLambda, Expr.field]) 0
  · exact compile_queryOf _ .explicit "Task" (by simp [QueryStep.IsPlain, isPlain]) 0

end WorkItemQuery
