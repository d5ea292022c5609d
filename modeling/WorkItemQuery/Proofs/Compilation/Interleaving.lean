/-
Steps of different kinds commute. What a query says is told by four lists: its filters, its sort keys, its
projections and its instants, each in the order of the steps. How the four are interleaved makes no difference:
with a field mapper whose answers do not depend on what it was asked before, all interleavings compile to the
same statement or all of them fail, though not always with the same error, since the first one counts. So it is
with texts: two that parse to interleavings of the same steps over one table compile to the same statement, or neither
of them compiles.
-/
import WorkItemQuery.Batch.Basic
import WorkItemQuery.Proofs.Compilation.FromText
import WorkItemQuery.Proofs.Compilation.Simulation
import WorkItemQuery.Proofs.Pipeline.Meaning

namespace WorkItemQuery

open Compilation Pipeline Time

/-! ## Mappers that answer the same at all times -/

namespace FieldMapper

variable {σ : Type}

/-- A state that a mapper can be in after some questions. -/
inductive Asked (mapper : FieldMapper σ) (start : σ) : σ → Prop
  | start : Asked mapper start start
  | ask {s : σ} (entity property : String) : Asked mapper start s →
      Asked mapper start (mapper.resolve entity property s).2

/-- Whatever a mapper was asked before, it answers as it did at the start. -/
structure IsSteady (mapper : FieldMapper σ) (start : σ) : Prop where
  resolve : ∀ {s}, mapper.Asked start s → ∀ entity property,
    (mapper.resolve entity property s).1 = (mapper.resolve entity property start).1
  defaultFields : ∀ {s}, mapper.Asked start s → mapper.defaultFields s = mapper.defaultFields start
  typeRestriction : ∀ {s}, mapper.Asked start s → mapper.typeRestriction s = mapper.typeRestriction start

/-- The mapper that gives the answers of a state and has no state itself. -/
def frozen (mapper : FieldMapper σ) (start : σ) : FieldMapper Unit where
  resolve entity property _ := ((mapper.resolve entity property start).1, ())
  defaultFields _ := mapper.defaultFields start
  typeRestriction _ := mapper.typeRestriction start

theorem IsSteady.simulates_frozen {mapper : FieldMapper σ} {start : σ} (h : mapper.IsSteady start) :
    mapper.Simulates (fun _ => True) (fun s _ => mapper.Asked start s) (mapper.frozen start) where
  resolve := fun entity property _ _ _ hs => ⟨h.resolve hs entity property, hs.ask entity property⟩
  defaultFields := fun entity _ _ _ hs => congrFun (h.defaultFields hs) entity
  typeRestriction := fun entity _ _ _ hs => congrFun (h.typeRestriction hs) entity

/-- A mapper that no question changes is steady, as a registry is. -/
theorem isSteady_of_unchanged {mapper : FieldMapper σ} {start : σ}
    (h : ∀ entity property, (mapper.resolve entity property start).2 = start) : mapper.IsSteady start := by
  have hstate : ∀ {s}, mapper.Asked start s → s = start := by
    intro s hs
    induction hs with
    | start => rfl
    | ask entity property _ ih => rw [ih, h]
  constructor
  · intro s hs entity property
    rw [hstate hs]
  · intro s hs
    rw [hstate hs]
  · intro s hs
    rw [hstate hs]

/-- A memo over a registry answers as the registry does, whatever it has come to remember. -/
theorem isSteady_memoized (r : Registry) : FieldMapper.registry.memoized.IsSteady (Memo.new r) := by
  have hnew : (Memo.new r).IsOver r := ⟨rfl, fun _ _ _ h => by cases h⟩
  have hover : ∀ {m}, FieldMapper.registry.memoized.Asked (Memo.new r) m → m.IsOver r := by
    intro m hm
    induction hm with
    | start => exact hnew
    | ask entity property _ ih => exact ((memoized_simulates r).resolve entity property trivial ⟨ih, rfl⟩).2.1
  constructor
  · intro m hm entity property
    have hthen := (memoized_simulates r).resolve entity property trivial ⟨hover hm, rfl⟩
    have hfirst := (memoized_simulates r).resolve entity property trivial ⟨hnew, rfl⟩
    exact hthen.1.trans hfirst.1.symm
  · intro m hm
    show m.inner.defaultFields = r.defaultFields
    rw [(hover hm).inner]
  · intro m hm
    show m.inner.typeRestriction = r.typeRestriction
    rw [(hover hm).inner]

end FieldMapper

namespace Compilation

/-! ## The four lists of a query -/

namespace QueryStep

def predicate? : QueryStep → Option Expr
  | filter predicate => some predicate
  | _ => none

def sortKey? : QueryStep → Option (Expr × Direction)
  | order selector direction => some (selector, direction)
  | _ => none

end QueryStep

/-- Two lists of steps have the same steps of each kind, in the same order. -/
structure Interleaved (steps steps' : List QueryStep) : Prop where
  predicates : steps.filterMap QueryStep.predicate? = steps'.filterMap QueryStep.predicate?
  sortKeys : steps.filterMap QueryStep.sortKey? = steps'.filterMap QueryStep.sortKey?
  projections : steps.filterMap QueryStep.projection? = steps'.filterMap QueryStep.projection?
  times : steps.filterMap QueryStep.time? = steps'.filterMap QueryStep.time?

namespace Interleaved

variable {steps steps' : List QueryStep}

theorem symm (h : Interleaved steps steps') : Interleaved steps' steps :=
  ⟨h.predicates.symm, h.sortKeys.symm, h.projections.symm, h.times.symm⟩

/-- Lists with the same steps of a kind have each step of that kind in common. -/
theorem mem_of_kind {β : Type} {kind? : QueryStep → Option β} (h : steps.filterMap kind? = steps'.filterMap kind?)
    {step : QueryStep} {b : β} (hkind : ∀ other, kind? other = some b → other = step) (hb : kind? step = some b)
    (hstep : step ∈ steps') : step ∈ steps := by
  have hmem : b ∈ steps'.filterMap kind? := List.mem_filterMap.2 ⟨step, hstep, hb⟩
  rw [← h] at hmem
  obtain ⟨found, hfound, heq⟩ := List.mem_filterMap.1 hmem
  rwa [← hkind found heq]

theorem mem (h : Interleaved steps steps') {step : QueryStep} (hstep : step ∈ steps') : step ∈ steps := by
  cases step with
  | filter predicate => exact mem_of_kind h.predicates (fun other hk => by cases other <;> cases hk; rfl) rfl hstep
  | order selector direction =>
    exact mem_of_kind h.sortKeys (fun other hk => by cases other <;> cases hk; rfl) rfl hstep
  | select projection => exact mem_of_kind h.projections (fun other hk => by cases other <;> cases hk; rfl) rfl hstep
  | asOf time => exact mem_of_kind h.times (fun other hk => by cases other <;> cases hk; rfl) rfl hstep

end Interleaved

/-! ## Clauses from a mapper without a state -/

section Frozen

variable {mapper : FieldMapper Unit} {entity : String}

/-- The clauses of a step that has some. -/
def clausesOf (mapper : FieldMapper Unit) (entity : String) (step : QueryStep) : Clauses :=
  match (step.clauses mapper entity ()).1 with
  | .ok c => c
  | .error _ => {}

/-- Steps have clauses if each of them has. -/
theorem mapM_clauses_eq_ok {steps : List QueryStep} : ∀ {cs : List Clauses},
    steps.mapM (QueryStep.clauses mapper entity) () = (.ok cs, ()) ↔
      (∀ step ∈ steps, step.clauses mapper entity () = (.ok (clausesOf mapper entity step), ())) ∧
        cs = steps.map (clausesOf mapper entity) := by
  induction steps with
  | nil =>
    intro cs
    rw [List.mapM_nil]
    exact ⟨fun h => by cases h; exact ⟨by simp, rfl⟩, fun h => by rw [h.2]; rfl⟩
  | cons step steps ih =>
    intro cs
    rw [List.mapM_cons, List.forall_mem_cons, List.map_cons]
    constructor
    · intro h
      obtain ⟨c, ⟨⟩, hc, h⟩ := Asking.bind_eq_ok h
      obtain ⟨more, ⟨⟩, hmore, h⟩ := Asking.bind_eq_ok h
      cases h
      obtain ⟨hall, rfl⟩ := ih.1 hmore
      have hclauses : clausesOf mapper entity step = c := by simp only [clausesOf, hc]
      exact ⟨⟨by rw [hc, hclauses], hall⟩, by rw [hclauses]⟩
    · rintro ⟨⟨hstep, hall⟩, rfl⟩
      rw [Asking.bind_ok hstep, Asking.bind_ok (ih.2 ⟨hall, rfl⟩)]
      rfl

/-- Only filters have clauses of filters, and only orders have clauses of orders. -/
theorem clauses_of_kind {step : QueryStep} {c : Clauses} (h : step.clauses mapper entity () = (.ok c, ())) :
    (step.predicate? = none → c.filters = []) ∧ (step.sortKey? = none → c.orders = []) := by
  cases step with
  | filter predicate =>
    obtain ⟨parts, ⟨⟩, -, h⟩ := Asking.bind_eq_ok h
    cases h
    exact ⟨fun hnone => (by cases hnone), fun _ => rfl⟩
  | order selector direction =>
    obtain ⟨parts, ⟨⟩, -, h⟩ := Asking.bind_eq_ok h
    refine ⟨fun _ => ?_, fun hnone => (by cases hnone)⟩
    cases hd : directionText? direction with
    | none => rw [hd] at h; cases h
    | some text => rw [hd] at h; cases h; rfl
  | select projection | asOf time =>
    cases h
    exact ⟨fun _ => rfl, fun _ => rfl⟩

theorem clausesOf_of_kind (step : QueryStep) :
    (step.predicate? = none → (clausesOf mapper entity step).filters = []) ∧
      (step.sortKey? = none → (clausesOf mapper entity step).orders = []) := by
  unfold clausesOf
  rcases h : step.clauses mapper entity () with ⟨err | c, ⟨⟩⟩
  · exact ⟨fun _ => rfl, fun _ => rfl⟩
  · exact clauses_of_kind h

/-- What steps have in common with the steps of a kind, if the others add nothing to it. -/
theorem flatMap_of_kind {β γ : Type} {kind? : QueryStep → Option β} {make : β → QueryStep} {f : QueryStep → List γ}
    (hmake : ∀ step b, kind? step = some b → step = make b) (hother : ∀ step, kind? step = none → f step = []) :
    ∀ steps : List QueryStep, steps.flatMap f = (steps.filterMap kind?).flatMap fun b => f (make b)
  | [] => rfl
  | step :: steps => by
    rw [List.flatMap_cons, flatMap_of_kind hmake hother steps]
    cases hk : kind? step with
    | none => rw [List.filterMap_cons_none hk, hother step hk, List.nil_append]
    | some b => rw [List.filterMap_cons_some hk, List.flatMap_cons, ← hmake step b hk]

theorem filters_clausesOf (steps : List QueryStep) :
    (steps.map (clausesOf mapper entity)).flatMap Clauses.filters = (steps.filterMap QueryStep.predicate?).flatMap
      fun predicate => (clausesOf mapper entity (.filter predicate)).filters := by
  rw [List.flatMap_map]
  refine flatMap_of_kind (fun step predicate hk => ?_) (fun step => (clausesOf_of_kind step).1) steps
  cases step <;> cases hk
  rfl

theorem orders_clausesOf (steps : List QueryStep) :
    (steps.map (clausesOf mapper entity)).flatMap Clauses.orders = (steps.filterMap QueryStep.sortKey?).flatMap
      fun key => (clausesOf mapper entity (.order key.1 key.2)).orders := by
  rw [List.flatMap_map]
  refine flatMap_of_kind (fun step key hk => ?_) (fun step => (clausesOf_of_kind step).2) steps
  cases step <;> cases hk
  rfl

/-- The statement of a query is made of its four lists. -/
theorem statementOf_interleaved {steps steps' : List QueryStep} (h : Interleaved steps steps')
    (mapper : FieldMapper Unit) (mode : ProjectionMode) (entity : String) :
    statementOf mapper mode entity steps (steps.map (clausesOf mapper entity)) =
      statementOf mapper mode entity steps' (steps'.map (clausesOf mapper entity)) := by
  unfold statementOf
  rw [filters_clausesOf, filters_clausesOf, orders_clausesOf, orders_clausesOf, h.predicates, h.sortKeys, h.projections,
    h.times]

theorem translation_interleaved {steps steps' : List QueryStep} (h : Interleaved steps steps') {mode : ProjectionMode}
    {q : Statement} (hq : translation mapper mode entity steps () = (.ok q, ())) :
    translation mapper mode entity steps' () = (.ok q, ()) := by
  obtain ⟨cs, ⟨⟩, hcs, hq⟩ := Asking.bind_eq_ok hq
  obtain ⟨hall, rfl⟩ := mapM_clauses_eq_ok.1 hcs
  -- each step of the other list is a step of this one, so it has clauses too
  have hcs' : steps'.mapM (QueryStep.clauses mapper entity) () = (.ok (steps'.map (clausesOf mapper entity)), ()) :=
    mapM_clauses_eq_ok.2 ⟨fun step hstep => hall step (h.mem hstep), rfl⟩
  unfold translation
  rw [Asking.bind_ok hcs', ← statementOf_interleaved h]
  exact hq

/-- Both orders of the steps give the same statement, or neither gives one. -/
theorem translation_interleaved_cases {steps steps' : List QueryStep} (h : Interleaved steps steps')
    (mapper : FieldMapper Unit) (mode : ProjectionMode) (entity : String) :
    let r := (translation mapper mode entity steps ()).1
    let r' := (translation mapper mode entity steps' ()).1
    (∃ q, r = .ok q ∧ r' = .ok q) ∨ ∃ err err', r = .error err ∧ r' = .error err' := by
  intro r r'
  rcases ht : translation mapper mode entity steps () with ⟨err | q, ⟨⟩⟩
  · rcases ht' : translation mapper mode entity steps' () with ⟨err' | q, ⟨⟩⟩
    · exact .inr ⟨err, err', congrArg Prod.fst ht, congrArg Prod.fst ht'⟩
    · rw [translation_interleaved h.symm ht'] at ht
      cases ht
  · exact .inl ⟨q, congrArg Prod.fst ht, congrArg Prod.fst (translation_interleaved h ht)⟩

end Frozen

/-- A query compiles to what is put together from its steps with the answers that the mapper gives at the start. -/
theorem compile_frozen {σ : Type} {mapper : FieldMapper σ} {fields : σ} (hsteady : mapper.IsSteady fields)
    (mode : ProjectionMode) (entity : String) {steps : List QueryStep} (hplain : ∀ step ∈ steps, step.IsPlain) :
    (compile mapper mode (queryOf entity steps) fields).result =
      (translation (mapper.frozen fields) mode entity steps ()).1 := by
  -- the states that the mapper can come to are all as good as the first
  obtain ⟨hresult, -, -⟩ := compile_simulates hsteady.simulates_frozen mode (e := queryOf entity steps)
    (fun _ _ => trivial) (.start : mapper.Asked fields fields) (t := ())
  rw [hresult]
  obtain ⟨s, hs, -⟩ := compilation_queryOf (mapper.frozen fields) mode entity hplain () rfl
  exact (compile_eq hs).1

end Compilation

/-- Queries whose steps of each kind are the same compile to the same statement, or both fail. No step may have a query
inside of its filter or sort key, and no step that is read from a text has one. -/
theorem compile_interleaved {σ : Type} {mapper : FieldMapper σ} {fields : σ} (hsteady : mapper.IsSteady fields)
    (mode : ProjectionMode) (entity : String) {steps steps' : List QueryStep} (hplain : ∀ step ∈ steps, step.IsPlain)
    (h : Interleaved steps steps') :
    let r := (compile mapper mode (queryOf entity steps) fields).result
    let r' := (compile mapper mode (queryOf entity steps') fields).result
    (∃ q, r = .ok q ∧ r' = .ok q) ∨ ∃ err err', r = .error err ∧ r' = .error err' := by
  intro r r'
  have hplain' : ∀ step ∈ steps', step.IsPlain := fun step hstep => hplain step (h.mem hstep)
  have hr : r = (translation (mapper.frozen fields) mode entity steps ()).1 :=
    compile_frozen hsteady mode entity hplain
  have hr' : r' = (translation (mapper.frozen fields) mode entity steps' ()).1 :=
    compile_frozen hsteady mode entity hplain'
  rw [hr, hr']
  exact translation_interleaved_cases h (mapper.frozen fields) mode entity

/-- Two texts with the same steps in another order, compiled with a registry and with a memo over it. -/
theorem compile_interleaved_task :
    let task := Registry.ofMappings [EntityMapping.new "Task" |>.property "Title" "Title" |>.property "Rank" "Rank"]
    let memo := FieldMapper.registry.memoized
    ∃ steps steps',
      parse "from Task | select Title | where Rank > 1 | asof '2024-06-01' | order Rank | where Title = 'a'" =
        .ok (queryOf "Task" steps) ∧
      parse "from Task | where Rank > 1 | order Rank | where Title = 'a' | select Title | asof '2024-06-01'" =
        .ok (queryOf "Task" steps') ∧
      Interleaved steps steps' ∧
      (∃ q, (compile .registry .explicit (queryOf "Task" steps) task).result = .ok q ∧
        (compile .registry .explicit (queryOf "Task" steps') task).result = .ok q) ∧
      ∃ q, (compile memo .explicit (queryOf "Task" steps) (Memo.new task)).result = .ok q ∧
        (compile memo .explicit (queryOf "Task" steps') (Memo.new task)).result = .ok q := by
  intro task memo
  let rank : Condition := .test (.name "Rank") (.compare .greaterThan) (.number ⟨false, ['1'], []⟩)
  let title : Condition := .test (.name "Title") (.compare .equal) (.string "a")
  let select : Step := .select (.fields ["Title"])
  let time : Timestamp := .ofDate ⟨2024, 6, 1, by decide⟩
  have htime : timeOf "2024-06-01" = .ok time := by decide +kernel
  have hp : Pipeline.ofText
      "from Task | select Title | where Rank > 1 | asof '2024-06-01' | order Rank | where Title = 'a'".toList =
      .ok ⟨"Task", [select, .filter rank, .asOf "2024-06-01", .order [⟨.name "Rank", false⟩], .filter title]⟩ := by
    decide +kernel
  have hp' : Pipeline.ofText
      "from Task | where Rank > 1 | order Rank | where Title = 'a' | select Title | asof '2024-06-01'".toList =
      .ok ⟨"Task", [.filter rank, .order [⟨.name "Rank", false⟩], .filter title, select, .asOf "2024-06-01"]⟩ := by
    decide +kernel
  let ranked : QueryStep := .filter (Expr.itLambda (.binary .greaterThan (Expr.field "Rank") (.constant (.int32 1))))
  let titled : QueryStep := .filter (Expr.itLambda (.binary .equal (Expr.field "Title") (.constant (.string "a"))))
  let ordered : QueryStep := .order (Expr.itLambda (Expr.field "Rank")) .ascending
  let steps := [.select (.fields ["Title"]), ranked, .asOf time, ordered, titled]
  let steps' := [ranked, ordered, titled, .select (.fields ["Title"]), .asOf time]
  have hinterleaved : Interleaved steps steps' := ⟨rfl, rfl, rfl, rfl⟩
  have hplain : ∀ step ∈ steps, step.IsPlain := by
    simp [steps, ranked, titled, ordered, QueryStep.IsPlain, isPlain, Expr.itLambda, Expr.field]
  have hsame : ∀ {σ : Type} {mapper : FieldMapper σ} {fields : σ}, mapper.IsSteady fields →
      (compile mapper .explicit (queryOf "Task" steps) fields).result.isOk = true →
      ∃ q, (compile mapper .explicit (queryOf "Task" steps) fields).result = .ok q ∧
        (compile mapper .explicit (queryOf "Task" steps') fields).result = .ok q := by
    intro σ mapper fields hsteady hok
    rcases compile_interleaved hsteady .explicit "Task" hplain hinterleaved with h | ⟨_, _, h, -⟩
    · exact h
    · rw [h] at hok
      cases hok
  refine ⟨steps, steps', parse_ok_iff.2 ⟨_, hp, ?_⟩, parse_ok_iff.2 ⟨_, hp', ?_⟩, hinterleaved,
    hsame (FieldMapper.isSteady_of_unchanged fun _ _ => rfl) (by decide +kernel),
    hsame (FieldMapper.isSteady_memoized task) (by decide +kernel)⟩
  · simp only [Pipeline.toExpr, applySteps, Step.apply, htime]
    rfl
  · simp only [Pipeline.toExpr, applySteps, Step.apply, htime]
    rfl

/-! ## Texts -/

namespace Batch

theorem compileText_result {σ : Type} (mapper : FieldMapper σ) (mode : ProjectionMode) {text : String} {e : Expr}
    (h : parse text = .ok e) (fields : σ) :
    (compileText mapper mode text fields).result =
      match (compile mapper mode e fields).result with
      | .error err => .error (.compile err)
      | .ok q => .ok (.ofStatement q) := by
  unfold compileText
  rw [h]
  dsimp only
  cases (compile mapper mode e fields).result <;> rfl

/-- Two texts with the same steps of each kind, and a mapper that no question changes: both give the same statement,
with the same text and the same fingerprint, or both are refused. -/
theorem compileText_interleaved {σ : Type} {mapper : FieldMapper σ} {fields : σ}
    (hstateless : ∀ entity property, (mapper.resolve entity property fields).2 = fields) (mode : ProjectionMode)
    {text text' entity : String} {steps steps' : List QueryStep} (htext : parse text = .ok (queryOf entity steps))
    (htext' : parse text' = .ok (queryOf entity steps')) (h : Interleaved steps steps') :
    let r := (compileText mapper mode text fields).result
    let r' := (compileText mapper mode text' fields).result
    (∃ output, r = .ok output ∧ r' = .ok output) ∨ ∃ err err', r = .error err ∧ r' = .error err' := by
  intro r r'
  have hsteady := FieldMapper.isSteady_of_unchanged hstateless
  have hr := compileText_result mapper mode htext fields
  have hr' := compileText_result mapper mode htext' fields
  rw [compile_frozen hsteady mode entity (isPlain_of_parse htext)] at hr
  rw [compile_frozen hsteady mode entity (isPlain_of_parse htext')] at hr'
  rcases translation_interleaved_cases h (mapper.frozen fields) mode entity with
    ⟨q, hq, hq'⟩ | ⟨err, err', herr, herr'⟩
  · rw [hq] at hr
    rw [hq'] at hr'
    exact .inl ⟨.ofStatement q, hr, hr'⟩
  · rw [herr] at hr
    rw [herr'] at hr'
    exact .inr ⟨.compile err, .compile err', hr, hr'⟩

end Batch

end WorkItemQuery
