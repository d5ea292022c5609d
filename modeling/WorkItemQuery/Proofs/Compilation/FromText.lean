/-
The queries that texts stand for: a table and a list of steps, each of which comes from a step of the
pipeline. Their filters and sort keys have no query inside, since no literal is a table.
-/
import WorkItemQuery.Proofs.Compilation.Declarative
import WorkItemQuery.Proofs.Pipeline.Produced

namespace WorkItemQuery

open Compilation Pipeline Time

/-- Two computations in a row that give a value. -/
theorem bind_eq_ok {ε α β : Type} {m : Except ε α} {f : α → Except ε β} {b : β} (h : (m >>= f) = .ok b) :
    ∃ a, m = .ok a ∧ f a = .ok b := by
  cases m with
  | error e => cases h
  | ok a => exact ⟨a, rfl, h⟩

namespace Pipeline

/-- A step of a pipeline gives a step of the query. -/
inductive Step.Gives : Step → QueryStep → Prop
  | select {projection : Projection} : Gives (.select projection) (.select projection)
  | filter {c : Condition} {p : Expr} : c.toExpr = .ok p → Gives (.filter c) (.filter (Expr.itLambda p))
  | order {keys : List SortKey} {k : SortKey} : k ∈ keys →
      Gives (.order keys) (.order (Expr.itLambda k.operand.toExpr) k.direction)
  | asOf {text : String} {time : Timestamp} : timeOf text = .ok time → Gives (.asOf text) (.asOf time)

theorem queryOf_append (entity : String) (steps more : List QueryStep) :
    queryOf entity (steps ++ more) = more.foldl QueryStep.apply (queryOf entity steps) := by
  unfold queryOf
  rw [List.foldl_append]

/-- One step of a pipeline adds the steps that it gives. -/
theorem queryOf_apply {entity : String} {steps : List QueryStep} {s : Step} {e : Expr}
    (h : s.apply (queryOf entity steps) = .ok e) :
    ∃ more : List QueryStep, e = queryOf entity (steps ++ more) ∧ ∀ step ∈ more, s.Gives step := by
  cases s with
  | select projection =>
    cases h
    exact ⟨[.select projection], by rw [queryOf_append]; rfl, List.forall_mem_singleton.2 .select⟩
  | filter c =>
    obtain ⟨p, hp, h⟩ := bind_eq_ok h
    cases h
    exact ⟨[.filter (Expr.itLambda p)], by rw [queryOf_append]; rfl, List.forall_mem_singleton.2 (.filter hp)⟩
  | order keys =>
    cases h
    refine ⟨keys.map fun k => .order (Expr.itLambda k.operand.toExpr) k.direction, ?_, ?_⟩
    · rw [queryOf_append, List.foldl_map]; rfl
    · exact List.forall_mem_map.2 fun k hk => .order hk
  | asOf text =>
    obtain ⟨t, ht, h⟩ := bind_eq_ok h
    cases h
    exact ⟨[.asOf t], by rw [queryOf_append]; rfl, List.forall_mem_singleton.2 (.asOf ht)⟩

/-- All steps of a pipeline. -/
theorem queryOf_applySteps {entity : String} {e : Expr} : ∀ {more : List Step} {steps : List QueryStep},
    applySteps (queryOf entity steps) more = .ok e →
    ∃ new : List QueryStep, e = queryOf entity (steps ++ new) ∧ ∀ step ∈ new, ∃ s ∈ more, s.Gives step
  | [], steps, h => by cases h; exact ⟨[], by rw [List.append_nil], by simp⟩
  | s :: more, steps, h => by
    obtain ⟨q, hq, h⟩ := bind_eq_ok h
    obtain ⟨first, rfl, hfirst⟩ := queryOf_apply hq
    obtain ⟨rest, rfl, hrest⟩ := queryOf_applySteps h
    refine ⟨first ++ rest, by rw [List.append_assoc], List.forall_mem_append.2 ⟨?_, ?_⟩⟩
    · exact fun step hstep => ⟨s, List.mem_cons_self, hfirst step hstep⟩
    · intro step hstep
      obtain ⟨t, ht, hgives⟩ := hrest step hstep
      exact ⟨t, List.mem_cons_of_mem s ht, hgives⟩

/-- The query of a pipeline is made of the steps that its steps give. -/
theorem toExpr_eq_queryOf {p : Pipeline} {e : Expr} (h : p.toExpr = .ok e) :
    ∃ steps, e = queryOf p.entity steps ∧ ∀ step ∈ steps, ∃ s ∈ p.steps, s.Gives step :=
  @queryOf_applySteps p.entity e p.steps [] h

/-! ## No query inside -/

theorem isPlain_constant {v : Literal} {k : Constant} (h : v.constant = .ok k) : isPlain (.constant k) = true := by
  cases v with
  | list items =>
    obtain ⟨⟨numbers, strings⟩, -, h⟩ := bind_eq_ok h
    split at h <;> cases h <;> rfl
  | timestamp text =>
    obtain ⟨t, -, h⟩ := bind_eq_ok h
    cases h; rfl
  | string text => cases h; rfl
  | number n =>
    have h : n.constant = .ok k := h
    unfold NumberText.constant at h
    split at h
    · split at h <;> cases h <;> rfl
    · cases h; rfl
  | null => cases h; rfl

theorem isPlain_condition : ∀ {c : Condition} {p : Expr}, c.toExpr = .ok p → isPlain p = true := by
  intro c
  induction c with
  | test o rel v =>
    intro p hp
    obtain ⟨k, hk, hp⟩ := bind_eq_ok hp
    cases hp
    have hplain := isPlain_constant hk
    cases rel <;> cases o <;> exact hplain
  | not c ih =>
    intro p hp
    obtain ⟨q, hq, hp⟩ := bind_eq_ok hp
    cases hp
    have hplain : isPlain q = true := ih hq
    exact hplain
  | and c d ihc ihd | or c d ihc ihd =>
    intro p hp
    obtain ⟨q, hq, hp⟩ := bind_eq_ok hp
    obtain ⟨q', hq', hp⟩ := bind_eq_ok hp
    cases hp
    exact Bool.and_eq_true_iff.2 ⟨ihc hq, ihd hq'⟩

theorem Step.Gives.isPlain {s : Step} {step : QueryStep} (h : s.Gives step) : step.IsPlain := by
  cases h with
  | @filter c p hp =>
    have hplain : Compilation.isPlain p = true := isPlain_condition hp
    exact hplain
  | @order keys k _ => rcases k.operand with n | key <;> rfl
  | select | asOf _ => trivial

/-! ## Steps of a query -/

/-- The steps of a query, the outermost last. -/
def stepsOf : Expr → List QueryStep
  | .select source projection => stepsOf source ++ [.select projection]
  | .filter source predicate => stepsOf source ++ [.filter predicate]
  | .order source selector direction => stepsOf source ++ [.order selector direction]
  | .asOf source time => stepsOf source ++ [.asOf time]
  | _ => []

theorem stepsOf_apply (query : Expr) (step : QueryStep) : stepsOf (step.apply query) = stepsOf query ++ [step] := by
  cases step <;> rfl

theorem stepsOf_foldl (steps : List QueryStep) (query : Expr) :
    stepsOf (steps.foldl QueryStep.apply query) = stepsOf query ++ steps := by
  induction steps generalizing query with
  | nil => exact (List.append_nil _).symm
  | cons step steps ih => rw [List.foldl_cons, ih, stepsOf_apply, List.append_assoc, List.singleton_append]

theorem stepsOf_queryOf (entity : String) (steps : List QueryStep) : stepsOf (queryOf entity steps) = steps :=
  stepsOf_foldl steps (Expr.table entity)

/-- No step of a query that is read from a text has a query inside. -/
theorem isPlain_of_parse {text entity : String} {steps : List QueryStep} (h : parse text = .ok (queryOf entity steps)) :
    ∀ step ∈ steps, step.IsPlain := by
  obtain ⟨p, -, hexpr⟩ := parse_ok_iff.1 h
  obtain ⟨given, hquery, hgiven⟩ := toExpr_eq_queryOf hexpr
  have hsteps : steps = given := by
    rw [← stepsOf_queryOf entity steps, hquery, stepsOf_queryOf]
  intro step hstep
  obtain ⟨s, -, hgives⟩ := hgiven step (hsteps ▸ hstep)
  exact hgives.isPlain

end Pipeline

end WorkItemQuery
