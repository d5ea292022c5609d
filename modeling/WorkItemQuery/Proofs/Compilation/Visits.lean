/-
The walks that end well. What such a walk does to the state is said once, by a relation with one rule for each kind of
expression, and the relation is shown to be the walk. What walks keep, add and read is then proved by induction over
the rules: each rule says what the parts of an expression have done and what the expression does after them, and no
proof has to go through the walk again. Walks that fail are not in the relation.
-/
import WorkItemQuery.Compilation.Basic

namespace WorkItemQuery.Compilation

open Walk Time

variable {σ α β : Type}

/-! ## One walk after another -/

namespace Walk

theorem bind_ok {w : Walk σ α} {f : α → Walk σ β} {s s' : State σ} {a : α} (h : w s = (.ok a, s')) :
    (w >>= f) s = f a s' := by
  show andThen w f s = _
  unfold andThen
  rw [h]

theorem bind_error {w : Walk σ α} {f : α → Walk σ β} {s s' : State σ} {e : CompileError}
    (h : w s = (.error e, s')) : (w >>= f) s = (.error e, s') := by
  show andThen w f s = _
  unfold andThen
  rw [h]

/-- Two walks in a row that end well. -/
theorem bind_eq_ok {w : Walk σ α} {f : α → Walk σ β} {s s' : State σ} {b : β} (h : (w >>= f) s = (.ok b, s')) :
    ∃ a mid, w s = (.ok a, mid) ∧ f a mid = (.ok b, s') := by
  rcases hw : w s with ⟨err | a, mid⟩
  · rw [bind_error hw] at h; cases h
  · rw [bind_ok hw] at h; exact ⟨a, mid, rfl, h⟩

end Walk

/-! ## What walks do to the state -/

/-- The clause that holds the given fragments; there is none without fragments. -/
def clauseOf : List Fragment → List Fragment
  | [] => []
  | parts => [.compound parts]

/-- A statement with one more projection. It gets the entity of the source, if there is one, unless it has its own. -/
def projected (source : Option String) (projection : Projection) (q : Statement) : Statement :=
  let statement :=
    match source with
    | some entity => (q.setEntity entity).1
    | none => q
  { statement with projections := statement.projections ++ [projection] }

theorem entity_projected (source : Option String) (projection : Projection) (q : Statement) :
    (projected source projection q).entity = q.entity.or source := by
  unfold projected Statement.setEntity
  cases hq : q.entity <;> cases source <;> simp [hq]

theorem projections_projected (source : Option String) (projection : Projection) (q : Statement) :
    (projected source projection q).projections = q.projections ++ [projection] := by
  unfold projected Statement.setEntity
  cases q.entity <;> cases source <;> rfl

theorem clauses_projected (source : Option String) (projection : Projection) (q : Statement) :
    (projected source projection q).filters = q.filters ∧ (projected source projection q).orders = q.orders := by
  unfold projected Statement.setEntity
  cases q.entity <;> cases source <;> exact ⟨rfl, rfl⟩

namespace State

/-- The entity that fields are looked up of. -/
def context (root : Option String) (s : State σ) : Option String := s.statement.entity.or root

/-- One more fragment is pending. -/
def push (s : State σ) (f : Fragment) : State σ := { s with pending := s.pending ++ [f] }

/-- One more projection is recorded. -/
def projecting (source : Option String) (projection : Projection) (s : State σ) : State σ :=
  { s with statement := projected source projection s.statement }

/-- What was pending is a filter, if it was anything. -/
def filtered (s : State σ) : State σ :=
  { s with
    statement := { s.statement with filters := s.statement.filters ++ clauseOf s.pending }
    pending := []
    notices := s.notices ++ (clauseOf s.pending).map .filterAdded }

/-- What was pending is an order, if it was anything. -/
def ordered (s : State σ) : State σ :=
  { s with
    statement := { s.statement with orders := s.statement.orders ++ clauseOf s.pending }
    pending := []
    notices := s.notices ++ (clauseOf s.pending).map .orderAdded }

/-- The statement is about the given instant. -/
def atTime (time : Timestamp) (s : State σ) : State σ := { s with statement := { s.statement with asOf := some time } }

end State

theorem flushFilter_eq (s : State σ) : flushFilter s = (.ok (), s.filtered) := by
  obtain ⟨fields, statement, pending, notices⟩ := s
  cases pending <;> simp [flushFilter, flush, State.filtered, clauseOf]

theorem flushOrder_eq (s : State σ) : flushOrder s = (.ok (), s.ordered) := by
  obtain ⟨fields, statement, pending, notices⟩ := s
  cases pending <;> simp [flushOrder, flush, State.ordered, clauseOf]

theorem lookup_eq_ok {mapper : FieldMapper σ} {entity property name : String} {s s' : State σ} :
    lookup mapper entity property s = (.ok name, s') ↔
      ∃ fields, mapper.resolve entity property s.fields = (.ok name, fields) ∧ s' = { s with fields } := by
  unfold lookup
  rcases mapper.resolve entity property s.fields with ⟨err | found, fields⟩
  · exact ⟨fun h => (by cases h), fun ⟨_, h, _⟩ => (by cases h)⟩
  · constructor
    · rintro ⟨⟩
      exact ⟨fields, rfl, rfl⟩
    · rintro ⟨_, ⟨⟩, rfl⟩
      rfl

/-- A field is looked up of the entity that the state is about. -/
theorem resolve_eq_ok {mapper : FieldMapper σ} {root : Option String} {property name : String} {s s' : State σ} :
    resolve mapper root property s = (.ok name, s') ↔ ∃ entity fields, s.context root = some entity ∧
      mapper.resolve entity property s.fields = (.ok name, fields) ∧ s' = { s with fields } := by
  unfold resolve State.context
  cases s.statement.entity with
  | some entity => simp [lookup_eq_ok]
  | none =>
    cases root with
    | some entity => simp [lookup_eq_ok]
    | none => simp

/-- A constant other than a table adds its fragment, or is refused. -/
theorem visitConstant_eq {k : Constant} (h : ¬∃ entity, k = .table entity) :
    (visitConstant k : Walk σ Unit) = match constantFragment? k with
      | some f => emit f
      | none => fail (.unsupported (.constant k)) := by
  cases k with
  | table entity => exact absurd ⟨entity, rfl⟩ h
  | _ => rfl

/-- The end of an order: the word of its direction, and the end of its clause. -/
def endOrder (direction : Direction) : Walk σ Unit := do
  match directionText? direction with
  | some text => emitText text
  | none => fail .malformedOrder
  flushOrder

theorem visit_order_eq (mapper : FieldMapper σ) (root : Option String) (source selector : Expr)
    (direction : Direction) :
    visit mapper root (.order source selector direction) = (do
      visit mapper root source
      visit mapper root selector
      endOrder direction) := rfl

theorem visit_select_eq (mapper : FieldMapper σ) (root : Option String) (source : Expr) (projection : Projection) :
    visit mapper root (.select source projection) = (do
      visit mapper root source
      update fun s => s.projecting source.elementType projection) := rfl

theorem endOrder_eq_ok {direction : Direction} {s s' : State σ} : endOrder direction s = (.ok (), s') ↔
    ∃ text, directionText? direction = some text ∧ s' = (s.push (.literal text)).ordered := by
  unfold endOrder
  cases directionText? direction with
  | none => exact ⟨fun h => (by cases h), fun ⟨text, h, _⟩ => (by cases h)⟩
  | some text =>
    show flushOrder (s.push (.literal text)) = _ ↔ _
    rw [flushOrder_eq]
    constructor
    · rintro ⟨⟩
      exact ⟨text, rfl, rfl⟩
    · rintro ⟨_, heq, rfl⟩
      cases heq
      rfl

/-! ## The rules -/

/-- An expression joins two others with a text between them. -/
inductive Joins : Expr → Expr → String → Expr → Prop
  | domain {op : DomainOp} {left right : Expr} : Joins (.domain op left right) left (domainText op) right
  | binary {op : BinaryOp} {text : String} {left right : Expr} : binaryText? op = some text →
      Joins (.binary op left right) left text right

/-- An expression is the property of an item with the given name. -/
inductive Reads : Expr → String → Prop
  | member {target : Expr} {name : String} : isItem target = true → Reads (.member target name) name
  | indexer {key : String} : Reads (.indexer key) key

/-- The walk over an expression ends well: where it starts, and where it ends. -/
inductive Visits (mapper : FieldMapper σ) (root : Option String) : Expr → State σ → State σ → Prop
  | select {source : Expr} {projection : Projection} {s s' : State σ} : Visits mapper root source s s' →
      Visits mapper root (.select source projection) s (s'.projecting source.elementType projection)
  | filter {source predicate : Expr} {s mid s' : State σ} : Visits mapper root source s mid →
      Visits mapper root predicate mid s' → Visits mapper root (.filter source predicate) s s'.filtered
  | order {source selector : Expr} {direction : Direction} {text : String} {s mid s' : State σ} :
      directionText? direction = some text → Visits mapper root source s mid → Visits mapper root selector mid s' →
      Visits mapper root (.order source selector direction) s (s'.push (.literal text)).ordered
  | asOf {source : Expr} {time : Timestamp} {s s' : State σ} : Visits mapper root source s s' →
      Visits mapper root (.asOf source time) s (s'.atTime time)
  | group {e left right : Expr} {text : String} {s mid s' : State σ} : Joins e left text right →
      Visits mapper root left (s.push .groupOpen) mid → Visits mapper root right (mid.push (.literal text)) s' →
      Visits mapper root e s (s'.push .groupClose)
  | not {operand : Expr} {s s' : State σ} : Visits mapper root operand (s.push (.literal " NOT ")) s' →
      Visits mapper root (.unary .not operand) s s'
  | typeAs {operand : Expr} {s s' : State σ} : Visits mapper root operand s s' →
      Visits mapper root (.unary .typeAs operand) s s'
  /-- The value of a property is the property. -/
  | value {target : Expr} {name : String} {s s' : State σ} : isItem target = false →
      (isProperty target && name == valueMember) = true → Visits mapper root target s s' →
      Visits mapper root (.member target name) s s'
  | field {e : Expr} {key entity name : String} {s : State σ} {fields : σ} : Reads e key →
      s.context root = some entity → mapper.resolve entity key s.fields = (.ok name, fields) →
      Visits mapper root e s (State.push { s with fields } (.field name))
  | table {entity : String} {s : State σ} :
      Visits mapper root (.constant (.table entity)) s { s with pending := [] }
  | constant {value : Constant} {f : Fragment} {s : State σ} : constantFragment? value = some f →
      Visits mapper root (.constant value) s (s.push f)
  | parameter {name : String} {s : State σ} : Visits mapper root (.parameter name) s s
  | lambda {name : String} {body : Expr} {s s' : State σ} : Visits mapper root body s s' →
      Visits mapper root (.lambda name body) s s'
  | callNil {method : String} {s : State σ} : Visits mapper root (.call method []) s s
  | callCons {method : String} {e : Expr} {rest : List Expr} {s mid s' : State σ} : Visits mapper root e s mid →
      Visits mapper root (.call method rest) mid s' → Visits mapper root (.call method (e :: rest)) s s'

/-! ## The rules are the walk -/

section Rules

variable {mapper : FieldMapper σ} {root : Option String}

theorem Visits.of_field {e : Expr} {key : String} (he : Reads e key) {s s' : State σ}
    (h : (do emit (.field (← resolve mapper root key)) : Walk σ Unit) s = (.ok (), s')) :
    Visits mapper root e s s' := by
  obtain ⟨name, mid, hresolve, hemit⟩ := Walk.bind_eq_ok h
  obtain ⟨entity, fields, hcontext, hfound, rfl⟩ := resolve_eq_ok.1 hresolve
  cases hemit
  exact .field he hcontext hfound

theorem Visits.of_group {e left right : Expr} {text : Walk σ String} {s s' : State σ}
    (hleft : ∀ {s s' : State σ}, visit mapper root left s = (.ok (), s') → Visits mapper root left s s')
    (htext : ∀ {s t s'}, text s = (.ok t, s') → s' = s ∧ Joins e left t right)
    (hright : ∀ {s s' : State σ}, visit mapper root right s = (.ok (), s') → Visits mapper root right s s')
    (h : visitGroup (visit mapper root left) text (visit mapper root right) s = (.ok (), s')) :
    Visits mapper root e s s' := by
  obtain ⟨⟨⟩, opened, hopen, h⟩ := Walk.bind_eq_ok h
  obtain ⟨⟨⟩, mid, hl, h⟩ := Walk.bind_eq_ok h
  obtain ⟨t, _, ht, h⟩ := Walk.bind_eq_ok h
  obtain ⟨⟨⟩, operated, hoperator, h⟩ := Walk.bind_eq_ok h
  obtain ⟨⟨⟩, last, hr, hclose⟩ := Walk.bind_eq_ok h
  obtain ⟨rfl, hjoins⟩ := htext ht
  cases hopen
  cases hoperator
  cases hclose
  exact .group hjoins (hleft hl) (hright hr)

mutual

/-- A walk that ends well follows the rules. -/
theorem visits_of_visit : ∀ (e : Expr) {s s' : State σ}, visit mapper root e s = (.ok (), s') →
    Visits mapper root e s s'
  | .select source projection, s, s', h => by
    obtain ⟨⟨⟩, mid, hsource, h⟩ := Walk.bind_eq_ok h
    cases h
    exact .select (visits_of_visit source hsource)
  | .filter source predicate, s, s', h => by
    obtain ⟨⟨⟩, mid, hsource, h⟩ := Walk.bind_eq_ok h
    obtain ⟨⟨⟩, last, hpredicate, h⟩ := Walk.bind_eq_ok h
    cases (flushFilter_eq last).symm.trans h
    exact .filter (visits_of_visit source hsource) (visits_of_visit predicate hpredicate)
  | .order source selector direction, s, s', h => by
    obtain ⟨⟨⟩, mid, hsource, h⟩ := Walk.bind_eq_ok h
    obtain ⟨⟨⟩, last, hselector, h⟩ := Walk.bind_eq_ok h
    obtain ⟨text, hdirection, rfl⟩ := endOrder_eq_ok.1 h
    exact .order hdirection (visits_of_visit source hsource) (visits_of_visit selector hselector)
  | .asOf source time, s, s', h => by
    obtain ⟨⟨⟩, mid, hsource, h⟩ := Walk.bind_eq_ok h
    cases h
    exact .asOf (visits_of_visit source hsource)
  | .domain op left right, s, s', h =>
    .of_group (visits_of_visit left) (fun ht => by cases ht; exact ⟨rfl, .domain⟩) (visits_of_visit right) h
  | .binary op left right, s, s', h => by
    refine .of_group (visits_of_visit left) (fun ht => ?_) (visits_of_visit right) h
    cases hop : binaryText? op with
    | none => rw [hop] at ht; cases ht
    | some text => rw [hop] at ht; cases ht; exact ⟨rfl, .binary hop⟩
  | .unary .not operand, s, s', h => by
    obtain ⟨⟨⟩, mid, hemit, h⟩ := Walk.bind_eq_ok h
    cases hemit
    exact .not (visits_of_visit operand h)
  | .unary .typeAs operand, s, s', h => .typeAs (visits_of_visit operand h)
  | .unary .convert _, s, s', h | .unary .negate _, s, s', h => by cases h
  | .member target name, s, s', h => by
    rw [visit] at h
    split at h
    · rename_i hitem
      exact .of_field (.member hitem) h
    · rename_i hitem
      split at h
      · rename_i hvalue
        exact .value (by simpa using hitem) hvalue (visits_of_visit target h)
      · cases h
  | .indexer key, s, s', h => .of_field .indexer h
  | .constant value, s, s', h => by
    by_cases htable : ∃ entity, value = .table entity
    · obtain ⟨entity, rfl⟩ := htable
      cases h
      exact .table
    · rw [visit, visitConstant_eq htable] at h
      cases hf : constantFragment? value with
      | none => rw [hf] at h; cases h
      | some f => rw [hf] at h; cases h; exact .constant hf
  | .parameter _, s, s', h => by cases h; exact .parameter
  | .lambda _ body, s, s', h => .lambda (visits_of_visit body h)
  | .call method arguments, s, s', h => visits_of_visitAll method arguments h

theorem visits_of_visitAll (method : String) : ∀ (es : List Expr) {s s' : State σ},
    visitAll mapper root es s = (.ok (), s') → Visits mapper root (.call method es) s s'
  | [], s, s', h => by cases h; exact .callNil
  | e :: rest, s, s', h => by
    obtain ⟨⟨⟩, mid, hfirst, hrest⟩ := Walk.bind_eq_ok h
    exact .callCons (visits_of_visit e hfirst) (visits_of_visitAll method rest hrest)

end

/-- The rules lead where the walk ends. -/
theorem Visits.visit_eq {e : Expr} {s s' : State σ} (h : Visits mapper root e s s') :
    visit mapper root e s = (.ok (), s') := by
  induction h with
  | select _ ih | asOf _ ih => exact (Walk.bind_ok ih).trans rfl
  | @filter source predicate s mid s' _ _ ihs ihp =>
    exact (Walk.bind_ok ihs).trans ((Walk.bind_ok ihp).trans (flushFilter_eq s'))
  | order hdirection _ _ ihs ihe =>
    exact (Walk.bind_ok ihs).trans ((Walk.bind_ok ihe).trans (endOrder_eq_ok.2 ⟨_, hdirection, rfl⟩))
  | @group e left right text s mid s' hjoins _ _ ihl ihr =>
    have hboth : visitGroup (visit mapper root left) (pure text) (visit mapper root right) s =
        (.ok (), s'.push .groupClose) :=
      (Walk.bind_ok rfl).trans ((Walk.bind_ok ihl).trans ((Walk.bind_ok rfl).trans ((Walk.bind_ok rfl).trans
        ((Walk.bind_ok ihr).trans rfl))))
    cases hjoins with
    | domain => exact hboth
    | binary hop => rw [visit, hop]; exact hboth
  | not _ ih => exact (Walk.bind_ok rfl).trans ih
  | typeAs _ ih | lambda _ ih => exact ih
  | value hitem hvalue _ ih => rw [visit, hitem, hvalue]; exact ih
  | field he hcontext hfound =>
    have hresolve := resolve_eq_ok.2 ⟨_, _, hcontext, hfound, rfl⟩
    cases he with
    | member hitem => rw [visit, hitem]; exact (Walk.bind_ok hresolve).trans rfl
    | indexer => exact (Walk.bind_ok hresolve).trans rfl
  | table | parameter | callNil => rfl
  | @constant value f s hf =>
    have htable : ¬∃ entity, value = .table entity := by
      rintro ⟨entity, rfl⟩
      cases hf
    rw [visit, visitConstant_eq htable, hf]
    rfl
  | callCons _ _ ihe ihrest => exact (Walk.bind_ok ihe).trans ihrest

theorem visits_iff {e : Expr} {s s' : State σ} :
    Visits mapper root e s s' ↔ visit mapper root e s = (.ok (), s') :=
  ⟨Visits.visit_eq, visits_of_visit e⟩

end Rules

end WorkItemQuery.Compilation
