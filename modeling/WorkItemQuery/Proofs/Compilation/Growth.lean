/-
What a walk adds to a statement. A walk that ends well takes nothing away: filters, orders and projections are added
behind those that are there, and an entity stays once there is one. What is added can be read off the nodes of the
expression, in the order in which the walk is done with them: each select adds its projection, each order one order,
and each filter at most one filter, none if nothing is pending at its end. Only what is below a conversion at the
target of a member is out of reach of the walk and adds nothing.
-/
import WorkItemQuery.Proofs.Compilation.FilterClauses
import WorkItemQuery.Proofs.Compilation.Refusal

namespace WorkItemQuery

open Compilation Walk Time

/-! ## The nodes of an expression -/

namespace Expr

mutual

/-- The nodes of an expression, each behind its parts, and the source of an operator before what else it has. A
conversion at the target of a member is there without its parts. -/
def nodes : Expr → List Expr
  | .select source projection => source.nodes ++ [.select source projection]
  | .filter source predicate => source.nodes ++ (predicate.nodes ++ [.filter source predicate])
  | .order source selector direction => source.nodes ++ (selector.nodes ++ [.order source selector direction])
  | .asOf source time => source.nodes ++ [.asOf source time]
  | .domain op subject target => subject.nodes ++ target.nodes ++ [.domain op subject target]
  | .binary op left right => left.nodes ++ right.nodes ++ [.binary op left right]
  | .unary op operand => operand.nodes ++ [.unary op operand]
  | .member target name => (if target.isConversion then [target] else target.nodes) ++ [.member target name]
  | .indexer key => [.indexer key]
  | .constant value => [.constant value]
  | .parameter name => [.parameter name]
  | .lambda name body => body.nodes ++ [.lambda name body]
  | .call method arguments => nodesAll arguments ++ [.call method arguments]

def nodesAll : List Expr → List Expr
  | [] => []
  | e :: rest => e.nodes ++ nodesAll rest

end

/-- The projection of a select. -/
def projection? : Expr → Option Projection
  | .select _ projection => some projection
  | _ => none

/-- The entity whose items a select is about, if its source has one. -/
def selectedEntity? : Expr → Option String
  | .select source _ => source.elementType
  | _ => none

def isFilter : Expr → Bool
  | .filter _ _ => true
  | _ => false

def isOrder : Expr → Bool
  | .order _ _ _ => true
  | _ => false

/-- A node that by itself adds neither a projection nor a clause. -/
def isSilent (e : Expr) : Bool := e.projection?.isNone && !e.isFilter && !e.isOrder

end Expr

/-! ## What nodes add to a statement -/

/-- A statement with what some nodes add to it. -/
structure Statement.Extends (nodes : List Expr) (q q' : Statement) : Prop where
  entity : q'.entity = q.entity.or (nodes.findSome? Expr.selectedEntity?)
  projections : q'.projections = q.projections ++ nodes.filterMap Expr.projection?
  filters : ∃ more, q'.filters = q.filters ++ more ∧ more.length ≤ nodes.countP Expr.isFilter
  orders : ∃ more, q'.orders = q.orders ++ more ∧ more.length = nodes.countP Expr.isOrder

namespace Statement.Extends

variable {q mid q' : Statement} {nodes more : List Expr}

theorem none (q : Statement) : Extends [] q q where
  entity := by simp
  projections := by simp
  filters := ⟨[], by simp, by simp⟩
  orders := ⟨[], by simp, by simp⟩

theorem append (h : Extends nodes q mid) (h' : Extends more mid q') : Extends (nodes ++ more) q q' where
  entity := by rw [h'.entity, h.entity, List.findSome?_append, Option.or_assoc]
  projections := by rw [h'.projections, h.projections, List.filterMap_append, List.append_assoc]
  filters := by
    obtain ⟨added, hadded, hlength⟩ := h.filters
    obtain ⟨later, hlater, hlength'⟩ := h'.filters
    refine ⟨added ++ later, by rw [hlater, hadded, List.append_assoc], ?_⟩
    rw [List.length_append, List.countP_append]
    omega
  orders := by
    obtain ⟨added, hadded, hlength⟩ := h.orders
    obtain ⟨later, hlater, hlength'⟩ := h'.orders
    refine ⟨added ++ later, by rw [hlater, hadded, List.append_assoc], ?_⟩
    rw [List.length_append, List.countP_append, hlength, hlength']

/-- A node that adds nothing makes no difference. -/
theorem silent_iff {e : Expr} (h : e.isSilent = true) : Extends (nodes ++ [e]) q q' ↔ Extends nodes q q' := by
  have hnone : e.selectedEntity? = Option.none ∧ e.projection? = Option.none ∧
      e.isFilter = false ∧ e.isOrder = false := by
    cases e with
    | select _ _ | filter _ _ | order _ _ _ => cases h
    | _ => exact ⟨rfl, rfl, rfl, rfl⟩
  obtain ⟨hentity, hprojection, hfilter, horder⟩ := hnone
  constructor <;> intro hextends <;>
    exact ⟨by simpa [hentity] using hextends.entity, by simpa [hprojection] using hextends.projections,
      by simpa [hfilter] using hextends.filters, by simpa [horder] using hextends.orders⟩

theorem silent (h : Extends nodes q q') {e : Expr} (he : e.isSilent = true) : Extends (nodes ++ [e]) q q' :=
  (silent_iff he).2 h

end Statement.Extends

namespace Compilation

variable {σ : Type} {mapper : FieldMapper σ} {root : Option String}

theorem length_clauseOf_le (parts : List Fragment) : (clauseOf parts).length ≤ 1 := by
  cases parts <;> simp [clauseOf]

/-! ## What a walk adds to a statement -/

theorem extends_projecting (source : Expr) (projection : Projection) (s : State σ) :
    s.statement.Extends [.select source projection] (s.projecting source.elementType projection).statement := by
  obtain ⟨hfilters, horders⟩ := clauses_projected source.elementType projection s.statement
  constructor
  · simp [State.projecting, entity_projected, Expr.selectedEntity?]
  · simp [State.projecting, projections_projected, Expr.projection?]
  · exact ⟨[], by simp [State.projecting, hfilters], by simp⟩
  · exact ⟨[], by simp [State.projecting, horders], by simp [Expr.isOrder]⟩

/-- What is pending becomes a filter, if there is anything. -/
theorem extends_filtered (source predicate : Expr) (s : State σ) :
    s.statement.Extends [.filter source predicate] s.filtered.statement :=
  ⟨by simp [State.filtered, Expr.selectedEntity?], by simp [State.filtered, Expr.projection?],
    ⟨_, rfl, length_clauseOf_le _⟩, ⟨[], by simp [State.filtered], by simp [Expr.isOrder]⟩⟩

/-- The word of the direction is pending at least, so there is an order. -/
theorem extends_ordered (source selector : Expr) (direction : Direction) (f : Fragment) (s : State σ) :
    s.statement.Extends [.order source selector direction] (s.push f).ordered.statement := by
  have hclause : (clauseOf (s.push f).pending).length = 1 := by
    unfold State.push
    cases s.pending <;> rfl
  exact ⟨by simp [State.ordered, State.push, Expr.selectedEntity?],
    by simp [State.ordered, State.push, Expr.projection?], ⟨[], by simp [State.ordered, State.push], by simp⟩,
    ⟨_, rfl, by simp [hclause, Expr.isOrder]⟩⟩

/-- An item of which a member is taken is all that the walk could come to there, and adds nothing. -/
theorem nodes_of_isItem {target : Expr} (h : isItem target = true) :
    (if target.isConversion then [target] else target.nodes) = [target] ∧ target.isSilent = true := by
  cases target with
  | parameter name => exact ⟨by simp [Expr.isConversion, Expr.nodes], rfl⟩
  | unary op operand =>
    cases op with
    | convert => exact ⟨rfl, rfl⟩
    | _ => cases h
  | _ => cases h

theorem nodes_reads {e : Expr} {key : String} (h : Reads e key) (q : Statement) : q.Extends e.nodes q := by
  cases h with
  | member hitem =>
    obtain ⟨hnodes, hsilent⟩ := nodes_of_isItem hitem
    rw [Expr.nodes, hnodes]
    exact ((Statement.Extends.none q).silent hsilent).silent rfl
  | indexer => exact (Statement.Extends.none q).silent rfl

theorem nodes_value {target : Expr} (h : isItem target = false) (name : String) :
    (Expr.member target name).nodes = target.nodes ++ [.member target name] := by
  have hconversion : ¬target.isConversion = true := by
    intro hconversion
    rw [isItem_of_isConversion hconversion] at h
    cases h
  rw [Expr.nodes, if_neg hconversion]

/-- The walk over an expression adds what its nodes add. -/
theorem extends_of_visits {e : Expr} {s s' : State σ} (h : Visits mapper root e s s') :
    s.statement.Extends e.nodes s'.statement := by
  induction h with
  | select _ ih => exact ih.append (extends_projecting _ _ _)
  | filter _ _ ihs ihp => exact ihs.append (ihp.append (extends_filtered _ _ _))
  | order _ _ _ ihs ihe => exact ihs.append (ihe.append (extends_ordered _ _ _ _ _))
  | @asOf source time s s' _ ih =>
    have hsilent := ih.silent (e := .asOf source time) rfl
    exact ⟨hsilent.entity, hsilent.projections, hsilent.filters, hsilent.orders⟩
  | group hjoins _ _ ihl ihr => cases hjoins <;> exact (ihl.append ihr).silent rfl
  | not _ ih | typeAs _ ih | lambda _ ih => exact ih.silent rfl
  | value hitem _ _ ih =>
    rw [nodes_value hitem]
    exact ih.silent rfl
  | field hreads _ _ => exact nodes_reads hreads _
  | table | constant _ | parameter | callNil => exact (Statement.Extends.none _).silent rfl
  | callCons _ _ ihe ihrest => exact (ihe.append ((Statement.Extends.silent_iff rfl).1 ihrest)).silent rfl

/-- A filter or an order ends the pending clause. -/
theorem pending_of_visit {e : Expr} {s s' : State σ} (h : visit mapper root e s = (.ok (), s'))
    (he : e.isFilter = true ∨ e.isOrder = true) : s'.pending = [] := by
  have hleaves : ∀ pending, e.leavesPending pending = false := by
    intro pending
    cases e with
    | filter _ _ | order _ _ _ => simp [Expr.leavesPending]
    | _ => simp [Expr.isFilter, Expr.isOrder] at he
  rw [← isPending_eq_false, (account_of_visits (visits_of_visit e h)).pending, hleaves]

/-- A walk that ends well takes nothing from the statement, and an entity that it has stays. What it adds are the
projections of the selects in the order of the walk, as many orders as there are, and at most as many filters; if there
is no entity yet, it is that of the first select whose source has one. After a filter or an order nothing is pending. -/
theorem statement_grows {e : Expr} {s s' : State σ} (h : visit mapper root e s = (.ok (), s')) :
    let q := s.statement
    let q' := s'.statement
    (q.filters <+: q'.filters ∧ q.orders <+: q'.orders ∧ q.projections <+: q'.projections) ∧
    (∀ entity, q.entity = some entity → q'.entity = some entity) ∧
    q'.entity = q.entity.or (e.nodes.findSome? Expr.selectedEntity?) ∧
    q'.projections = q.projections ++ e.nodes.filterMap Expr.projection? ∧
    q'.orders.length = q.orders.length + e.nodes.countP Expr.isOrder ∧
    q'.filters.length ≤ q.filters.length + e.nodes.countP Expr.isFilter ∧
    (e.isFilter = true ∨ e.isOrder = true → s'.pending = []) := by
  intro q q'
  have hextends : q.Extends e.nodes q' := extends_of_visits (visits_of_visit e h)
  obtain ⟨filters, hfilters, hlength⟩ := hextends.filters
  obtain ⟨orders, horders, hlength'⟩ := hextends.orders
  refine ⟨⟨⟨filters, hfilters.symm⟩, ⟨orders, horders.symm⟩, ⟨_, hextends.projections.symm⟩⟩, ?_, hextends.entity,
    hextends.projections, ?_, ?_, pending_of_visit h⟩
  · intro entity hentity
    rw [hextends.entity, hentity, Option.some_or]
  · rw [horders, List.length_append, hlength']
  · rw [hfilters, List.length_append]
    exact Nat.add_le_add_left hlength _

/-- From a state in the middle of a walk: the filter in the sort key adds nothing, since nothing is pending at its end,
the query below the conversion is not visited, and the entity of the select in the sort key comes too late. -/
theorem statement_grows_nested :
    let task := Registry.ofMappings [EntityMapping.new "Task" |>.property "Title" "Title"]
    let bugs := Expr.select (Expr.table "Bug") .all
    let hidden := Expr.member (.unary .convert (.order bugs (.field "Rank") .ascending)) "Title"
    let source := Expr.filter (.select (Expr.table "Task") (.fields ["Title"]))
      (.binary .equal hidden (.constant (.string "a")))
    let e := Expr.order source (.call "Key" [.filter bugs (.parameter "it"), .field "Title"]) .descending
    let s : State Registry :=
      { fields := task, pending := [.groupOpen],
        statement := { entity := some "Task", projections := [.all], filters := [.literal "1"] } }
    ∃ s', visit .registry none e s = (.ok (), s') ∧ s'.statement.entity = some "Task" ∧
      s'.statement.projections = [.all, .fields ["Title"], .all] ∧ s'.statement.orders.length = 1 ∧
      s'.statement.filterTexts = ["1", "(Title = 'a')"] ∧ e.nodes.countP Expr.isFilter = 2 ∧ s'.pending = [] := by
  intro task bugs hidden source e s
  obtain ⟨s', hs', htexts⟩ : ∃ s', visit .registry none e s = (.ok (), s') ∧
    s'.statement.filterTexts = ["1", "(Title = 'a')"] := ⟨_, rfl, by decide +kernel⟩
  obtain ⟨-, hentity, -, hprojections, horders, -, hpending⟩ := statement_grows hs'
  exact ⟨s', hs', hentity "Task" rfl, hprojections, horders, htexts, rfl, hpending (.inr rfl)⟩

end Compilation

end WorkItemQuery
