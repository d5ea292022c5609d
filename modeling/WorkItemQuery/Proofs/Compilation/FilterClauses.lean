/-
Whose fragments a filter holds. A filter ends the pending clause after the walk over its predicate, so its clause
holds the fragments of the predicate, and in front of them whatever was pending before: what the source has left
behind, say an argument of a call that comes after the table. Only a table, a filter or an order inside of the
predicate cuts that off. Both can be seen from the expression alone, so it can be seen from an expression whether
each of its filters holds the fragments of its own predicate and nothing else.
-/
import WorkItemQuery.Proofs.Compilation.Groups

namespace WorkItemQuery

open Compilation Walk Log

/-! ## What can be seen from an expression -/

/-- Whether a clause that was pending before is cut off. -/
def Origin.isCut : Origin → Bool
  | before => false
  | outside | inside => true

namespace Expr

/-- Whether the walk over an expression cuts off the clause that is pending before it. -/
def cuts (e : Expr) : Bool := e.origin.isCut

mutual

/-- Whether anything is pending after an expression, given whether anything is before it. -/
def leavesPending : Expr → Bool → Bool
  | .constant (.table _), _ | .filter _ _, _ | .order _ _ _, _ => false
  | .constant _, _ | .indexer _, _ | .domain _ _ _, _ | .binary _ _ _, _ => true
  | .select source _, pending | .asOf source _, pending => source.leavesPending pending
  | .unary .not operand, _ => operand.leavesPending true
  | .unary _ operand, pending => operand.leavesPending pending
  | .member target _, pending => isItem target || target.leavesPending pending
  | .lambda _ body, pending => body.leavesPending pending
  | .call _ arguments, pending => leavesPendingAll arguments pending
  | .parameter _, pending => pending

def leavesPendingAll : List Expr → Bool → Bool
  | [], pending => pending
  | e :: rest, pending => leavesPendingAll rest (e.leavesPending pending)

end

mutual

/-- Whether the predicate of each filter in an expression begins with nothing pending or cuts it off, given whether
anything is pending before the expression. -/
def keepsFiltersApart : Expr → Bool → Bool
  | .filter source predicate, pending =>
    source.keepsFiltersApart pending && (predicate.keepsFiltersApart (source.leavesPending pending) &&
      (predicate.cuts || !source.leavesPending pending))
  | .order source selector _, pending =>
    source.keepsFiltersApart pending && selector.keepsFiltersApart (source.leavesPending pending)
  | .domain _ left right, _ | .binary _ left right, _ => left.keepsFiltersApart true && right.keepsFiltersApart true
  | .select source _, pending | .asOf source _, pending => source.keepsFiltersApart pending
  | .unary .not operand, _ => operand.keepsFiltersApart true
  | .unary _ operand, pending => operand.keepsFiltersApart pending
  | .member target _, pending => isItem target || target.keepsFiltersApart pending
  | .lambda _ body, pending => body.keepsFiltersApart pending
  | .call _ arguments, pending => keepsFiltersApartAll arguments pending
  | .constant _, _ | .indexer _, _ | .parameter _, _ => true

def keepsFiltersApartAll : List Expr → Bool → Bool
  | [], _ => true
  | e :: rest, pending => e.keepsFiltersApart pending && keepsFiltersApartAll rest (e.leavesPending pending)

end

end Expr

namespace Compilation

variable {σ : Type}

/-! ## What is pending before a walk -/

/-- Two states that look up fields alike, of which the first has the given fragments in front of what is pending in
the second. -/
structure Ahead (before : List Fragment) (s t : State σ) : Prop where
  fields : s.fields = t.fields
  entity : s.statement.entity = t.statement.entity
  pending : s.pending = before ++ t.pending

namespace Ahead

variable {before : List Fragment} {s t : State σ}

theorem context (h : Ahead before s t) (root : Option String) : s.context root = t.context root := by
  rw [State.context, h.entity, State.context]

theorem push (h : Ahead before s t) (f : Fragment) : Ahead before (s.push f) (t.push f) :=
  ⟨h.fields, h.entity, by simp [State.push, h.pending]⟩

theorem projecting (h : Ahead before s t) (source : Option String) (projection : Projection) :
    Ahead before (s.projecting source projection) (t.projecting source projection) :=
  ⟨h.fields, by simp only [State.projecting, entity_projected, h.entity], h.pending⟩

/-- Once the clause has ended nothing is left of what was in front. -/
theorem filtered (h : Ahead before s t) : Ahead [] s.filtered t.filtered := ⟨h.fields, h.entity, rfl⟩

theorem ordered (h : Ahead before s t) : Ahead [] s.ordered t.ordered := ⟨h.fields, h.entity, rfl⟩

end Ahead

/-- What is left of the fragments from before, given whether they are cut off. -/
def carry (cut : Bool) (before : List Fragment) : List Fragment := if cut then [] else before

theorem carry_carry (cut cut' : Bool) (before : List Fragment) :
    carry cut' (carry cut before) = carry (cut || cut') before := by
  cases cut <;> cases cut' <;> rfl

theorem isCut_andThen (o o' : Origin) : (o.andThen o').isCut = (o.isCut || o'.isCut) := by
  cases o <;> cases o' <;> rfl

theorem isCut_grouped (o : Origin) : o.grouped.isCut = o.isCut := by
  cases o <;> rfl

theorem cuts_group {e left right : Expr} {text : String} (h : Joins e left text right) :
    e.cuts = (left.cuts || right.cuts) := by
  cases h <;> rw [Expr.cuts, Expr.origin, isCut_grouped, isCut_andThen] <;> rfl

/-- The walk over an expression leaves what is pending before it where it is, in front of what it adds, or cuts it off;
in all else it does the same whatever is pending. -/
theorem Visits.carries {mapper : FieldMapper σ} {root : Option String} {e : Expr} {s s' : State σ}
    (h : Visits mapper root e s s') {before : List Fragment} {t : State σ} (hst : Ahead before s t) :
    ∃ t', Visits mapper root e t t' ∧ Ahead (carry e.cuts before) s' t' := by
  induction h generalizing before t with
  | select _ ih =>
    obtain ⟨t', ht', hend⟩ := ih hst
    exact ⟨_, .select ht', hend.projecting _ _⟩
  | filter _ _ ihs ihp =>
    obtain ⟨mid, hmid, hst⟩ := ihs hst
    obtain ⟨t', ht', hst⟩ := ihp hst
    exact ⟨_, .filter hmid ht', hst.filtered⟩
  | order hdirection _ _ ihs ihe =>
    obtain ⟨mid, hmid, hst⟩ := ihs hst
    obtain ⟨t', ht', hst⟩ := ihe hst
    exact ⟨_, .order hdirection hmid ht', (hst.push _).ordered⟩
  | asOf _ ih =>
    obtain ⟨t', ht', hend⟩ := ih hst
    exact ⟨_, .asOf ht', hend.fields, hend.entity, hend.pending⟩
  | group hjoins _ _ ihl ihr =>
    obtain ⟨mid, hmid, hst⟩ := ihl (hst.push _)
    obtain ⟨t', ht', hst⟩ := ihr (hst.push _)
    refine ⟨_, .group hjoins hmid ht', ?_⟩
    rw [cuts_group hjoins, ← carry_carry]
    exact hst.push _
  | not _ ih =>
    obtain ⟨t', ht', hend⟩ := ih (hst.push _)
    exact ⟨t', .not ht', hend⟩
  | typeAs _ ih =>
    obtain ⟨t', ht', hend⟩ := ih hst
    exact ⟨t', .typeAs ht', hend⟩
  | lambda _ ih =>
    obtain ⟨t', ht', hend⟩ := ih hst
    exact ⟨t', .lambda ht', hend⟩
  | value hitem hvalue _ ih =>
    obtain ⟨t', ht', hend⟩ := ih hst
    refine ⟨t', .value hitem hvalue ht', ?_⟩
    rw [Expr.cuts, (origin_value hitem _).1]
    exact hend
  | field he hcontext hfound =>
    rw [hst.context root] at hcontext
    rw [hst.fields] at hfound
    refine ⟨_, .field he hcontext hfound, ?_⟩
    rw [Expr.cuts, (origin_reads he).1]
    exact ⟨rfl, hst.entity, by simp [State.push, hst.pending, carry, Origin.isCut]⟩
  | table => exact ⟨_, .table, hst.fields, hst.entity, rfl⟩
  | constant hf =>
    refine ⟨_, .constant hf, ?_⟩
    rw [Expr.cuts, (origin_constant hf).1]
    exact hst.push _
  | parameter => exact ⟨t, .parameter, hst⟩
  | callNil => exact ⟨t, .callNil, hst⟩
  | @callCons method e rest s mid s' _ _ ihe ihrest =>
    obtain ⟨tmid, hmid, hst⟩ := ihe hst
    obtain ⟨t', ht', hst⟩ := ihrest hst
    have hcuts : (Expr.call method (e :: rest)).cuts = (e.cuts || (Expr.call method rest).cuts) := isCut_andThen _ _
    refine ⟨t', .callCons hmid ht', ?_⟩
    rw [hcuts, ← carry_carry]
    exact hst

/-! ## The filters that a walk visits -/

/-- A filter that a walk visits: its predicate, and the state in which the walk comes to it from the source. -/
structure FilterVisit (σ : Type) where
  predicate : Expr
  state : State σ

namespace FilterVisit

/-- The clause that the filter adds to the statement, if there is one. -/
def clause (mapper : FieldMapper σ) (root : Option String) (v : FilterVisit σ) : List Fragment :=
  clauseOf (visit mapper root v.predicate v.state).2.pending

/-- The clause holds the given fragments, and after them what the walk over the predicate leaves pending if nothing is
pending before it. -/
def HoldsAfter (before : List Fragment) (mapper : FieldMapper σ) (root : Option String) (v : FilterVisit σ) : Prop :=
  ∃ alone, visit mapper root v.predicate { v.state with pending := [] } = (.ok (), alone) ∧
    v.clause mapper root = clauseOf (before ++ alone.pending)

/-- The fragments from before the predicate that are still pending at its end. -/
def carried (v : FilterVisit σ) : List Fragment := if v.predicate.cuts then [] else v.state.pending

end FilterVisit

mutual

/-- The filters that the walk over an expression visits, in the order in which they add their clauses. -/
def filterVisits (mapper : FieldMapper σ) (root : Option String) : Expr → State σ → List (FilterVisit σ)
  | .filter source predicate, s =>
    let mid := (visit mapper root source s).2
    filterVisits mapper root source s ++ (filterVisits mapper root predicate mid ++ [⟨predicate, mid⟩])
  | .order source selector _, s =>
    filterVisits mapper root source s ++ filterVisits mapper root selector (visit mapper root source s).2
  | .select source _, s | .asOf source _, s => filterVisits mapper root source s
  | .domain op left right, s => inGroup (visit mapper root left) (filterVisits mapper root left) (domainText op)
      (filterVisits mapper root right) s
  | .binary op left right, s => inGroup (visit mapper root left) (filterVisits mapper root left)
      ((binaryText? op).getD "") (filterVisits mapper root right) s
  | .unary .not operand, s => filterVisits mapper root operand (emitText " NOT " s).2
  | .unary .typeAs operand, s => filterVisits mapper root operand s
  | .unary _ _, _ => []
  | .member target _, s => if isItem target then [] else filterVisits mapper root target s
  | .lambda _ body, s => filterVisits mapper root body s
  | .call _ arguments, s => filterVisitsAll mapper root arguments s
  | .constant _, _ | .indexer _, _ | .parameter _, _ => []
where
  inGroup (left : Walk σ Unit) (inLeft : State σ → List (FilterVisit σ)) (text : String)
      (inRight : State σ → List (FilterVisit σ)) (s : State σ) : List (FilterVisit σ) :=
    let opened := (emit .groupOpen s).2
    inLeft opened ++ inRight (emitText text (left opened).2).2

def filterVisitsAll (mapper : FieldMapper σ) (root : Option String) : List Expr → State σ → List (FilterVisit σ)
  | [], _ => []
  | e :: rest, s => filterVisits mapper root e s ++ filterVisitsAll mapper root rest (visit mapper root e s).2

end

theorem clauseOf_append_eq_iff {before parts : List Fragment} :
    clauseOf (before ++ parts) = clauseOf parts ↔ before = [] := by
  constructor
  · intro h
    cases before with
    | nil => rfl
    | cons f before =>
      cases parts with
      | nil => cases h
      | cons g parts =>
        have hparts : f :: before ++ g :: parts = g :: parts := by simpa [clauseOf] using h
        exact List.append_left_eq_self.1 hparts
  · rintro rfl
    rfl

namespace FilterVisit

variable {mapper : FieldMapper σ} {root : Option String} {v : FilterVisit σ}

theorem holdsAfter_carried {s' : State σ} (h : Visits mapper root v.predicate v.state s') :
    v.HoldsAfter v.carried mapper root := by
  obtain ⟨alone, halone, hend⟩ := h.carries (t := { v.state with pending := [] }) ⟨rfl, rfl, (List.append_nil _).symm⟩
  refine ⟨alone, halone.visit_eq, ?_⟩
  rw [clause, h.visit_eq, hend.pending]
  rfl

/-- The walk over the predicate alone ends in one way, so the fragments in front of it are determined. -/
theorem holdsAfter_nil_iff (h : v.HoldsAfter v.carried mapper root) :
    v.HoldsAfter [] mapper root ↔ v.predicate.cuts = true ∨ v.state.pending = [] := by
  obtain ⟨alone, halone, hclause⟩ := h
  have howned : v.HoldsAfter [] mapper root ↔ v.clause mapper root = clauseOf alone.pending := by
    constructor
    · rintro ⟨other, hother, hclauses⟩
      cases halone.symm.trans hother
      exact hclauses
    · exact fun hclauses => ⟨alone, halone, hclauses⟩
  rw [howned, hclause, clauseOf_append_eq_iff, carried]
  cases v.predicate.cuts <;> simp

end FilterVisit

/-! ## An account of a walk -/

def State.isPending (s : State σ) : Bool := !s.pending.isEmpty

theorem isPending_eq_false {s : State σ} : s.isPending = false ↔ s.pending = [] := by
  simp [State.isPending]

theorem isPending_push (s : State σ) (f : Fragment) : (s.push f).isPending = true := by
  simp [State.isPending, State.push]

/-- How a walk that visits the given filters changes the clauses: whether anything is pending after it, what it adds to
the filters of the statement, what these hold, and when all of it is their own. -/
structure Account (mapper : FieldMapper σ) (root : Option String) (visits : List (FilterVisit σ)) (leaves keeps : Bool)
    (s s' : State σ) : Prop where
  pending : s'.isPending = leaves
  filters : s'.statement.filters = s.statement.filters ++ visits.flatMap (FilterVisit.clause mapper root)
  carried : ∀ v ∈ visits, v.HoldsAfter v.carried mapper root
  own : (∀ v ∈ visits, v.HoldsAfter [] mapper root) ↔ keeps = true

namespace Account

variable {mapper : FieldMapper σ} {root : Option String} {visits more : List (FilterVisit σ)}
  {leaves leaves' keeps keeps' : Bool} {s mid s' : State σ}

/-- No filter is visited. -/
theorem none (hpending : s'.isPending = leaves) (hfilters : s'.statement.filters = s.statement.filters) :
    Account mapper root [] leaves true s s' :=
  ⟨hpending, by simp [hfilters], by simp, by simp⟩

theorem append (h : Account mapper root visits leaves keeps s mid)
    (h' : Account mapper root more leaves' keeps' mid s') :
    Account mapper root (visits ++ more) leaves' (keeps && keeps') s s' where
  pending := h'.pending
  filters := by rw [h'.filters, h.filters, List.flatMap_append, List.append_assoc]
  carried := List.forall_mem_append.2 ⟨h.carried, h'.carried⟩
  own := by rw [List.forall_mem_append, h.own, h'.own, Bool.and_eq_true]

theorem thenNone (h : Account mapper root visits leaves keeps s mid) (hpending : s'.isPending = leaves')
    (hfilters : s'.statement.filters = mid.statement.filters) : Account mapper root visits leaves' keeps s s' := by
  simpa using h.append (none hpending hfilters)

theorem afterNone (h : Account mapper root visits leaves keeps mid s')
    (hfilters : mid.statement.filters = s.statement.filters) : Account mapper root visits leaves keeps s s' := by
  simpa using (none rfl hfilters).append h

/-- A filter adds a clause with what is pending after its predicate. -/
theorem filtered {predicate : Expr} (hvisits : Visits mapper root predicate mid s') :
    Account mapper root [⟨predicate, mid⟩] false (predicate.cuts || !mid.isPending) s' s'.filtered := by
  have hcarried : FilterVisit.HoldsAfter (FilterVisit.carried ⟨predicate, mid⟩) mapper root ⟨predicate, mid⟩ :=
    FilterVisit.holdsAfter_carried hvisits
  have hclause : FilterVisit.clause mapper root ⟨predicate, mid⟩ = clauseOf s'.pending := by
    rw [FilterVisit.clause, hvisits.visit_eq]
  refine ⟨rfl, by simp [State.filtered, hclause], List.forall_mem_singleton.2 hcarried, ?_⟩
  rw [List.forall_mem_singleton, FilterVisit.holdsAfter_nil_iff hcarried, ← isPending_eq_false]
  simp

end Account

section Rules

variable (mapper : FieldMapper σ) (root : Option String)

theorem filterVisits_group {e left right : Expr} {text : String} (hjoins : Joins e left text right) {s mid : State σ}
    (hleft : Visits mapper root left (s.push .groupOpen) mid) :
    filterVisits mapper root e s = filterVisits mapper root left (s.push .groupOpen) ++
      filterVisits mapper root right (mid.push (.literal text)) := by
  have hmid : (visit mapper root left (s.push .groupOpen)).2 = mid := by rw [hleft.visit_eq]
  rw [← hmid]
  cases hjoins with
  | domain => rw [filterVisits]; rfl
  | binary hop => rw [filterVisits, hop]; rfl

theorem keepsFiltersApart_group {e left right : Expr} {text : String} (hjoins : Joins e left text right)
    (pending : Bool) : e.leavesPending pending = true ∧
      e.keepsFiltersApart pending = (left.keepsFiltersApart true && right.keepsFiltersApart true) := by
  cases hjoins <;> exact ⟨rfl, by rw [Expr.keepsFiltersApart]⟩

theorem keepsFiltersApart_reads {e : Expr} {key : String} (he : Reads e key) (s : State σ) :
    filterVisits mapper root e s = [] ∧ e.leavesPending s.isPending = true ∧
      e.keepsFiltersApart s.isPending = true := by
  cases he with
  | member hitem =>
    exact ⟨by rw [filterVisits, if_pos hitem], by rw [Expr.leavesPending, hitem, Bool.true_or],
      by rw [Expr.keepsFiltersApart, hitem, Bool.true_or]⟩
  | indexer => exact ⟨rfl, rfl, rfl⟩

theorem keepsFiltersApart_value {target : Expr} (hitem : isItem target = false) (name : String) (s : State σ) :
    filterVisits mapper root (.member target name) s = filterVisits mapper root target s ∧
      (Expr.member target name).leavesPending s.isPending = target.leavesPending s.isPending ∧
      (Expr.member target name).keepsFiltersApart s.isPending = target.keepsFiltersApart s.isPending :=
  ⟨by rw [filterVisits, hitem]; rfl, by rw [Expr.leavesPending, hitem, Bool.false_or],
    by rw [Expr.keepsFiltersApart, hitem, Bool.false_or]⟩

variable {mapper root}

/-- The walk over an expression, by its rules. -/
theorem account_of_visits {e : Expr} {s s' : State σ} (h : Visits mapper root e s s') :
    Account mapper root (filterVisits mapper root e s) (e.leavesPending s.isPending) (e.keepsFiltersApart s.isPending)
      s s' := by
  induction h with
  | @select source projection s s' _ ih =>
    exact ih.thenNone ih.pending (clauses_projected source.elementType projection s'.statement).1
  | @filter source predicate s mid s' hsource hpredicate ihs ihp =>
    -- the predicate begins with what the source has left pending
    have hall := ihs.append (ihp.append (.filtered hpredicate))
    rw [filterVisits, Expr.keepsFiltersApart, hsource.visit_eq, ← ihs.pending]
    exact hall
  | order hdirection hsource _ ihs ihe =>
    rw [filterVisits, Expr.keepsFiltersApart, hsource.visit_eq, ← ihs.pending]
    exact (ihs.append ihe).thenNone rfl rfl
  | asOf _ ih => exact ih.thenNone ih.pending rfl
  | @group e left right text s mid s' hjoins hleft _ ihl ihr =>
    obtain ⟨hleaves, hkeeps⟩ := keepsFiltersApart_group hjoins s.isPending
    rw [isPending_push] at ihl ihr
    rw [filterVisits_group mapper root hjoins hleft, hleaves, hkeeps]
    exact ((ihl.append (ihr.afterNone rfl)).thenNone (isPending_push _ _) rfl).afterNone rfl
  | not _ ih =>
    rw [isPending_push] at ih
    exact ih.afterNone rfl
  | typeAs _ ih | lambda _ ih => exact ih
  | value hitem _ _ ih =>
    obtain ⟨hvisits, hleaves, hkeeps⟩ := keepsFiltersApart_value mapper root hitem _ _
    rw [hvisits, hleaves, hkeeps]
    exact ih
  | field he _ _ =>
    obtain ⟨hvisits, hleaves, hkeeps⟩ := keepsFiltersApart_reads mapper root he _
    rw [hvisits, hleaves, hkeeps]
    exact .none (isPending_push _ _) rfl
  | table => exact .none rfl rfl
  | @constant value f s hf =>
    have hleaves : (Expr.constant value).leavesPending s.isPending = true := by
      cases value with
      | table entity => cases hf
      | _ => rfl
    rw [hleaves]
    exact .none (isPending_push _ _) rfl
  | parameter | callNil => exact .none rfl rfl
  | @callCons method e rest s mid s' hfirst _ ihe ihrest =>
    have hmid : (visit mapper root e s).2 = mid := by rw [hfirst.visit_eq]
    rw [ihe.pending, ← hmid] at ihrest
    exact (hmid ▸ ihe).append ihrest

end Rules

end Compilation

/-- The filters that a compilation visits, in the order in which they add their clauses. -/
def visitedFilters {σ : Type} (mapper : FieldMapper σ) (e : Expr) (fields : σ) : List (FilterVisit σ) :=
  filterVisits mapper e.elementType e { fields, notices := [.compiling e.elementType] }

/-- The filters of a statement are the clauses of the filters that are visited, and the limit to work item types. A
clause holds what was pending before the predicate, unless the predicate cuts it off, and then the fragments of the
predicate. So each holds the fragments of its own predicate and nothing else exactly when each predicate begins with
nothing pending or cuts it off. -/
theorem filters_own_iff {σ : Type} {mapper : FieldMapper σ} {mode : ProjectionMode} {e : Expr} {fields : σ}
    {q : Statement} (h : (compile mapper mode e fields).result = .ok q) :
    let visits := visitedFilters mapper e fields
    (∃ entity, q.entity = some entity ∧ q.filters = visits.flatMap (FilterVisit.clause mapper e.elementType) ++
      (typeClause? (mapper.typeRestriction (compile mapper mode e fields).fields entity)).toList) ∧
    (∀ v ∈ visits, v.HoldsAfter v.carried mapper e.elementType) ∧
    ((∀ v ∈ visits, v.HoldsAfter [] mapper e.elementType) ↔ e.keepsFiltersApart false = true) := by
  obtain ⟨s, entity, hvisit, hentity, -, hfilters⟩ := parts_of_compile h
  have haccount := account_of_visits (visits_of_visit e hvisit)
  refine ⟨⟨entity, hentity, ?_⟩, haccount.carried, haccount.own⟩
  rw [hfilters, haccount.filters]
  rfl

/-- An argument that comes after the table stays pending and ends up in the filter. -/
theorem filters_own_iff_argument :
    let task := Registry.ofMappings [EntityMapping.new "Task" |>.property "Id" "Id" |>.property "Rank" "Rank"]
    let source := Expr.call "Concat" [Expr.table "Task", Expr.field "Id"]
    let e := Expr.filter source (Expr.itLambda (.binary .equal (Expr.field "Rank") (.constant (.int32 1))))
    ∃ q, (compile .registry .explicit e task).result = .ok q ∧ q.filterTexts = ["Id(Rank = 1)"] ∧
      ¬∀ v ∈ visitedFilters .registry e task, v.HoldsAfter [] .registry e.elementType := by
  intro task source e
  obtain ⟨q, hq, htexts⟩ : ∃ q, (compile .registry .explicit e task).result = .ok q ∧
    q.filterTexts = ["Id(Rank = 1)"] := ⟨_, rfl, by decide +kernel⟩
  exact ⟨q, hq, htexts, fun hall => absurd ((filters_own_iff hq).2.2.1 hall) (by decide)⟩

end WorkItemQuery
