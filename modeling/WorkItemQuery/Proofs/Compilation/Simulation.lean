/-
Compilation with one field mapper in place of another. A mapper simulates another if related states of the two
give the same answers and are related again after each question. A compilation cannot tell such mappers apart:
it gives the same statement or error and the same notices, and leaves related states behind, also where it
fails half way. Only the entities whose tables an expression names matter, since no question is about another.
A memo over a registry simulates the registry, so memoization makes no difference to compilations. Projections are
recorded on a walk and not read by it, so the walks stay alike if the second is over the expression with its projections
changed; the recorded ones are then changed alike.
-/
import WorkItemQuery.Proofs.Compilation.Declarative
import WorkItemQuery.Proofs.Fields.Memo

namespace WorkItemQuery

open Compilation Walk Log

/-! ## Tables -/

namespace Expr

mutual

/-- The entities whose tables an expression names. -/
def tables : Expr → List String
  | .constant (.table entity) => [entity]
  | .select source _ | .asOf source _ => source.tables
  | .filter source e | .order source e _ => source.tables ++ e.tables
  | .domain _ left right | .binary _ left right => left.tables ++ right.tables
  | .unary _ operand => operand.tables
  | .member target _ => target.tables
  | .lambda _ body => body.tables
  | .call _ arguments => tablesAll arguments
  | .constant _ | .indexer _ | .parameter _ => []

def tablesAll : List Expr → List String
  | [] => []
  | e :: rest => e.tables ++ tablesAll rest

end

mutual

/-- The entity of a query is that of one of its tables. -/
theorem mem_tables_of_elementType {entity : String} : ∀ e : Expr, e.elementType = some entity → entity ∈ e.tables
  | .constant k, h => by
    cases k with
    | table _ => cases h; exact List.mem_singleton.2 rfl
    | _ => cases h
  | .select source _, h | .asOf source _, h => mem_tables_of_elementType source h
  | .filter source _, h | .order source _ _, h => List.mem_append_left _ (mem_tables_of_elementType source h)
  | .call _ arguments, h => mem_tablesAll_of_firstElementType arguments h
  | .domain _ _ _, h | .binary _ _ _, h | .unary _ _, h | .member _ _, h | .indexer _, h | .parameter _, h
  | .lambda _ _, h => by cases h

theorem mem_tablesAll_of_firstElementType {entity : String} : ∀ es : List Expr,
    firstElementType es = some entity → entity ∈ tablesAll es
  | [], h => by cases h
  | e :: rest, h => by
    rw [firstElementType] at h
    split at h
    · rename_i heq
      cases h
      exact List.mem_append_left _ (mem_tables_of_elementType e heq)
    · exact List.mem_append_right _ (mem_tablesAll_of_firstElementType rest h)

end

/-! ## Other projections -/

mutual

/-- The query with its projections replaced. -/
def reprojecting (f : Projection → Projection) : Expr → Expr
  | .select source projection => .select (source.reprojecting f) (f projection)
  | .filter source e => .filter (source.reprojecting f) (e.reprojecting f)
  | .order source e direction => .order (source.reprojecting f) (e.reprojecting f) direction
  | .asOf source time => .asOf (source.reprojecting f) time
  | .domain op left right => .domain op (left.reprojecting f) (right.reprojecting f)
  | .binary op left right => .binary op (left.reprojecting f) (right.reprojecting f)
  | .unary op operand => .unary op (operand.reprojecting f)
  | .member target name => .member (target.reprojecting f) name
  | .indexer key => .indexer key
  | .constant value => .constant value
  | .parameter name => .parameter name
  | .lambda name body => .lambda name (body.reprojecting f)
  | .call method arguments => .call method (reprojectingAll f arguments)

def reprojectingAll (f : Projection → Projection) : List Expr → List Expr
  | [] => []
  | e :: rest => e.reprojecting f :: reprojectingAll f rest

end

mutual

theorem reprojecting_id : ∀ e : Expr, e.reprojecting id = e
  | .select source _ => by rw [reprojecting, reprojecting_id source]; rfl
  | .asOf source _ => by rw [reprojecting, reprojecting_id source]
  | .filter source e | .order source e _ => by rw [reprojecting, reprojecting_id source, reprojecting_id e]
  | .domain _ left right | .binary _ left right => by rw [reprojecting, reprojecting_id left, reprojecting_id right]
  | .unary _ e | .member e _ | .lambda _ e => by rw [reprojecting, reprojecting_id e]
  | .call _ arguments => by rw [reprojecting, reprojectingAll_id arguments]
  | .indexer _ | .constant _ | .parameter _ => rfl

theorem reprojectingAll_id : ∀ es : List Expr, reprojectingAll id es = es
  | [] => rfl
  | e :: rest => by rw [reprojectingAll, reprojecting_id e, reprojectingAll_id rest]

end

mutual

theorem elementType_reprojecting (f : Projection → Projection) : ∀ e : Expr,
    (e.reprojecting f).elementType = e.elementType
  | .select source _ | .filter source _ | .order source _ _ | .asOf source _ => elementType_reprojecting f source
  | .call _ arguments => firstElementType_reprojectingAll f arguments
  | .constant _ | .domain _ _ _ | .binary _ _ _ | .unary _ _ | .member _ _ | .indexer _ | .parameter _
  | .lambda _ _ => rfl

theorem firstElementType_reprojectingAll (f : Projection → Projection) : ∀ es : List Expr,
    firstElementType (reprojectingAll f es) = firstElementType es
  | [] => rfl
  | e :: rest => by
    rw [reprojectingAll, firstElementType, firstElementType, elementType_reprojecting f e,
      firstElementType_reprojectingAll f rest]

end

theorem isItem_reprojecting (f : Projection → Projection) (e : Expr) : isItem (e.reprojecting f) = isItem e := by
  cases e with
  | unary op _ => cases op <;> rfl
  | _ => rfl

theorem isProperty_reprojecting (f : Projection → Projection) (e : Expr) :
    isProperty (e.reprojecting f) = isProperty e := by
  cases e with
  | unary op _ => cases op <;> rfl
  | _ => rfl

end Expr

/-- The statement with its projections replaced. -/
def Statement.reprojecting (f : Projection → Projection) (q : Statement) : Statement :=
  { q with projections := q.projections.map f }

@[simp] theorem Statement.reprojecting_id (q : Statement) : q.reprojecting id = q := by
  simp [reprojecting]

/-! ## Simulation -/

/-- Related states of two mappers give the same answers about some entities, and are related after each. -/
structure FieldMapper.Simulates {σ τ : Type} (about : String → Prop) (R : σ → τ → Prop) (mapper : FieldMapper σ)
    (other : FieldMapper τ) : Prop where
  resolve : ∀ entity property, about entity → ∀ {s t}, R s t →
    (mapper.resolve entity property s).1 = (other.resolve entity property t).1 ∧
      R (mapper.resolve entity property s).2 (other.resolve entity property t).2
  defaultFields : ∀ entity, about entity → ∀ {s t}, R s t → mapper.defaultFields s entity = other.defaultFields t entity
  typeRestriction : ∀ entity, about entity → ∀ {s t}, R s t →
    mapper.typeRestriction s entity = other.typeRestriction t entity

namespace Compilation

variable {σ τ α β : Type} {about : String → Prop} {R : σ → τ → Prop} {f : Projection → Projection}

/-- A projection is recorded whatever it is. -/
theorem projected_reprojecting (f : Projection → Projection) (source : Option String) (projection : Projection)
    (q : Statement) :
    projected source (f projection) (q.reprojecting f) = (projected source projection q).reprojecting f := by
  unfold projected Statement.reprojecting Statement.setEntity
  cases hentity : q.entity <;> cases source <;> simp [hentity]

/-- States of two walks that differ in the state of the mapper, and in the projections recorded. -/
structure Alike (about : String → Prop) (R : σ → τ → Prop) (f : Projection → Projection) (s : State σ) (t : State τ) :
    Prop where
  fields : R s.fields t.fields
  statement : t.statement = s.statement.reprojecting f
  pending : t.pending = s.pending
  notices : t.notices = s.notices
  /-- Fields are looked up for an entity that the mappers agree about. -/
  entity : ∀ entity ∈ s.statement.entity, about entity

namespace Alike

variable {s : State σ} {t : State τ}

theorem push (h : Alike about R f s t) (part : Fragment) : Alike about R f (s.push part) (t.push part) :=
  { h with pending := by rw [State.push, State.push, h.pending] }

theorem projecting {source : Option String} (hsource : ∀ entity ∈ source, about entity) (projection : Projection)
    (h : Alike about R f s t) :
    Alike about R f (s.projecting source projection) (t.projecting source (f projection)) := by
  refine { h with statement := ?_, entity := fun entity hentity => ?_ }
  · rw [State.projecting, h.statement, projected_reprojecting]
    rfl
  · rw [State.projecting, entity_projected, Option.mem_def, Option.or_eq_some_iff] at hentity
    rcases hentity with hentity | ⟨-, hentity⟩
    · exact h.entity entity hentity
    · exact hsource entity hentity

theorem filtered (h : Alike about R f s t) : Alike about R f s.filtered t.filtered where
  fields := h.fields
  statement := by simp [State.filtered, h.statement, h.pending, Statement.reprojecting]
  pending := rfl
  notices := by simp [State.filtered, h.notices, h.pending]
  entity := h.entity

theorem ordered (h : Alike about R f s t) : Alike about R f s.ordered t.ordered where
  fields := h.fields
  statement := by simp [State.ordered, h.statement, h.pending, Statement.reprojecting]
  pending := rfl
  notices := by simp [State.ordered, h.notices, h.pending]
  entity := h.entity

end Alike

/-- Two walks end alike from states that are alike. -/
def Matches (about : String → Prop) (R : σ → τ → Prop) (f : Projection → Projection) (w : Walk σ α) (w' : Walk τ α) :
    Prop :=
  ∀ s t, Alike about R f s t → (w s).1 = (w' t).1 ∧ Alike about R f (w s).2 (w' t).2

namespace Matches

theorem stay (a : α) : Matches about R f (pure a) (pure a) := fun _ _ h => ⟨rfl, h⟩

theorem fail (e : CompileError) : Matches about R f (Walk.fail (α := α) e) (Walk.fail e) := fun _ _ h => ⟨rfl, h⟩

theorem bind {w : Walk σ α} {w' : Walk τ α} {g : α → Walk σ β} {g' : α → Walk τ β} (hw : Matches about R f w w')
    (hg : ∀ a, Matches about R f (g a) (g' a)) : Matches about R f (w >>= g) (w' >>= g') := by
  intro s t h
  obtain ⟨hresult, halike⟩ := hw s t h
  rcases hs : w s with ⟨err | a, s'⟩
  · rcases ht : w' t with ⟨err' | a', t'⟩
    · rw [Walk.bind_error hs, Walk.bind_error ht]
      rw [hs, ht] at hresult halike
      cases hresult
      exact ⟨rfl, halike⟩
    · rw [hs, ht] at hresult
      cases hresult
  · rcases ht : w' t with ⟨err' | a', t'⟩
    · rw [hs, ht] at hresult
      cases hresult
    · rw [Walk.bind_ok hs, Walk.bind_ok ht]
      rw [hs, ht] at hresult halike
      cases hresult
      exact hg a s' t' halike

theorem update {g : State σ → State σ} {g' : State τ → State τ}
    (h : ∀ s t, Alike about R f s t → Alike about R f (g s) (g' t)) :
    Matches about R f (Walk.update g) (Walk.update g') := fun s t hst => ⟨rfl, h s t hst⟩

theorem emit (part : Fragment) : Matches about R f (Walk.emit part) (Walk.emit part) := update fun _ _ h => h.push part

theorem note (n : Notice) : Matches about R f (Walk.note n) (Walk.note n) :=
  update fun _ _ h => { h with notices := by rw [h.notices] }

theorem reset : Matches about R f Walk.reset Walk.reset := update fun _ _ h => { h with pending := rfl }

theorem flushFilter : Matches about R f Walk.flushFilter Walk.flushFilter := by
  intro s t h
  rw [flushFilter_eq, flushFilter_eq]
  exact ⟨rfl, h.filtered⟩

theorem flushOrder : Matches about R f Walk.flushOrder Walk.flushOrder := by
  intro s t h
  rw [flushOrder_eq, flushOrder_eq]
  exact ⟨rfl, h.ordered⟩

theorem endOrder (direction : Direction) : Matches about R f (endOrder direction) (endOrder direction) := by
  unfold Compilation.endOrder
  cases directionText? direction with
  | some text => exact (emit _).bind fun _ => flushOrder
  | none => exact (fail _).bind fun _ => flushOrder

theorem group {left right : Walk σ Unit} {left' right' : Walk τ Unit} {text : Walk σ String} {text' : Walk τ String}
    (hleft : Matches about R f left left') (htext : Matches about R f text text')
    (hright : Matches about R f right right') :
    Matches about R f (visitGroup left text right) (visitGroup left' text' right') :=
  (emit _).bind fun _ => hleft.bind fun _ => htext.bind fun _ => (emit _).bind fun _ => hright.bind fun _ => emit _

end Matches

section Walks

variable {mapper : FieldMapper σ} {other : FieldMapper τ} {root : Option String}

theorem matches_lookup (h : mapper.Simulates about R other) {entity : String} (hentity : about entity)
    (property : String) : Matches about R f (lookup mapper entity property) (lookup other entity property) := by
  intro s t hst
  obtain ⟨hanswer, hfields⟩ := h.resolve entity property hentity hst.fields
  unfold lookup
  rcases hs : mapper.resolve entity property s.fields with ⟨err | field, fields⟩ <;>
    rcases ht : other.resolve entity property t.fields with ⟨err' | field', fields'⟩ <;>
    rw [hs, ht] at hanswer hfields <;> cases hanswer
  · exact ⟨rfl, { hst with fields := hfields }⟩
  · exact ⟨rfl, { hst with fields := hfields }⟩

theorem matches_resolve (h : mapper.Simulates about R other) (hroot : ∀ entity ∈ root, about entity)
    (property : String) : Matches about R f (resolve mapper root property) (resolve other root property) := by
  intro s t hst
  have hsame : t.statement.entity = s.statement.entity := by rw [hst.statement]; rfl
  unfold resolve
  rw [hsame]
  cases hentity : s.statement.entity with
  | some entity => exact matches_lookup h (hst.entity entity hentity) property s t hst
  | none =>
    cases root with
    | some entity => exact matches_lookup h (hroot entity rfl) property s t hst
    | none => exact ⟨rfl, hst⟩

theorem matches_constant (k : Constant) : Matches about R f (visitConstant k) (visitConstant k) := by
  by_cases htable : ∃ entity, k = .table entity
  · obtain ⟨entity, rfl⟩ := htable
    exact .reset
  · rw [visitConstant_eq htable, visitConstant_eq htable]
    cases constantFragment? k with
    | some part => exact .emit part
    | none => exact .fail _

mutual

/-- The walk over an expression, by the shape of the expression. -/
theorem matches_visit (h : mapper.Simulates about R other) (hroot : ∀ entity ∈ root, about entity) : ∀ e : Expr,
    (∀ entity ∈ e.tables, about entity) →
      Matches about R f (visit mapper root e) (visit other root (e.reprojecting f))
  | .select source projection, htables => by
    rw [Expr.reprojecting, visit_select_eq, visit_select_eq, Expr.elementType_reprojecting]
    exact (matches_visit h hroot source htables).bind fun _ => .update fun _ _ =>
      .projecting (fun entity he => htables entity (Expr.mem_tables_of_elementType _ he)) projection
  | .filter source e, htables => by
    obtain ⟨hsource, he⟩ := List.forall_mem_append.1 htables
    exact (matches_visit h hroot source hsource).bind fun _ => (matches_visit h hroot e he).bind fun _ => .flushFilter
  | .order source e direction, htables => by
    obtain ⟨hsource, he⟩ := List.forall_mem_append.1 htables
    rw [Expr.reprojecting, visit_order_eq, visit_order_eq]
    exact (matches_visit h hroot source hsource).bind fun _ => (matches_visit h hroot e he).bind fun _ =>
      .endOrder direction
  | .asOf source time, htables =>
    (matches_visit h hroot source htables).bind fun _ =>
      .update fun _ _ hst => { hst with statement := by rw [hst.statement]; rfl }
  | .domain op left right, htables => by
    obtain ⟨hleft, hright⟩ := List.forall_mem_append.1 htables
    exact .group (matches_visit h hroot left hleft) (.stay _) (matches_visit h hroot right hright)
  | .binary op left right, htables => by
    obtain ⟨hleft, hright⟩ := List.forall_mem_append.1 htables
    refine .group (matches_visit h hroot left hleft) ?_ (matches_visit h hroot right hright)
    cases binaryText? op with
    | some text => exact .stay text
    | none => exact .fail _
  | .unary .not operand, htables => (Matches.emit _).bind fun _ => matches_visit h hroot operand htables
  | .unary .typeAs operand, htables => matches_visit h hroot operand htables
  | .unary .convert _, _ | .unary .negate _, _ => .fail _
  | .member target name, htables => by
    rw [Expr.reprojecting, visit, visit, Expr.isItem_reprojecting, Expr.isProperty_reprojecting]
    split
    · exact (matches_resolve h hroot name).bind fun field => .emit _
    · split
      · exact matches_visit h hroot target htables
      · exact .fail _
  | .indexer key, _ => (matches_resolve h hroot key).bind fun field => .emit _
  | .constant k, _ => matches_constant k
  | .parameter _, _ => .stay ()
  | .lambda _ body, htables => matches_visit h hroot body htables
  | .call _ arguments, htables => matches_visitAll h hroot arguments htables

theorem matches_visitAll (h : mapper.Simulates about R other) (hroot : ∀ entity ∈ root, about entity) :
    ∀ es : List Expr, (∀ entity ∈ Expr.tablesAll es, about entity) →
      Matches about R f (visitAll mapper root es) (visitAll other root (Expr.reprojectingAll f es))
  | [], _ => .stay ()
  | e :: rest, htables => by
    obtain ⟨he, hrest⟩ := List.forall_mem_append.1 htables
    exact (matches_visit h hroot e he).bind fun _ => matches_visitAll h hroot rest hrest

end

/-! ## The select list and the end -/

theorem matches_lookupAll (h : mapper.Simulates about R other) {entity : String} (hentity : about entity) :
    ∀ names : List String, Matches about R f (lookupAll mapper entity names) (lookupAll other entity names)
  | [] => .stay []
  | name :: names => (matches_lookup h hentity name).bind fun _ =>
    (matches_lookupAll h hentity names).bind fun _ => .stay _

theorem matches_selectFields (h : mapper.Simulates about R other) {entity : String} (hentity : about entity)
    (mode : ProjectionMode) (projections : List Projection) :
    Matches about R f (selectFields mapper mode entity projections) (selectFields other mode entity projections) := by
  have hdefaults : Matches about R f (defaults mapper entity) (defaults other entity) := fun s t hst =>
    ⟨congrArg Except.ok (h.defaultFields entity hentity hst.fields), hst⟩
  unfold selectFields
  rcases requested projections with _ | ⟨name, names⟩
  · cases mode <;> exact hdefaults
  · cases mode with
    | explicit => exact matches_lookupAll h hentity (name :: names)
    | defaultFields => exact (Matches.note _).bind fun _ => hdefaults

/-- The select list and the statement depend on the projections, so from here on these are the same. -/
theorem Alike.statement_eq {s : State σ} {t : State τ} (h : Alike about R id s t) : t.statement = s.statement := by
  simpa using h.statement

theorem matches_finish (h : mapper.Simulates about R other) {entity : String} (hentity : about entity)
    (select : List String) : Matches about R id (finish mapper entity select) (finish other entity select) := by
  intro s t hst
  have htypes := h.typeRestriction entity hentity hst.fields
  unfold finish
  refine ⟨by rw [htypes, hst.statement_eq], {
    fields := hst.fields
    statement := by rw [htypes, hst.statement_eq, Statement.reprojecting_id]
    pending := hst.pending
    notices := by rw [htypes, hst.statement_eq, hst.notices]
    entity := fun e he => by cases he; exact hentity }⟩

/-- What comes after the walk is about the entity of the statement, or that of the whole query. -/
theorem matches_conclude (h : mapper.Simulates about R other) (hroot : ∀ entity ∈ root, about entity)
    (mode : ProjectionMode) : Matches about R id (conclude mapper mode root) (conclude other mode root) := by
  have hrest : ∀ entity, about entity → Matches about R id
      (do
        let select ← selection mapper mode entity
        if select.isEmpty then fail (.emptySelect entity)
        finish mapper entity select)
      (do
        let select ← selection other mode entity
        if select.isEmpty then fail (.emptySelect entity)
        finish other entity select) := by
    intro entity hentity
    have hselection : Matches about R id (selection mapper mode entity) (selection other mode entity) := by
      intro s t hst
      unfold selection
      rw [hst.statement_eq]
      exact matches_selectFields h hentity mode s.statement.projections s t hst
    refine hselection.bind fun select => ?_
    split
    · exact (Matches.fail _).bind fun _ => matches_finish h hentity select
    · exact matches_finish h hentity select
  intro s t hst
  -- both statements have the same entity, so both go on with it, or both end for want of one
  cases hentity : s.statement.entity with
  | some entity =>
    have hs : entityOf root s = (.ok entity, s) := by simp only [entityOf, hentity]
    have ht : entityOf root t = (.ok entity, t) := by simp only [entityOf, hst.statement_eq, hentity]
    unfold conclude
    rw [Walk.bind_ok hs, Walk.bind_ok ht]
    exact hrest entity (hst.entity entity hentity) s t hst
  | none =>
    cases root with
    | some entity =>
      have hs : entityOf (some entity) s = (.ok entity, s) := by simp only [entityOf, hentity]
      have ht : entityOf (some entity) t = (.ok entity, t) := by simp only [entityOf, hst.statement_eq, hentity]
      unfold conclude
      rw [Walk.bind_ok hs, Walk.bind_ok ht]
      exact hrest entity (hroot entity rfl) s t hst
    | none =>
      have hs : entityOf none s = (.error .missingSource, s) := by simp only [entityOf, hentity]
      have ht : entityOf none t = (.error .missingSource, t) := by simp only [entityOf, hst.statement_eq, hentity]
      unfold conclude
      rw [Walk.bind_error hs, Walk.bind_error ht]
      exact ⟨rfl, hst⟩

/-- A compilation cannot tell a mapper from one that simulates it for the tables of the expression. -/
theorem compile_simulates (h : mapper.Simulates about R other) (mode : ProjectionMode) {e : Expr}
    (htables : ∀ entity ∈ e.tables, about entity) {s : σ} {t : τ} (hst : R s t) :
    let c := compile mapper mode e s
    let d := compile other mode e t
    c.result = d.result ∧ c.notices = d.notices ∧ R c.fields d.fields := by
  have hroot : ∀ entity ∈ e.elementType, about entity := fun entity he =>
    htables entity (Expr.mem_tables_of_elementType _ he)
  have hvisit : Matches about R id (visit mapper e.elementType e) (visit other e.elementType e) := by
    have hsame := matches_visit (f := id) h hroot e htables
    rwa [Expr.reprojecting_id] at hsame
  have hwalk : Matches about R id (compilation mapper mode e) (compilation other mode e) := by
    rw [compilation_eq, compilation_eq]
    exact (Matches.note _).bind fun _ => hvisit.bind fun _ => matches_conclude h hroot mode
  have hstart : Alike about R id ({ fields := s } : State σ) ({ fields := t } : State τ) :=
    ⟨hst, rfl, rfl, rfl, fun entity he => by cases he⟩
  obtain ⟨hresult, halike⟩ := hwalk _ _ hstart
  exact ⟨hresult, halike.notices.symm, halike.fields⟩

end Walks

end Compilation

/-! ## Compiling with a memo -/

section Memos

variable {σ : Type}

/-- Compiles expressions one after the other with the same mapper. -/
def compileEach (mapper : FieldMapper σ) : List (ProjectionMode × Expr) → σ → List (Compilation σ)
  | [], _ => []
  | (mode, e) :: rest, fields =>
    let c := compile mapper mode e fields
    c :: compileEach mapper rest c.fields

/-- A memo over a registry holds nothing but what the registry answers. -/
structure Memo.IsOver (m : Memo Registry) (r : Registry) : Prop where
  inner : m.inner = r
  entries : ∀ entity property field, ((entity, property), field) ∈ m.entries → r.resolve entity property = .ok field

theorem Memo.IsOver.remembered {m : Memo Registry} {r : Registry} (h : m.IsOver r) {entity property field : String}
    (hm : m.remembered? entity property = some field) : r.resolve entity property = .ok field := by
  obtain ⟨before, after, hentries, -⟩ := List.lookup_eq_some_iff.1 hm
  exact h.entries entity property field (by rw [hentries]; exact List.mem_append_right _ List.mem_cons_self)

/-- A memo over a registry simulates the registry. -/
theorem memoized_simulates (r : Registry) :
    FieldMapper.registry.memoized.Simulates (fun _ => True) (fun m s => m.IsOver r ∧ s = r) .registry where
  resolve := by
    rintro entity property - m _ ⟨h, rfl⟩
    cases hm : m.remembered? entity property with
    | some field =>
      rw [FieldMapper.memoized_remembered hm]
      exact ⟨(h.remembered hm).symm, h, rfl⟩
    | none =>
      -- the registry is asked, and what it answers may be remembered
      obtain rfl := h.inner
      cases hask : m.inner.resolve entity property with
      | error e =>
        have hregistry : FieldMapper.registry.resolve entity property m.inner = (.error e, m.inner) :=
          Prod.ext hask rfl
        rw [FieldMapper.memoized_error hm hregistry, hregistry]
        exact ⟨rfl, h, rfl⟩
      | ok field =>
        have hregistry : FieldMapper.registry.resolve entity property m.inner = (.ok field, m.inner) :=
          Prod.ext hask rfl
        rw [FieldMapper.memoized_ok hm hregistry, hregistry]
        refine ⟨rfl, ⟨rfl, fun e p f hmem => ?_⟩, rfl⟩
        rcases List.mem_cons.1 hmem with heq | hmem
        · cases heq
          exact hask
        · exact h.entries e p f hmem
  defaultFields := by
    rintro entity - m _ ⟨h, rfl⟩
    rw [← h.inner]
    rfl
  typeRestriction := by
    rintro entity - m _ ⟨h, rfl⟩
    rw [← h.inner]
    rfl

/-- All compilations in turn, from any memo over the registry. -/
theorem compileEach_isOver {r : Registry} : ∀ (jobs : List (ProjectionMode × Expr)) {m : Memo Registry}, m.IsOver r →
    let run := compileEach FieldMapper.registry.memoized jobs m
    run.map (·.result) = jobs.map (fun (mode, e) => (compile .registry mode e r).result) ∧ ∀ c ∈ run, c.fields.IsOver r
  | [], _, _ => ⟨rfl, fun _ hc => by cases hc⟩
  | (mode, e) :: rest, m, h => by
    obtain ⟨hresult, -, hfields, -⟩ :=
      compile_simulates (memoized_simulates r) mode (e := e) (fun _ _ => trivial) ⟨h, rfl⟩
    obtain ⟨hresults, hmemos⟩ := compileEach_isOver rest hfields
    exact ⟨congrArg₂ List.cons hresult hresults, List.forall_mem_cons.2 ⟨hfields, hmemos⟩⟩

/-- Compilations with one memo give the statements and errors that they give with the registry, and the memo holds
nothing but what the registry answers after each of them, those that fail included. -/
theorem compileEach_memoized (r : Registry) (jobs : List (ProjectionMode × Expr)) :
    let run := compileEach FieldMapper.registry.memoized jobs (Memo.new r)
    run.map (·.result) = jobs.map (fun (mode, e) => (compile .registry mode e r).result) ∧
      ∀ c ∈ run, c.fields.inner = r ∧ ∀ entity property field, ((entity, property), field) ∈ c.fields.entries →
        r.resolve entity property = .ok field := by
  have hnew : (Memo.new r).IsOver r := ⟨rfl, fun _ _ _ h => by cases h⟩
  obtain ⟨hresults, hmemos⟩ := compileEach_isOver jobs hnew
  exact ⟨hresults, fun c hc => ⟨(hmemos c hc).inner, (hmemos c hc).entries⟩⟩

end Memos

/-! ## Compiling with another registry -/

/-- Two registries have the same mappings for some entities; where one has none, the other has none either. -/
def Registry.AgreesOn (about : String → Prop) (r r' : Registry) : Prop :=
  ∀ entity, about entity → r.entity? entity = r'.entity? entity

/-- All answers of a registry about an entity come from its mapping. -/
theorem registry_simulates (about : String → Prop) :
    FieldMapper.registry.Simulates about (Registry.AgreesOn about) .registry where
  resolve := by
    intro entity property hentity r r' h
    refine ⟨?_, h⟩
    show r.resolve entity property = r'.resolve entity property
    unfold Registry.resolve
    rw [h entity hentity]
  defaultFields := by
    intro entity hentity r r' h
    show r.defaultFields entity = r'.defaultFields entity
    unfold Registry.defaultFields
    rw [h entity hentity]
  typeRestriction := by
    intro entity hentity r r' h
    show r.typeRestriction entity = r'.typeRestriction entity
    unfold Registry.typeRestriction
    rw [h entity hentity]

/-- A compilation reads no mappings but those of the entities whose tables the expression names, wherever they
stand in it. With any others it gives the same statement or the same error, and the same notices. -/
theorem compile_eq_of_tables (mode : ProjectionMode) (e : Expr) {r r' : Registry}
    (h : ∀ entity ∈ e.tables, r.entity? entity = r'.entity? entity) :
    (compile .registry mode e r).result = (compile .registry mode e r').result ∧
      (compile .registry mode e r).notices = (compile .registry mode e r').notices := by
  obtain ⟨hresult, hnotices, -⟩ :=
    compile_simulates (registry_simulates (· ∈ e.tables)) mode (e := e) (fun _ hentity => hentity) (s := r) (t := r') h
  exact ⟨hresult, hnotices⟩

/-- The query names two tables, of which one is not registered, and looks up a property that both lack. The registries
differ in an entity that has it. -/
theorem compile_eq_of_tables_task :
    let titled (entity : String) := EntityMapping.new entity |>.property "Title" "System.Title"
    let r := Registry.ofMappings [titled "Task"]
    let r' := r.register (titled "Epic" |>.property "Rank" "Custom.Rank")
    let e := Expr.filter (.call "Concat" [.select (.table "Task") .all, .table "Bug"]) (.indexer "Rank")
    r.entityNames ≠ r'.entityNames ∧ e.tables = ["Task", "Bug"] ∧
      (∀ entity ∈ e.tables, r.entity? entity = r'.entity? entity) ∧
      (compile .registry .explicit e r).result = .error (.unknownField ⟨"Task", "Rank"⟩) ∧
      (compile .registry .explicit e r').result = .error (.unknownField ⟨"Task", "Rank"⟩) := by
  intro titled r r' e
  have htables : e.tables = ["Task", "Bug"] := rfl
  have hagree : ∀ entity ∈ e.tables, r.entity? entity = r'.entity? entity := by
    rw [htables]
    decide +kernel
  have hresult : (compile .registry .explicit e r).result = .error (.unknownField ⟨"Task", "Rank"⟩) := rfl
  exact ⟨by decide +kernel, htables, hagree, hresult, (compile_eq_of_tables .explicit e hagree).1 ▸ hresult⟩

end WorkItemQuery
