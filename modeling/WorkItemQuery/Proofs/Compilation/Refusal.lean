/-
What compilation refuses, and that it refuses nothing else. Some expressions have no form in a statement:
arithmetic, conversions, truth values and so on. The walk reaches every part of an expression, save what is
below a conversion at the target of a member, so an expression that compiles holds none of them; and where
compilation refuses an expression as unsupported, there is one among its parts.
-/
import WorkItemQuery.Proofs.Compilation.Declarative

namespace WorkItemQuery

open Compilation Walk

/-! ## Parts of an expression -/

/-- Where an expression stands in the one that it is a part of. -/
inductive Position where
  /-- It is what a member is taken of. -/
  | target
  | elsewhere
deriving DecidableEq

namespace Expr

/-- The expressions that an expression is directly made of. -/
def parts : Expr → List (Position × Expr)
  | .select source _ | .asOf source _ => [(.elsewhere, source)]
  | .filter source e | .order source e _ => [(.elsewhere, source), (.elsewhere, e)]
  | .domain _ left right | .binary _ left right => [(.elsewhere, left), (.elsewhere, right)]
  | .unary _ operand => [(.elsewhere, operand)]
  | .member target _ => [(.target, target)]
  | .lambda _ body => [(.elsewhere, body)]
  | .call _ arguments => arguments.map fun e => (.elsewhere, e)
  | .indexer _ | .constant _ | .parameter _ => []

/-- Whether an expression turns a value into another type. -/
def isConversion : Expr → Bool
  | .unary .convert _ => true
  | _ => false

/-- An expression at a position holds a part at another. What is below a conversion at the target of a member
does not count. -/
inductive Holds : Position → Expr → Position → Expr → Prop
  | here {p : Position} {e : Expr} : Holds p e p e
  | inside {p q r : Position} {e f part : Expr} : (q, f) ∈ e.parts → ¬(p = .target ∧ e.isConversion = true) →
      Holds q f r part → Holds p e r part

end Expr

/-! ## Expressions without a form -/

/-- The constants that no statement can hold. -/
def Constant.HasNoForm : Constant → Prop
  | .bool _ | .foreign _ _ => True
  | .intList values => values = []
  | .stringList values => values = []
  | .double value => value.isFinite = false
  | _ => False

/-- The expressions that by themselves have no form in a statement, whatever their parts are. -/
def Expr.HasNoForm : Position → Expr → Prop
  | _, .binary op _ _ => op ∈ [.add, .subtract, .multiply, .divide, .modulo, .coalesce]
  | _, .unary .negate _ => True
  | position, .unary .convert _ => position = .elsewhere
  | _, .member target name => isItem target = false ∧ (isProperty target = true → name ≠ valueMember)
  | _, .constant value => value.HasNoForm
  | _, .order _ _ direction => direction = .unspecified
  | _, _ => False

theorem binaryText?_eq_none {op : BinaryOp} :
    binaryText? op = none ↔ op ∈ [.add, .subtract, .multiply, .divide, .modulo, .coalesce] := by
  cases op <;> decide

theorem directionText?_eq_none {direction : Direction} :
    directionText? direction = none ↔ direction = .unspecified := by
  cases direction <;> decide

/-- A constant other than a table has a fragment or no form. -/
theorem constantFragment?_eq_none {k : Constant} :
    constantFragment? k = none ↔ k.HasNoForm ∨ ∃ entity, k = .table entity := by
  cases k with
  | double value => cases hv : value.isFinite <;> simp [constantFragment?, Constant.HasNoForm, hv]
  | intList values => cases values <;> simp [constantFragment?, Constant.HasNoForm]
  | stringList values => cases values <;> simp [constantFragment?, Constant.HasNoForm]
  | _ => simp [constantFragment?, Constant.HasNoForm]

namespace Compilation

variable {σ : Type} {mapper : FieldMapper σ} {root : Option String}

/-! ## What compiles -/

/-- The walk over an expression has ended well somewhere, or the expression is an item, of which a member is
taken without a walk. -/
def Passes (mapper : FieldMapper σ) (root : Option String) (p : Position) (e : Expr) : Prop :=
  (p = .target ∧ isItem e = true) ∨ ∃ s s', Visits mapper root e s s'

theorem parts_group {e left right : Expr} {text : String} (h : Joins e left text right) :
    e.parts = [(.elsewhere, left), (.elsewhere, right)] := by
  cases h <;> rfl

theorem passes_pair {left right f : Expr} {q : Position} (hleft : ∃ s s', Visits mapper root left s s')
    (hright : ∃ s s', Visits mapper root right s s') (hf : (q, f) ∈ [(.elsewhere, left), (.elsewhere, right)]) :
    Passes mapper root q f := by
  rcases List.mem_cons.1 hf with heq | hf
  · cases heq
    exact .inr hleft
  · cases List.mem_singleton.1 hf
    exact .inr hright

/-- A walk that ends well has passed the parts of the expression. -/
theorem Visits.passes_part {e f : Expr} {q : Position} {s s' : State σ} (h : Visits mapper root e s s')
    (hf : (q, f) ∈ e.parts) : Passes mapper root q f := by
  induction h with
  | select hsource _ | asOf hsource _ =>
    cases List.mem_singleton.1 hf
    exact .inr ⟨_, _, hsource⟩
  | filter hsource he _ _ | order _ hsource he _ _ => exact passes_pair ⟨_, _, hsource⟩ ⟨_, _, he⟩ hf
  | group hjoins hleft hright _ _ =>
    rw [parts_group hjoins] at hf
    exact passes_pair ⟨_, _, hleft⟩ ⟨_, _, hright⟩ hf
  | not hpart _ | typeAs hpart _ | lambda hpart _ | value _ _ hpart _ =>
    cases List.mem_singleton.1 hf
    exact .inr ⟨_, _, hpart⟩
  | field hreads _ _ =>
    cases hreads with
    | member hitem =>
      cases List.mem_singleton.1 hf
      exact .inl ⟨rfl, hitem⟩
    | indexer => cases hf
  | table | constant _ | parameter | callNil => cases hf
  | callCons hfirst _ _ ihrest =>
    rcases List.mem_cons.1 hf with heq | hf
    · cases heq
      exact .inr ⟨_, _, hfirst⟩
    · exact ihrest hf

/-- One step down: the parts of what is passed are passed. -/
theorem passes_part {p q : Position} {e f : Expr} (h : Passes mapper root p e)
    (hopen : ¬(p = .target ∧ e.isConversion = true)) (hf : (q, f) ∈ e.parts) : Passes mapper root q f := by
  rcases h with ⟨rfl, hitem⟩ | ⟨s, s', h⟩
  · -- an item is a parameter, which has no parts, or a conversion
    cases e with
    | parameter name => cases hf
    | unary op operand =>
      cases op with
      | convert => exact absurd ⟨rfl, rfl⟩ hopen
      | _ => cases hitem
    | _ => cases hitem
  · exact h.passes_part hf

/-- What a walk ends well over has a form. -/
theorem Visits.not_hasNoForm {e : Expr} {s s' : State σ} (h : Visits mapper root e s s') (p : Position) :
    ¬e.HasNoForm p := by
  cases h with
  | group hjoins _ _ =>
    cases hjoins with
    | domain => exact id
    | binary hop =>
      intro hnone
      rw [binaryText?_eq_none.2 hnone] at hop
      cases hop
  | order hdirection _ _ =>
    rintro rfl
    cases hdirection
  | value _ hvalue _ =>
    rintro ⟨-, hname⟩
    rw [Bool.and_eq_true, beq_iff_eq] at hvalue
    exact hname hvalue.1 hvalue.2
  | field hreads _ _ =>
    cases hreads with
    | member hitem =>
      rintro ⟨hnot, -⟩
      rw [hitem] at hnot
      cases hnot
    | indexer => exact id
  | constant hf =>
    intro hnone
    rw [constantFragment?_eq_none.2 (.inl hnone)] at hf
    cases hf
  | _ => exact id

/-- What is passed has a form. -/
theorem not_hasNoForm_of_passes {p : Position} {e : Expr} (h : Passes mapper root p e) : ¬e.HasNoForm p := by
  rcases h with ⟨rfl, hitem⟩ | ⟨s, s', h⟩
  · cases e with
    | parameter name => exact id
    | unary op operand =>
      cases op with
      | convert => exact Position.noConfusion
      | _ => cases hitem
    | _ => cases hitem
  · exact h.not_hasNoForm p

/-- The whole way down: every part of what is passed is passed. -/
theorem passes_of_holds {p q : Position} {e part : Expr} (h : e.Holds p q part) (hpass : Passes mapper root p e) :
    Passes mapper root q part := by
  induction h with
  | here => exact hpass
  | inside hf hopen _ ih => exact ih (passes_part hpass hopen hf)

/-! ## What is refused -/

/-- A mapper gives this error somewhere. -/
def Lacks (mapper : FieldMapper σ) (error : UnknownField) : Prop :=
  ∃ entity property fields after, mapper.resolve entity property fields = (.error error, after)

/-- What an error of the walk says about the mapper and about the expression at which it comes up. -/
def Blames (mapper : FieldMapper σ) (root : Option String) (p : Position) (e : Expr) : CompileError → Prop
  | .unknownField error => Lacks mapper error
  | .emptySelect _ => False
  | .unsupported _ => ∃ q part, e.Holds p q part ∧ part.HasNoForm q
  | .malformedOrder => ∃ q source selector, e.Holds p q (.order source selector .unspecified)
  | .missingSource => root = none

/-- A walk fails only with errors that have the property. -/
def FailsWith {α : Type} (P : CompileError → Prop) (w : Walk σ α) : Prop :=
  ∀ s s' err, w s = (.error err, s') → P err

namespace FailsWith

variable {α β : Type} {P : CompileError → Prop}

theorem never {w : Walk σ α} (h : ∀ s, ∃ a s', w s = (.ok a, s')) : FailsWith P w := by
  intro s s' err herr
  obtain ⟨a, t, hok⟩ := h s
  rw [hok] at herr
  cases herr

theorem emit (f : Fragment) : FailsWith P (Walk.emit f : Walk σ Unit) := never fun _ => ⟨(), _, rfl⟩

theorem fail {err : CompileError} (h : P err) : FailsWith P (Walk.fail err : Walk σ α) := by
  intro s s' err' herr
  cases herr
  exact h

theorem bind {w : Walk σ α} {f : α → Walk σ β} (hw : FailsWith P w) (hf : ∀ a, FailsWith P (f a)) :
    FailsWith P (w >>= f) := by
  intro s s' err h
  rcases hfirst : w s with ⟨err' | a, mid⟩
  · rw [Walk.bind_error hfirst] at h
    cases h
    exact hw s s' err hfirst
  · rw [Walk.bind_ok hfirst] at h
    exact hf a mid s' err h

theorem flush (notice : Fragment → Log.Notice) (keep : Statement → Fragment → Statement) :
    FailsWith P (Walk.flush notice keep : Walk σ Unit) := by
  refine never fun s => ?_
  unfold Walk.flush
  split
  · exact ⟨_, _, rfl⟩
  · exact ⟨_, _, rfl⟩

theorem lookup (entity property : String) (hfield : ∀ e, Lacks mapper e → P (.unknownField e)) :
    FailsWith P (Walk.lookup mapper entity property) := by
  intro s s' err h
  unfold Walk.lookup at h
  rcases hresolve : mapper.resolve entity property s.fields with ⟨e | name, fields⟩
  · rw [hresolve] at h
    cases h
    exact hfield e ⟨entity, property, s.fields, fields, hresolve⟩
  · rw [hresolve] at h
    cases h

theorem resolve (property : String) (hfield : ∀ e, Lacks mapper e → P (.unknownField e))
    (hsource : root = none → P .missingSource) : FailsWith P (Walk.resolve mapper root property) := by
  intro s s' err h
  unfold Walk.resolve at h
  split at h
  · exact lookup _ property hfield s s' err h
  · exact lookup _ property hfield s s' err h
  · cases h
    exact hsource rfl

theorem group {left right : Walk σ Unit} {text : Walk σ String} (hleft : FailsWith P left) (htext : FailsWith P text)
    (hright : FailsWith P right) : FailsWith P (visitGroup left text right) :=
  (emit _).bind fun _ => hleft.bind fun _ => htext.bind fun _ => (emit _).bind fun _ => hright.bind fun _ => emit _

theorem mono {Q : CompileError → Prop} {w : Walk σ α} (hw : FailsWith P w) (h : ∀ err, P err → Q err) :
    FailsWith Q w :=
  fun s s' err herr => h err (hw s s' err herr)

end FailsWith

theorem isItem_of_isConversion {e : Expr} (h : e.isConversion = true) : isItem e = true := by
  unfold Expr.isConversion at h
  split at h
  · rfl
  · cases h

/-- An error of a part is an error of the whole. -/
theorem Blames.part {p q : Position} {e f : Expr} {err : CompileError} (hf : (q, f) ∈ e.parts)
    (hopen : ¬(p = .target ∧ e.isConversion = true)) (h : Blames mapper root q f err) :
    Blames mapper root p e err := by
  cases err with
  | unknownField _ | emptySelect _ | missingSource => exact h
  | unsupported what =>
    obtain ⟨r, part, hpart, hnone⟩ := h
    exact ⟨r, part, .inside hf hopen hpart, hnone⟩
  | malformedOrder =>
    obtain ⟨r, source, selector, hpart⟩ := h
    exact ⟨r, source, selector, .inside hf hopen hpart⟩

theorem FailsWith.part {α : Type} {w : Walk σ α} {p q : Position} {e f : Expr}
    (h : FailsWith (Blames mapper root q f) w) (hopen : ¬(p = .target ∧ e.isConversion = true))
    (hf : (q, f) ∈ e.parts) : FailsWith (Blames mapper root p e) w :=
  h.mono fun _ => .part hf hopen

mutual

/-- The walk over an expression fails with errors that are to blame on one of its parts. -/
theorem blames_visit (mapper : FieldMapper σ) (root : Option String) : ∀ (e : Expr) (p : Position),
    ¬(p = .target ∧ e.isConversion = true) → FailsWith (Blames mapper root p e) (visit mapper root e)
  | .select source projection, p, hopen => by
    have hsource := blames_visit mapper root source .elsewhere (by simp)
    exact (hsource.part hopen (List.mem_singleton.2 rfl)).bind fun _ => .never fun _ => ⟨(), _, rfl⟩
  | .asOf source time, p, hopen => by
    have hsource := blames_visit mapper root source .elsewhere (by simp)
    exact (hsource.part hopen (List.mem_singleton.2 rfl)).bind fun _ => .never fun _ => ⟨(), _, rfl⟩
  | .filter source e, p, hopen => by
    have hsource := blames_visit mapper root source .elsewhere (by simp)
    have he := blames_visit mapper root e .elsewhere (by simp)
    exact (hsource.part hopen List.mem_cons_self).bind fun _ =>
      (he.part hopen (List.mem_cons_of_mem _ (List.mem_singleton.2 rfl))).bind fun _ => .flush _ _
  | .order source e direction, p, hopen => by
    have hsource := blames_visit mapper root source .elsewhere (by simp)
    have he := blames_visit mapper root e .elsewhere (by simp)
    refine (hsource.part hopen List.mem_cons_self).bind fun _ =>
      (he.part hopen (List.mem_cons_of_mem _ (List.mem_singleton.2 rfl))).bind fun _ => ?_
    cases hd : directionText? direction with
    | some text => exact (FailsWith.emit _).bind fun _ => .flush _ _
    | none =>
      obtain rfl := directionText?_eq_none.1 hd
      exact (FailsWith.fail ⟨p, source, e, .here⟩).bind fun _ => .flush _ _
  | .domain op left right, p, hopen => by
    have hleft := blames_visit mapper root left .elsewhere (by simp)
    have hright := blames_visit mapper root right .elsewhere (by simp)
    exact .group (hleft.part hopen List.mem_cons_self) (.never fun _ => ⟨_, _, rfl⟩)
      (hright.part hopen (List.mem_cons_of_mem _ (List.mem_singleton.2 rfl)))
  | .binary op left right, p, hopen => by
    have hleft := blames_visit mapper root left .elsewhere (by simp)
    have hright := blames_visit mapper root right .elsewhere (by simp)
    refine .group (hleft.part hopen List.mem_cons_self) ?_
      (hright.part hopen (List.mem_cons_of_mem _ (List.mem_singleton.2 rfl)))
    cases hop : binaryText? op with
    | some text => exact .never fun _ => ⟨_, _, rfl⟩
    | none => exact .fail ⟨p, _, .here, binaryText?_eq_none.1 hop⟩
  | .unary .not operand, p, hopen => by
    have hoperand := blames_visit mapper root operand .elsewhere (by simp)
    exact (FailsWith.emit _).bind fun _ => hoperand.part hopen (List.mem_singleton.2 rfl)
  | .unary .typeAs operand, p, hopen =>
    (blames_visit mapper root operand .elsewhere (by simp)).part hopen (List.mem_singleton.2 rfl)
  | .unary .convert operand, p, hopen => by
    have hp : p = .elsewhere := by
      cases p with
      | target => exact absurd ⟨rfl, rfl⟩ hopen
      | elsewhere => rfl
    exact .fail ⟨p, _, .here, hp⟩
  | .unary .negate operand, p, hopen => .fail ⟨p, _, .here, trivial⟩
  | .member target name, p, hopen => by
    have htarget := blames_visit mapper root target .target
    rw [visit]
    split
    · exact (FailsWith.resolve name (fun _ => id) id).bind fun field => .emit _
    · rename_i hitem
      split
      · -- a conversion is an item, so no value is taken of it
        have hconversion : ¬(Position.target = .target ∧ target.isConversion = true) :=
          fun h => hitem (isItem_of_isConversion h.2)
        exact (htarget hconversion).part hopen (List.mem_singleton.2 rfl)
      · rename_i hproperty
        refine .fail ⟨p, _, .here, by simpa using hitem, fun h hname => hproperty ?_⟩
        rw [h, hname]
        rfl
  | .indexer key, p, hopen => (FailsWith.resolve key (fun _ => id) id).bind fun field => .emit _
  | .constant value, p, hopen => by
    by_cases htable : ∃ entity, value = .table entity
    · obtain ⟨entity, rfl⟩ := htable
      exact .never fun _ => ⟨_, _, rfl⟩
    · rw [visit, visitConstant_eq htable]
      cases hf : constantFragment? value with
      | some f => exact .emit f
      | none => exact .fail ⟨p, _, .here, (constantFragment?_eq_none.1 hf).resolve_right htable⟩
  | .parameter _, p, hopen => .never fun _ => ⟨_, _, rfl⟩
  | .lambda _ body, p, hopen =>
    (blames_visit mapper root body .elsewhere (by simp)).part hopen (List.mem_singleton.2 rfl)
  | .call method arguments, p, hopen =>
    (blames_visitAll mapper root arguments).mono fun err herr => by
      obtain ⟨e, he, herr⟩ := herr
      exact .part (List.mem_map_of_mem he) hopen herr

theorem blames_visitAll (mapper : FieldMapper σ) (root : Option String) : ∀ es : List Expr,
    FailsWith (fun err => ∃ e ∈ es, Blames mapper root .elsewhere e err) (visitAll mapper root es)
  | [] => .never fun _ => ⟨_, _, rfl⟩
  | e :: rest =>
    ((blames_visit mapper root e .elsewhere (by simp)).mono fun err herr => ⟨e, List.mem_cons_self, herr⟩).bind
      fun _ => (blames_visitAll mapper root rest).mono fun err herr => by
        obtain ⟨f, hf, herr⟩ := herr
        exact ⟨f, List.mem_cons_of_mem e hf, herr⟩

end

theorem failsWith_lookupAll {P : CompileError → Prop} (hfield : ∀ e, Lacks mapper e → P (.unknownField e))
    (entity : String) : ∀ names : List String, FailsWith P (lookupAll mapper entity names)
  | [] => .never fun _ => ⟨_, _, rfl⟩
  | name :: names => (FailsWith.lookup entity name hfield).bind fun _ =>
    (failsWith_lookupAll hfield entity names).bind fun _ => .never fun _ => ⟨_, _, rfl⟩

theorem failsWith_selectFields {P : CompileError → Prop} (hfield : ∀ e, Lacks mapper e → P (.unknownField e))
    (mode : ProjectionMode) (entity : String) (projections : List Projection) :
    FailsWith P (selectFields mapper mode entity projections) := by
  have hdefaults : FailsWith P (defaults mapper entity) := .never fun _ => ⟨_, _, rfl⟩
  unfold selectFields
  rcases requested projections with _ | ⟨name, names⟩
  · cases mode <;> exact hdefaults
  · cases mode with
    | explicit => exact failsWith_lookupAll hfield entity (name :: names)
    | defaultFields => exact (FailsWith.never fun _ => ⟨_, _, rfl⟩).bind fun _ => hdefaults

/-- What comes after the walk fails only for want of a field, of fields to select or of an entity. -/
theorem failsWith_conclude {P : CompileError → Prop} {mode : ProjectionMode}
    (hfield : ∀ e, Lacks mapper e → P (.unknownField e)) (hselect : ∀ entity, P (.emptySelect entity))
    (hsource : root = none → P .missingSource) : FailsWith P (conclude mapper mode root) := by
  have hentity : FailsWith P (entityOf root : Walk σ String) := by
    intro s s' err h
    unfold entityOf at h
    split at h <;> cases h
    exact hsource rfl
  have hselection : ∀ entity : String, FailsWith P (selection mapper mode entity) := fun entity s =>
    failsWith_selectFields hfield mode entity s.statement.projections s
  refine hentity.bind fun entity => (hselection entity).bind fun select => ?_
  have hfinish : FailsWith P (finish mapper entity select) := .never fun _ => ⟨_, _, rfl⟩
  split
  · exact (FailsWith.fail (hselect entity)).bind fun _ => hfinish
  · exact hfinish

/-- A compilation fails for want of fields to select, or with errors that are to blame on the mapper or on a part of
the expression. -/
theorem blames_compile {mode : ProjectionMode} {e : Expr} {fields : σ} {err : CompileError}
    (h : (compile mapper mode e fields).result = .error err) :
    (∃ entity, err = .emptySelect entity) ∨ Blames mapper e.elementType .elsewhere e err := by
  have hfails : FailsWith (fun err => (∃ entity, err = .emptySelect entity) ∨
      Blames mapper e.elementType .elsewhere e err) (compilation mapper mode e) :=
    (FailsWith.never fun _ => ⟨(), _, rfl⟩).bind fun _ =>
      ((blames_visit mapper e.elementType e .elsewhere (by simp)).mono fun _ => .inr).bind fun _ =>
        failsWith_conclude (fun _ => .inr) (fun entity => .inl ⟨entity, rfl⟩) .inr
  rcases hc : compilation mapper mode e { fields } with ⟨result, last⟩
  have hresult : result = .error err := by rw [← h, compile, hc]
  subst hresult
  exact hfails _ _ _ hc

/-- An expression compiles only if the walk over it ends well. -/
theorem visit_of_compile {mode : ProjectionMode} {e : Expr} {fields : σ} {q : Statement}
    (h : (compile mapper mode e fields).result = .ok q) :
    ∃ s s', Visits mapper e.elementType e s s' := by
  rcases hc : compilation mapper mode e { fields } with ⟨result, last⟩
  have hresult : result = .ok q := by rw [← h, compile, hc]
  subst hresult
  obtain ⟨_, s, -, hc⟩ := Walk.bind_eq_ok hc
  obtain ⟨_, s', hvisit, -⟩ := Walk.bind_eq_ok hc
  exact ⟨s, s', visits_of_visit e hvisit⟩

end Compilation

/-- An expression that compiles holds nothing without a form. -/
theorem has_form_of_compile {σ : Type} {mapper : FieldMapper σ} {mode : ProjectionMode} {e : Expr} {fields : σ}
    {q : Statement} (h : (compile mapper mode e fields).result = .ok q) {position : Position} {part : Expr}
    (hpart : e.Holds .elsewhere position part) : ¬part.HasNoForm position :=
  not_hasNoForm_of_passes (passes_of_holds hpart (.inr (visit_of_compile h)))

/-- A conversion that a member is taken of hides what is below it, and nothing else. -/
theorem has_form_of_compile_converted :
    let mapper : FieldMapper Unit := ⟨fun _ property s => (.ok property, s), fun _ _ => ["Id"], fun _ _ => []⟩
    let item := Expr.unary .convert (.unary .negate (.parameter "it"))
    let e := Expr.filter (Expr.table "Task") (.binary .equal (.member item "Rank") (.constant (.double ⟨0⟩)))
    ∃ q, (compile mapper .explicit e ()).result = .ok q ∧ e.Holds .elsewhere .target item ∧
      ¬item.HasNoForm .target ∧ item.HasNoForm .elsewhere := by
  intro mapper item e
  have hcompile : (compile mapper .explicit e ()).result = .ok {
      entity := some "Task"
      select := ["Id"]
      filters := [.compound [.groupOpen, .field "Rank", .literal " = ", .literal "0", .groupClose]] } := by
    rfl
  have hrank : (Expr.member item "Rank").Holds .elsewhere .target item :=
    .inside (q := .target) (List.mem_singleton.2 rfl) (by simp) .here
  have hequal : (Expr.binary .equal (.member item "Rank") (.constant (.double ⟨0⟩))).Holds .elsewhere .target item :=
    .inside (q := .elsewhere) List.mem_cons_self (by simp) hrank
  have hitem : e.Holds .elsewhere .target item :=
    .inside (q := .elsewhere) (List.mem_cons_of_mem _ (List.mem_singleton.2 rfl)) (by simp) hequal
  exact ⟨_, hcompile, hitem, has_form_of_compile hcompile hitem, rfl⟩

end WorkItemQuery
