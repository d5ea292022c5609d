/-
The fragments of an expression, without a walk: each expression has a list of fragments that is made
from those of its parts, and the only thing that changes on the way is the state of the field mapper.
On expressions with no query inside, the walk adds exactly these fragments to the pending clause and
touches nothing else; where the fragments fail, it fails with the same error.
-/
import WorkItemQuery.Proofs.Compilation.Visits

namespace WorkItemQuery.Compilation

open Walk

variable {σ α β : Type}

/-- Questions to a field mapper. They may change its state, and end with an answer or with an error. -/
abbrev Asking (σ : Type) : Type → Type := ExceptT CompileError (StateM σ)

namespace Asking

theorem bind_ok {m : Asking σ α} {f : α → Asking σ β} {s s' : σ} {a : α} (h : m s = (.ok a, s')) :
    (m >>= f) s = f a s' := by
  show (ExceptT.bind m f : StateM σ _) s = _
  simp only [ExceptT.bind, ExceptT.mk]
  show (StateT.bind m _ s) = _
  unfold StateT.bind
  simp only [h]
  rfl

theorem bind_error {m : Asking σ α} {f : α → Asking σ β} {s s' : σ} {e : CompileError}
    (h : m s = (.error e, s')) : (m >>= f) s = (.error e, s') := by
  show (ExceptT.bind m f : StateM σ _) s = _
  simp only [ExceptT.bind, ExceptT.mk]
  show (StateT.bind m _ s) = _
  unfold StateT.bind
  simp only [h]
  rfl

/-- Two questions in a row that end with an answer. -/
theorem bind_eq_ok {m : Asking σ α} {f : α → Asking σ β} {s s' : σ} {b : β} (h : (m >>= f) s = (.ok b, s')) :
    ∃ a mid, m s = (.ok a, mid) ∧ f a mid = (.ok b, s') := by
  rcases hm : m s with ⟨err | a, mid⟩
  · rw [bind_error hm] at h; cases h
  · rw [bind_ok hm] at h; exact ⟨a, mid, rfl, h⟩

end Asking

/-! ## Fragments -/

/-- The field of a property of an entity. -/
def ask (mapper : FieldMapper σ) (entity property : String) : Asking σ String := fun fields =>
  match mapper.resolve entity property fields with
  | (.ok field, fields) => (.ok field, fields)
  | (.error e, fields) => (.error (.unknownField e), fields)

/-- The text of a binary operator. -/
def operatorText (op : BinaryOp) : Asking σ String :=
  match binaryText? op with
  | some text => pure text
  | none => throw (.unsupported (.binary op))

/-- Two lists of fragments in parentheses with text between them. -/
def groupOf (left : Asking σ (List Fragment)) (text : Asking σ String) (right : Asking σ (List Fragment)) :
    Asking σ (List Fragment) := do
  let l ← left
  let t ← text
  let r ← right
  return .groupOpen :: (l ++ .literal t :: (r ++ [.groupClose]))

mutual

/-- The fragments of an expression of an entity's items; queries have none. -/
def fragments (mapper : FieldMapper σ) (entity : String) : Expr → Asking σ (List Fragment)
  | .domain op subject target =>
    groupOf (fragments mapper entity subject) (pure (domainText op)) (fragments mapper entity target)
  | .binary op left right =>
    groupOf (fragments mapper entity left) (operatorText op) (fragments mapper entity right)
  | .unary .not operand => do
    let parts ← fragments mapper entity operand
    return .literal " NOT " :: parts
  | .unary .typeAs operand => fragments mapper entity operand
  | .unary op _ => throw (.unsupported (.unary op))
  | .member target name =>
    if isItem target then do
      return [.field (← ask mapper entity name)]
    else if isProperty target && name == valueMember then fragments mapper entity target
    else throw (.unsupported (.member name))
  | .indexer key => do
    return [.field (← ask mapper entity key)]
  | .constant value =>
    match constantFragment? value with
    | some f => pure [f]
    | none => throw (.unsupported (.constant value))
  | .lambda _ body => fragments mapper entity body
  | .call _ arguments => fragmentsAll mapper entity arguments
  | .parameter _ | .select _ _ | .filter _ _ | .order _ _ _ | .asOf _ _ => pure []

/-- The fragments of expressions, one after the other. -/
def fragmentsAll (mapper : FieldMapper σ) (entity : String) : List Expr → Asking σ (List Fragment)
  | [] => pure []
  | e :: rest => do
    let parts ← fragments mapper entity e
    let more ← fragmentsAll mapper entity rest
    return parts ++ more

end

mutual

/-- Whether there is no query inside an expression: no query operator and no table. -/
def isPlain : Expr → Bool
  | .select _ _ | .filter _ _ | .order _ _ _ | .asOf _ _ => false
  | .domain _ subject target => isPlain subject && isPlain target
  | .binary _ left right => isPlain left && isPlain right
  | .unary _ operand => isPlain operand
  | .member target _ => isPlain target
  | .constant (.table _) => false
  | .lambda _ body => isPlain body
  | .call _ arguments => areAllPlain arguments
  | .constant _ | .indexer _ | .parameter _ => true

def areAllPlain : List Expr → Bool
  | [] => true
  | e :: rest => isPlain e && areAllPlain rest

end

/-! ## What the walk does to a plain expression -/

/-- The entity of a statement is known, or is still that of the whole query. -/
def EntityIs (entity : String) (s : State σ) : Prop := s.statement.entity = none ∨ s.statement.entity = some entity

/-- A walk adds the given fragments to the pending clause, or fails as they do. -/
def Emits (entity : String) (w : Walk σ Unit) (m : Asking σ (List Fragment)) : Prop :=
  ∀ s : State σ, EntityIs entity s →
    match m s.fields with
    | (.ok parts, fields) => w s = (.ok (), { s with fields, pending := s.pending ++ parts })
    | (.error e, fields) => ∃ s', w s = (.error e, s') ∧ s'.fields = fields

/-- A walk gives the given answer and leaves the pending clause alone, or fails as the question does. -/
def Answers (entity : String) (w : Walk σ α) (m : Asking σ α) : Prop :=
  ∀ s : State σ, EntityIs entity s →
    match m s.fields with
    | (.ok a, fields) => w s = (.ok a, { s with fields })
    | (.error e, fields) => ∃ s', w s = (.error e, s') ∧ s'.fields = fields

theorem entityIs_next {entity : String} {s : State σ} (h : EntityIs entity s) (fields : σ) (pending : List Fragment) :
    EntityIs entity { s with fields, pending } := h

namespace Emits

variable {entity : String}

theorem nothing : Emits entity (pure () : Walk σ Unit) (pure []) := by
  intro s _
  show (Except.ok (), s) = (.ok (), { s with fields := s.fields, pending := s.pending ++ [] })
  rw [List.append_nil]

theorem emit (f : Fragment) : Emits entity (Walk.emit f : Walk σ Unit) (pure [f]) := fun _ _ => rfl

theorem fail (e : CompileError) : Emits entity (Walk.fail e : Walk σ Unit) (throw e) := fun s _ => ⟨s, rfl, rfl⟩

theorem andThen {w w' : Walk σ Unit} {m m' : Asking σ (List Fragment)} (h : Emits entity w m)
    (h' : Emits entity w' m') : Emits entity (do w; w') (do
      let parts ← m
      let more ← m'
      return parts ++ more) := by
  intro s hs
  have hw := h s hs
  rcases hm : m s.fields with ⟨err | parts, fields⟩
  · rw [hm] at hw
    obtain ⟨s', hw, hfields⟩ := hw
    rw [Asking.bind_error hm]
    exact ⟨s', Walk.bind_error hw, hfields⟩
  · rw [hm] at hw
    have hw' := h' _ (entityIs_next hs fields (s.pending ++ parts))
    rw [Asking.bind_ok hm, Walk.bind_ok hw]
    rcases hm' : m' fields with ⟨err | more, fields'⟩
    · rw [hm'] at hw'
      rw [Asking.bind_error hm']
      exact hw'
    · rw [hm'] at hw'
      rw [Asking.bind_ok hm', hw', List.append_assoc]
      rfl

theorem answer {w : Walk σ α} {m : Asking σ α} {f : α → Walk σ Unit} {g : α → Asking σ (List Fragment)}
    (h : Answers entity w m) (h' : ∀ a, Emits entity (f a) (g a)) : Emits entity (w >>= f) (m >>= g) := by
  intro s hs
  have hw := h s hs
  rcases hm : m s.fields with ⟨err | a, fields⟩
  · rw [hm] at hw
    obtain ⟨s', hw, hfields⟩ := hw
    rw [Asking.bind_error hm]
    exact ⟨s', Walk.bind_error hw, hfields⟩
  · rw [hm] at hw
    rw [Asking.bind_ok hm, Walk.bind_ok hw]
    exact h' a _ (entityIs_next hs fields s.pending)

theorem group {left right : Walk σ Unit} {text : Walk σ String} {l r : Asking σ (List Fragment)}
    {t : Asking σ String} (hl : Emits entity left l) (ht : Answers entity text t) (hr : Emits entity right r) :
    Emits entity (visitGroup left text right) (groupOf l t r) := by
  have h := (emit .groupOpen).andThen (hl.andThen (answer ht fun a =>
    (emit (.literal a)).andThen (hr.andThen (emit .groupClose))))
  unfold groupOf visitGroup emitText
  simpa using h

end Emits

theorem answers_pure (entity : String) (a : α) : Answers entity (pure a : Walk σ α) (pure a) := fun _ _ => rfl

theorem answers_operatorText (entity : String) (op : BinaryOp) :
    Answers entity (match binaryText? op with
      | some text => pure text
      | none => fail (.unsupported (.binary op)) : Walk σ String) (operatorText op) := by
  unfold operatorText
  cases binaryText? op with
  | some text => exact answers_pure entity text
  | none => exact fun s _ => ⟨s, rfl, rfl⟩

theorem Answers.bind {entity : String} {w : Walk σ α} {m : Asking σ α} {f : α → Walk σ β} {g : α → Asking σ β}
    (h : Answers entity w m) (h' : ∀ a, Answers entity (f a) (g a)) : Answers entity (w >>= f) (m >>= g) := by
  intro s hs
  have hw := h s hs
  rcases hm : m s.fields with ⟨err | a, fields⟩
  · rw [hm] at hw
    obtain ⟨s', hw, hfields⟩ := hw
    rw [Asking.bind_error hm]
    exact ⟨s', Walk.bind_error hw, hfields⟩
  · rw [hm] at hw
    rw [Asking.bind_ok hm, Walk.bind_ok hw]
    exact h' a _ (entityIs_next hs fields s.pending)

theorem answers_lookup (mapper : FieldMapper σ) (entity property : String) :
    Answers entity (lookup mapper entity property) (ask mapper entity property) := by
  intro s _
  unfold lookup ask
  rcases mapper.resolve entity property s.fields with ⟨err | field, fields⟩
  · exact ⟨_, rfl, rfl⟩
  · rfl

/-- Until a statement has an entity of its own, fields are looked up for that of the whole query. -/
theorem answers_resolve (mapper : FieldMapper σ) (entity property : String) :
    Answers entity (resolve mapper (some entity) property) (ask mapper entity property) := by
  intro s hs
  have hresolve : resolve mapper (some entity) property s = lookup mapper entity property s := by
    unfold resolve
    rcases hs with hs | hs <;> rw [hs]
  rw [hresolve]
  exact answers_lookup mapper entity property s hs

mutual

/-- The walk over a plain expression adds its fragments to the pending clause. -/
theorem emits_visit (mapper : FieldMapper σ) (entity : String) : ∀ e : Expr, isPlain e = true →
    Emits entity (visit mapper (some entity) e) (fragments mapper entity e)
  | .domain op subject target, h => by
    obtain ⟨hs, ht⟩ := Bool.and_eq_true_iff.1 h
    exact .group (emits_visit mapper entity subject hs) (answers_pure entity _) (emits_visit mapper entity target ht)
  | .binary op left right, h => by
    obtain ⟨hl, hr⟩ := Bool.and_eq_true_iff.1 h
    exact .group (emits_visit mapper entity left hl) (answers_operatorText entity op)
      (emits_visit mapper entity right hr)
  | .unary .not operand, h => by
    have hnot := (Emits.emit (.literal " NOT ")).andThen (emits_visit mapper entity operand h)
    simpa [fragments, visit, emitText] using hnot
  | .unary .typeAs operand, h => emits_visit mapper entity operand h
  | .unary .convert operand, _ => .fail _
  | .unary .negate operand, _ => .fail _
  | .member target name, h => by
    rw [visit, fragments]
    split
    · exact .answer (answers_resolve mapper entity name) fun field => .emit (.field field)
    · split
      · exact emits_visit mapper entity target h
      · exact .fail _
  | .indexer key, _ => .answer (answers_resolve mapper entity key) fun field => .emit (.field field)
  | .constant value, h => by
    have htable : ¬∃ entity, value = .table entity := by
      rintro ⟨entity, rfl⟩
      cases h
    rw [visit, fragments, visitConstant_eq htable]
    cases constantFragment? value with
    | some f => exact .emit f
    | none => exact .fail _
  | .lambda _ body, h => emits_visit mapper entity body h
  | .call _ arguments, h => emits_visitAll mapper entity arguments h
  | .parameter _, _ => .nothing
  | .select _ _, h | .filter _ _, h | .order _ _ _, h | .asOf _ _, h => by cases h

theorem emits_visitAll (mapper : FieldMapper σ) (entity : String) : ∀ es : List Expr, areAllPlain es = true →
    Emits entity (visitAll mapper (some entity) es) (fragmentsAll mapper entity es)
  | [], _ => .nothing
  | e :: rest, h => by
    obtain ⟨he, hrest⟩ := Bool.and_eq_true_iff.1 h
    exact (emits_visit mapper entity e he).andThen (emits_visitAll mapper entity rest hrest)

end

end WorkItemQuery.Compilation
