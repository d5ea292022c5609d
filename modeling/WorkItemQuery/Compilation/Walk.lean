/-
The walk over an expression. It collects fragments into a pending clause; a filter or an order ends
the clause and adds it to the statement. The walk goes to the source of an operator first, so clauses
come out in the order in which the operators apply.
-/
import WorkItemQuery.Fields.Mapper
import WorkItemQuery.Log.Notice
import WorkItemQuery.Statement.Basic
import WorkItemQuery.Compilation.Error

namespace WorkItemQuery.Compilation

open Log Number

/-- The state of a walk. -/
structure State (σ : Type) where
  /-- The state of the field mapper. -/
  fields : σ
  statement : Statement := {}
  /-- The fragments of the clause that is not finished yet. -/
  pending : List Fragment := []
  notices : List Notice := []

/-- A walk changes the state, and ends with a value or with an error. -/
def Walk (σ α : Type) : Type := State σ → Except CompileError α × State σ

namespace Walk

variable {σ α β : Type}

/-- A walk that goes nowhere. -/
def stay (a : α) : Walk σ α := fun s => (.ok a, s)

/-- One walk, and another from where it ends; an error ends both. -/
def andThen (w : Walk σ α) (f : α → Walk σ β) : Walk σ β := fun s =>
  match w s with
  | (.ok a, s) => f a s
  | (.error e, s) => (.error e, s)

instance : Monad (Walk σ) where
  pure := stay
  bind := andThen

def fail (e : CompileError) : Walk σ α := fun s => (.error e, s)

def update (f : State σ → State σ) : Walk σ Unit := fun s => (.ok (), f s)

/-- Reports a notice. -/
def note (n : Notice) : Walk σ Unit := update fun s => { s with notices := s.notices ++ [n] }

/-- Adds a fragment to the pending clause. -/
def emit (f : Fragment) : Walk σ Unit := update fun s => { s with pending := s.pending ++ [f] }

/-- Adds text to the pending clause. -/
def emitText (text : String) : Walk σ Unit := emit (.literal text)

/-- Drops the pending clause. -/
def reset : Walk σ Unit := update fun s => { s with pending := [] }

/-- Ends the pending clause: if it holds anything, `keep` puts it into the statement. -/
def flush (notice : Fragment → Notice) (keep : Statement → Fragment → Statement) : Walk σ Unit := fun s =>
  match s.pending with
  | [] => (.ok (), s)
  | parts =>
    let clause := Fragment.compound parts
    (.ok (), { s with
      statement := keep s.statement clause
      pending := []
      notices := s.notices ++ [notice clause] })

/-- Ends the pending clause as a filter. -/
def flushFilter : Walk σ Unit :=
  flush .filterAdded fun s clause => { s with filters := s.filters ++ [clause] }

/-- Ends the pending clause as an order. -/
def flushOrder : Walk σ Unit :=
  flush .orderAdded fun s clause => { s with orders := s.orders ++ [clause] }

/-- Looks up a field of the given entity. -/
def lookup (mapper : FieldMapper σ) (entity property : String) : Walk σ String := fun s =>
  match mapper.resolve entity property s.fields with
  | (.ok field, fields) => (.ok field, { s with fields })
  | (.error e, fields) => (.error (.unknownField e), { s with fields })

/-- Looks up a field of the statement's entity, or of the whole query's until the statement has one. -/
def resolve (mapper : FieldMapper σ) (root : Option String) (property : String) : Walk σ String := fun s =>
  match s.statement.entity, root with
  | some entity, _ => lookup mapper entity property s
  | none, some entity => lookup mapper entity property s
  | none, none => (.error .missingSource, s)

end Walk

open Walk

/-! ## The words of statements -/

/-- How a binary operator is written; arithmetic has no form. -/
def binaryText? : BinaryOp → Option String
  | .and | .andAlso => some " AND "
  | .or | .orElse => some " OR "
  | .equal => some " = "
  | .notEqual => some " <> "
  | .lessThan => some " < "
  | .lessThanOrEqual => some " <= "
  | .greaterThan => some " > "
  | .greaterThanOrEqual => some " >= "
  | .add | .subtract | .multiply | .divide | .modulo | .coalesce => none

def domainText : DomainOp → String
  | .isIn => " IN "
  | .under => " UNDER "
  | .wasEver => " EVER "
  | .contains => " CONTAINS "
  | .inGroup => " IN GROUP "
  | .notInGroup => " NOT IN GROUP "

/-- How a direction is written, if there is one. -/
def directionText? : Direction → Option String
  | .ascending => some " asc"
  | .descending => some " desc"
  | .unspecified => none

/-- The fragment of a constant; tables, and constants without a form, have none. -/
def constantFragment? : Constant → Option Fragment
  | .null => some (.constant "")
  | .string text => some (.constant text)
  | .timestamp time => some (.timestamp time)
  | .int16 v => some (.literal (intText v.toInt))
  | .int32 v => some (.literal (intText v.toInt))
  | .int64 v => some (.literal (intText v.toInt))
  | .double v => if v.isFinite then some (.literal v.text) else none
  | .intList vs => if vs.isEmpty then none else some (.numberList vs)
  | .stringList vs => if vs.isEmpty then none else some (.stringList vs)
  | .table _ | .bool _ | .foreign _ _ => none

/-! ## Members -/

/-- The member that stands for the value inside an optional property. -/
def valueMember : String := "Value"

/-- A member of such a target is a field of the entity. -/
def isItem : Expr → Bool
  | .parameter _ => true
  | .unary .convert _ => true
  | _ => false

/-- The value of such a target is the target itself. -/
def isProperty : Expr → Bool
  | .member _ _ => true
  | .indexer _ => true
  | .unary .typeAs _ => true
  | _ => false

/-! ## The walk -/

variable {σ : Type}

/-- A table starts a query, so nothing collected before it belongs to a clause. -/
def visitConstant : Constant → Walk σ Unit
  | .table _ => reset
  | c =>
    match constantFragment? c with
    | some f => emit f
    | none => fail (.unsupported (.constant c))

/-- Two visits in parentheses with text between them. -/
def visitGroup (left : Walk σ Unit) (text : Walk σ String) (right : Walk σ Unit) : Walk σ Unit := do
  emit .groupOpen
  left
  emitText (← text)
  right
  emit .groupClose

mutual

/-- Visits an expression, given the entity of the whole query. -/
def visit (mapper : FieldMapper σ) (root : Option String) : Expr → Walk σ Unit
  | .select source projection => do
    visit mapper root source
    update fun s =>
      let statement :=
        match source.elementType with
        | some entity => (s.statement.setEntity entity).1
        | none => s.statement
      { s with statement := { statement with projections := statement.projections ++ [projection] } }
  | .filter source predicate => do
    visit mapper root source
    visit mapper root predicate
    flushFilter
  | .order source selector direction => do
    visit mapper root source
    visit mapper root selector
    match directionText? direction with
    | some text => emitText text
    | none => fail .malformedOrder
    flushOrder
  | .asOf source time => do
    visit mapper root source
    update fun s => { s with statement := { s.statement with asOf := some time } }
  | .domain op subject target =>
    visitGroup (visit mapper root subject) (pure (domainText op)) (visit mapper root target)
  | .binary op left right =>
    visitGroup (visit mapper root left)
      (match binaryText? op with
        | some text => pure text
        | none => fail (.unsupported (.binary op)))
      (visit mapper root right)
  | .unary .not operand => do
    emitText " NOT "
    visit mapper root operand
  | .unary .typeAs operand => visit mapper root operand
  | .unary op _ => fail (.unsupported (.unary op))
  | .member target name =>
    if isItem target then do
      emit (.field (← resolve mapper root name))
    else if isProperty target && name == valueMember then
      visit mapper root target
    else fail (.unsupported (.member name))
  | .indexer key => do
    emit (.field (← resolve mapper root key))
  | .constant value => visitConstant value
  | .parameter _ => pure ()
  | .lambda _ body => visit mapper root body
  | .call _ arguments => visitAll mapper root arguments

/-- Visits expressions one after the other. -/
def visitAll (mapper : FieldMapper σ) (root : Option String) : List Expr → Walk σ Unit
  | [] => pure ()
  | e :: rest => do
    visit mapper root e
    visitAll mapper root rest

end

end WorkItemQuery.Compilation
