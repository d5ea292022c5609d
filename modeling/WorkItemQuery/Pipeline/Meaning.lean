/-
What a pipeline stands for: the query expression it builds. Literals get their values here, and a
literal without a value is the one way to fail. The first such literal counts, from the first step to
the last and from left to right.
-/
import WorkItemQuery.Expr.Basic
import WorkItemQuery.Number.Decimal
import WorkItemQuery.Pipeline.Basic
import WorkItemQuery.Time.Reading

namespace WorkItemQuery.Pipeline

open Number Time

/-- Why a literal has no value. -/
inductive LiteralError where
  /-- A whole number beyond 64 bits. -/
  | numberTooLarge (text : String)
  /-- A number in a list that is no 32-bit integer. -/
  | listItem (text : String)
  | emptyList
  | mixedList
  | timestamp (text : String)
deriving DecidableEq, Repr

namespace LiteralError

def message : LiteralError → String
  | numberTooLarge text => text
  | listItem text => "List elements must be 32-bit integers or strings: " ++ text
  | emptyList => "Empty list"
  | mixedList => "List mixes numbers and strings"
  | timestamp text => "Invalid timestamp '" ++ text ++ "'"

end LiteralError

namespace NumberText

/-- The value of a number without a fraction. -/
def intValue (n : NumberText) : Int :=
  if n.negative then -(ofDigits n.whole : Int) else ofDigits n.whole

/-- The constant that a number stands for: a double if it has a fraction, otherwise the smaller of a
32-bit and a 64-bit integer that holds it. -/
def constant (n : NumberText) : Except LiteralError Constant :=
  if n.fraction.isEmpty then
    match int32? n.intValue, int64? n.intValue with
    | some v, _ => .ok (.int32 v)
    | none, some v => .ok (.int64 v)
    | none, none => .error (.numberTooLarge n.text)
  else .ok (.double (Double.ofDecimal (Decimal.ofParts n.negative n.whole n.fraction 0)))

/-- The value of a number in a list. -/
def listValue (n : NumberText) : Except LiteralError Int32 :=
  match n.constant with
  | .ok (.int32 v) => .ok v
  | .ok _ => .error (.listItem n.text)
  | .error e => .error e

end NumberText

/-- The numbers and the strings of a list, each in their order. -/
def splitScalars : List Scalar → Except LiteralError (List Int32 × List String)
  | [] => .ok ([], [])
  | .string text :: rest => do
    let (numbers, strings) ← splitScalars rest
    return (numbers, text :: strings)
  | .number n :: rest => do
    let v ← n.listValue
    let (numbers, strings) ← splitScalars rest
    return (v :: numbers, strings)

/-- The constant that a list stands for: it holds either numbers or strings, and at least one. -/
def listConstant (items : List Scalar) : Except LiteralError Constant := do
  match ← splitScalars items with
  | ([], []) => .error .emptyList
  | (numbers, []) => .ok (.intList numbers)
  | ([], strings) => .ok (.stringList strings)
  | (_, _) => .error .mixedList

/-- The instant that the text of a timestamp stands for. -/
def timeOf (text : String) : Except LiteralError Timestamp :=
  match Timestamp.ofQueryText? text with
  | some t => .ok t
  | none => .error (.timestamp text)

namespace Literal

def constant : Literal → Except LiteralError Constant
  | list items => listConstant items
  | timestamp text => return .timestamp (← timeOf text)
  | string text => .ok (.string text)
  | number n => n.constant
  | null => .ok .null

end Literal

namespace Operand

def toExpr : Operand → Expr
  | name n => Expr.field n
  | key k => Expr.indexer k

end Operand

namespace Relation

def toExpr (subject target : Expr) : Relation → Expr
  | compare op => .binary op subject target
  | domain op => .domain op subject target

end Relation

namespace Condition

/-- The predicate that a condition stands for. -/
def toExpr : Condition → Except LiteralError Expr
  | test operand relation value => do
    return relation.toExpr operand.toExpr (.constant (← value.constant))
  | not c => return .unary .not (← c.toExpr)
  | and left right => return .binary .andAlso (← left.toExpr) (← right.toExpr)
  | or left right => return .binary .orElse (← left.toExpr) (← right.toExpr)

end Condition

namespace SortKey

def direction (key : SortKey) : Direction :=
  if key.descending then .descending else .ascending

end SortKey

namespace Step

/-- The query with one more step. -/
def apply (query : Expr) : Step → Except LiteralError Expr
  | select projection => .ok (.select query projection)
  | filter condition => return .filter query (Expr.itLambda (← condition.toExpr))
  | order keys =>
    .ok (keys.foldl (fun q key => .order q (Expr.itLambda key.operand.toExpr) key.direction) query)
  | asOf text => return .asOf query (← timeOf text)

end Step

/-- The query with one step after the other. -/
def applySteps (query : Expr) : List Step → Except LiteralError Expr
  | [] => .ok query
  | s :: rest => do applySteps (← s.apply query) rest

/-- The query that a pipeline stands for. -/
def toExpr (p : Pipeline) : Except LiteralError Expr :=
  applySteps (Expr.table p.entity) p.steps

end WorkItemQuery.Pipeline
