/-
Pipelines as they are written: a source and a list of steps. Conditions combine tests of an operand
against a literal; literals are kept as they were written, since not every one has a value.
-/
import WorkItemQuery.Expr.Basic
import WorkItemQuery.Pipeline.Lexeme

namespace WorkItemQuery.Pipeline

/-- A field, by its name or by a key in brackets. -/
inductive Operand where
  | name (name : String)
  | key (key : String)
deriving DecidableEq, Repr

/-- An item of a list. -/
inductive Scalar where
  | string (text : String)
  | number (number : NumberText)
deriving DecidableEq, Repr

/-- The value that a field is compared with. -/
inductive Literal where
  | list (items : List Scalar)
  | timestamp (text : String)
  | string (text : String)
  | number (number : NumberText)
  | null
deriving DecidableEq, Repr

/-- The relation between a field and a value. -/
inductive Relation where
  | compare (op : BinaryOp)
  | domain (op : DomainOp)
deriving DecidableEq, Repr

inductive Condition where
  | test (operand : Operand) (relation : Relation) (value : Literal)
  | not (condition : Condition)
  | and (left right : Condition)
  | or (left right : Condition)
deriving DecidableEq, Repr

/-- A field to order by; ascending unless the descending order is asked for. -/
structure SortKey where
  operand : Operand
  descending : Bool
deriving DecidableEq, Repr

inductive Step where
  | select (projection : Projection)
  | filter (condition : Condition)
  | order (keys : List SortKey)
  | asOf (timestamp : String)
deriving DecidableEq, Repr

end WorkItemQuery.Pipeline

namespace WorkItemQuery

open Pipeline in
/-- A query as a pipeline. -/
structure Pipeline where
  entity : String
  steps : List Step
deriving DecidableEq, Repr

end WorkItemQuery
