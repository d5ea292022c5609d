/-
Query expressions: a query operator wraps the query it works on, and predicates hang off filters as
functions of one parameter. The type holds more than pipelines can say, since expressions are also
built by hand.
-/
import WorkItemQuery.Number.Double
import WorkItemQuery.Text.Visible
import WorkItemQuery.Time.Timestamp

namespace WorkItemQuery

open Number Text Time

inductive BinaryOp where
  | and
  | andAlso
  | or
  | orElse
  | equal
  | notEqual
  | lessThan
  | lessThanOrEqual
  | greaterThan
  | greaterThanOrEqual
  | add
  | subtract
  | multiply
  | divide
  | modulo
  | coalesce
deriving DecidableEq, Repr

inductive UnaryOp where
  | not
  /-- A value seen as another type, or nothing. -/
  | typeAs
  /-- A value turned into another type. -/
  | convert
  | negate
deriving DecidableEq, Repr

/-- The relations between a field and a value that only work item queries have. -/
inductive DomainOp where
  | isIn
  | under
  | wasEver
  | contains
  | inGroup
  | notInGroup
deriving DecidableEq, Repr

inductive Direction where
  | ascending
  | descending
  /-- An ordering that was built without a direction. -/
  | unspecified
deriving DecidableEq, Repr

/-- What a query asks to be selected. -/
inductive Projection where
  | all
  | fields (names : List String)
deriving DecidableEq, Repr

inductive Constant where
  /-- The table of an entity, from which a query starts. -/
  | table (entity : String)
  | null
  | string (text : String)
  | timestamp (time : Timestamp)
  | int16 (value : Int16)
  | int32 (value : Int32)
  | int64 (value : Int64)
  | double (value : Double)
  | intList (values : List Int32)
  | stringList (values : List String)
  | bool (value : Bool)
  /-- A value of the surrounding program that no query can hold. -/
  | foreign (typeName text : String)
deriving DecidableEq

inductive Expr where
  | select (source : Expr) (projection : Projection)
  | filter (source : Expr) (predicate : Expr)
  | order (source : Expr) (selector : Expr) (direction : Direction)
  | asOf (source : Expr) (time : Timestamp)
  | domain (op : DomainOp) (subject target : Expr)
  | binary (op : BinaryOp) (left right : Expr)
  | unary (op : UnaryOp) (operand : Expr)
  | member (target : Expr) (name : String)
  /-- A field by its key, as in `[Custom.Field]`. -/
  | indexer (key : String)
  | constant (value : Constant)
  | parameter (name : String)
  | lambda (parameter : String) (body : Expr)
  | call (method : String) (arguments : List Expr)

namespace Constant

/-- The text of a constant in messages. -/
def display : Constant → String
  | table entity => "Query<" ++ entity ++ ">"
  | null => "null"
  | string text => text
  | timestamp time => time.displayText
  | int16 v => intText v.toInt
  | int32 v => intText v.toInt
  | int64 v => intText v.toInt
  | double v => v.text
  | intList vs => visibleList (vs.map fun v => intText v.toInt)
  | stringList vs => visibleList (vs.map visible)
  | bool v => if v then "true" else "false"
  | foreign typeName text => text ++ " (" ++ typeName ++ ")"

end Constant

namespace Expr

/-- The parameter that predicates are functions of. -/
def itName : String := "it"

/-- The query of all items of an entity. -/
def table (entity : String) : Expr := constant (.table entity)

/-- A property of the item that a predicate looks at. -/
def field (name : String) : Expr := member (parameter itName) name

/-- The function of `it` with the given body. -/
def itLambda (body : Expr) : Expr := lambda itName body

mutual

/-- The entity whose items a query yields, if the expression is a query. -/
def elementType : Expr → Option String
  | constant (.table entity) => some entity
  | select source _ => source.elementType
  | filter source _ => source.elementType
  | order source _ _ => source.elementType
  | asOf source _ => source.elementType
  | call _ arguments => firstElementType arguments
  | _ => none

/-- The first entity that one of the expressions yields. -/
def firstElementType : List Expr → Option String
  | [] => none
  | e :: rest =>
    match e.elementType with
    | some entity => some entity
    | none => firstElementType rest

end

end Expr

end WorkItemQuery
