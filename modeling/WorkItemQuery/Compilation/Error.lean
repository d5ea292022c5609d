/-
Why an expression cannot be compiled.
-/
import WorkItemQuery.Expr.Json
import WorkItemQuery.Fields.Registry

namespace WorkItemQuery

/-- What statements cannot express. -/
inductive Unsupported where
  | unary (op : UnaryOp)
  | binary (op : BinaryOp)
  | constant (value : Constant)
  | member (name : String)
deriving DecidableEq

inductive CompileError where
  | unknownField (error : UnknownField)
  | unsupported (what : Unsupported)
  /-- An ordering without a direction. -/
  | malformedOrder
  /-- No entity to look up fields for. -/
  | missingSource
  | emptySelect (entity : String)
deriving DecidableEq

namespace Unsupported

def message : Unsupported → String
  | unary op => "The unary operator '" ++ op.name ++ "' is not supported"
  | binary op => "The binary operator '" ++ op.name ++ "' is not supported"
  | constant value => "The constant for '" ++ value.display ++ "' is not supported"
  | member name => "The member '" ++ name ++ "' is not supported"

end Unsupported

namespace CompileError

def message : CompileError → String
  | unknownField error => error.message
  | unsupported what => "Unsupported operation: " ++ what.message
  | malformedOrder => "Malformed order: sort direction is neither ascending nor descending"
  | missingSource => "Missing source: the query has no entity type to translate against"
  | emptySelect entity => "No fields to select for entity '" ++ entity ++ "'"

end CompileError

end WorkItemQuery
