/-
The JSON form of query expressions. Every case of a type is an object with one member, which is named
for the case and holds its content; a case without content is its bare name.
-/
import WorkItemQuery.Expr.Basic
import WorkItemQuery.Json.Value
import WorkItemQuery.Number.Scaling
import WorkItemQuery.Number.Decimal
import WorkItemQuery.Time.Reading

namespace WorkItemQuery

open Number Time

/-! ## Operators -/

namespace BinaryOp

/-- The name of an operator, in JSON and in messages. -/
def name : BinaryOp → String
  | and => "And"
  | andAlso => "AndAlso"
  | or => "Or"
  | orElse => "OrElse"
  | equal => "Equal"
  | notEqual => "NotEqual"
  | lessThan => "LessThan"
  | lessThanOrEqual => "LessThanOrEqual"
  | greaterThan => "GreaterThan"
  | greaterThanOrEqual => "GreaterThanOrEqual"
  | add => "Add"
  | subtract => "Subtract"
  | multiply => "Multiply"
  | divide => "Divide"
  | modulo => "Modulo"
  | coalesce => "Coalesce"

def every : List BinaryOp :=
  [and, andAlso, or, orElse, equal, notEqual, lessThan, lessThanOrEqual, greaterThan,
   greaterThanOrEqual, add, subtract, multiply, divide, modulo, coalesce]

def ofName? (s : String) : Option BinaryOp := every.find? (·.name == s)

def toJson (op : BinaryOp) : Json := .string op.name

def ofJson? (j : Json) : Option BinaryOp := do ofName? (← j.bare?)

end BinaryOp

namespace UnaryOp

/-- The name of an operator, in JSON and in messages. -/
def name : UnaryOp → String
  | not => "Not"
  | typeAs => "TypeAs"
  | convert => "Convert"
  | negate => "Negate"

def every : List UnaryOp := [not, typeAs, convert, negate]

def ofName? (s : String) : Option UnaryOp := every.find? (·.name == s)

def toJson (op : UnaryOp) : Json := .string op.name

def ofJson? (j : Json) : Option UnaryOp := do ofName? (← j.bare?)

end UnaryOp

namespace DomainOp

/-- The name of the case in JSON. -/
def name : DomainOp → String
  | isIn => "In"
  | under => "Under"
  | wasEver => "WasEver"
  | contains => "Contains"
  | inGroup => "InGroup"
  | notInGroup => "NotInGroup"

def every : List DomainOp := [isIn, under, wasEver, contains, inGroup, notInGroup]

def ofName? (s : String) : Option DomainOp := every.find? (·.name == s)

end DomainOp

namespace Direction

def name : Direction → String
  | ascending => "Ascending"
  | descending => "Descending"
  | unspecified => "Unspecified"

def every : List Direction := [ascending, descending, unspecified]

def ofName? (s : String) : Option Direction := every.find? (·.name == s)

def toJson (d : Direction) : Json := .string d.name

def ofJson? (j : Json) : Option Direction := do ofName? (← j.bare?)

end Direction

/-! ## Projections, timestamps and constants -/

namespace Projection

def toJson : Projection → Json
  | all => .string "All"
  | fields names => .tagged "Fields" (.strings names)

def ofJson? (j : Json) : Option Projection :=
  match j.case? with
  | some ("All", none) => some all
  | some ("All", some .null) => some all
  | some ("Fields", some content) => (content.listOf? Json.string?).map fields
  | _ => none

end Projection

namespace Time.Timestamp

def toJson (t : Timestamp) : Json := .string t.text

def ofJson? (j : Json) : Option Timestamp := do ofText? (← j.string?)

end Time.Timestamp

namespace Constant

/-- A double as JSON: its shortest decimal, or null when it is not finite. -/
def doubleJson (d : Double) : Json :=
  if d.isFinite then .decimal d.shortest else .null

/-- A double from any JSON number. -/
def doubleOfJson? : Json → Option Double
  | .int i => Double.ofSteps? ⟨i < 0, i.natAbs, 0⟩
  | .decimal d => Double.ofSteps? d
  | _ => none

def toJson : Constant → Json
  | table entity => .tagged "Queryable" (.object [("entity", .string entity)])
  | null => .string "Null"
  | string s => .tagged "String" (.string s)
  | timestamp t => .tagged "Timestamp" t.toJson
  | int16 v => .tagged "Int16" (.int v.toInt)
  | int32 v => .tagged "Int32" (.int v.toInt)
  | int64 v => .tagged "Int64" (.int v.toInt)
  | double v => .tagged "Float64" (doubleJson v)
  | intList vs => .tagged "IntList" (.array (vs.map fun v => .int v.toInt))
  | stringList vs => .tagged "StringList" (.strings vs)
  | bool b => .tagged "Bool" (.bool b)
  | foreign typeName text =>
    .tagged "Opaque" (.object [("type_name", .string typeName), ("text", .string text)])

/-- The constant of the named case with the given content. -/
def ofContent? (name : String) (content : Json) : Option Constant :=
  match name with
  | "Queryable" => do return table (← (← content.record? ["entity"] 1).required? "entity" Json.string?)
  | "Null" => match content with
    | .null => some null
    | _ => none
  | "String" => content.string?.map string
  | "Timestamp" => (Timestamp.ofJson? content).map timestamp
  | "Int16" => do return int16 (← int16? (← content.int?))
  | "Int32" => do return int32 (← int32? (← content.int?))
  | "Int64" => do return int64 (← int64? (← content.int?))
  | "Float64" => (doubleOfJson? content).map double
  | "IntList" => (content.listOf? fun j => do int32? (← j.int?)).map intList
  | "StringList" => (content.listOf? Json.string?).map stringList
  | "Bool" => content.bool?.map bool
  | "Opaque" => do
    return foreign (← content.required? "type_name" Json.string?) (← content.required? "text" Json.string?)
  | _ => none

def ofJson? (j : Json) : Option Constant :=
  match j.case? with
  | some ("Null", none) => some null
  | some (name, some content) => ofContent? name content
  | _ => none

end Constant

/-! ## Expressions -/

namespace Expr

mutual

def toJson : Expr → Json
  | select source projection =>
    .tagged "Select" (.object [("source", toJson source), ("projection", projection.toJson)])
  | filter source predicate =>
    .tagged "Where" (.object [("source", toJson source), ("filter", toJson predicate)])
  | order source selector direction =>
    .tagged "Order" (.object
      [("source", toJson source), ("selector", toJson selector), ("direction", direction.toJson)])
  | asOf source time =>
    .tagged "AsOf" (.object [("source", toJson source), ("timestamp", time.toJson)])
  | domain op subject target =>
    .tagged op.name (.object [("subject", toJson subject), ("target", toJson target)])
  | binary op left right =>
    .tagged "Binary" (.object [("op", op.toJson), ("left", toJson left), ("right", toJson right)])
  | unary op operand =>
    .tagged "Unary" (.object [("op", op.toJson), ("operand", toJson operand)])
  | member target name =>
    .tagged "Member" (.object [("target", toJson target), ("name", .string name)])
  | indexer key => .tagged "Indexer" (.object [("key", .string key)])
  | constant value => .tagged "Constant" value.toJson
  | parameter name => .tagged "Parameter" (.string name)
  | lambda name body =>
    .tagged "Lambda" (.object [("parameter", .string name), ("body", toJson body)])
  | call method arguments =>
    .tagged "Call" (.object [("method", .string method), ("arguments", .array (toJsonAll arguments))])

def toJsonAll : List Expr → List Json
  | [] => []
  | e :: rest => toJson e :: toJsonAll rest

end

/-- The expression of the named case, its parts read by `read`. -/
def ofContent? (read : Json → Option Expr) (name : String) (content : Json) : Option Expr :=
  match name with
  | "Select" => do
    return select (← content.required? "source" read) (← content.required? "projection" Projection.ofJson?)
  | "Where" => do
    return filter (← content.required? "source" read) (← content.required? "filter" read)
  | "Order" => do
    return order (← content.required? "source" read) (← content.required? "selector" read)
      (← content.required? "direction" Direction.ofJson?)
  | "AsOf" => do
    return asOf (← content.required? "source" read) (← content.required? "timestamp" Timestamp.ofJson?)
  | "Binary" => do
    return binary (← content.required? "op" BinaryOp.ofJson?) (← content.required? "left" read)
      (← content.required? "right" read)
  | "Unary" => do
    return unary (← content.required? "op" UnaryOp.ofJson?) (← content.required? "operand" read)
  | "Member" => do
    return member (← content.required? "target" read) (← content.required? "name" Json.string?)
  | "Indexer" => do return indexer (← content.required? "key" Json.string?)
  | "Constant" => (Constant.ofJson? content).map constant
  | "Parameter" => content.string?.map parameter
  | "Lambda" => do
    return lambda (← content.required? "parameter" Json.string?) (← content.required? "body" read)
  | "Call" => do
    return call (← content.required? "method" Json.string?)
      (← content.required? "arguments" (Json.listOf? read))
  | _ => do
    return domain (← DomainOp.ofName? name) (← content.required? "subject" read)
      (← content.required? "target" read)

/-- Reads an expression from JSON nested at most `depth` levels deep. -/
def ofJsonWithin : Nat → Json → Option Expr
  | 0, _ => none
  | depth + 1, j =>
    match j.case? with
    | some (name, some content) => ofContent? (ofJsonWithin depth) name content
    | _ => none

/-- Reads an expression from JSON. -/
def ofJson? (j : Json) : Option Expr := ofJsonWithin j.depth j

end Expr

end WorkItemQuery
