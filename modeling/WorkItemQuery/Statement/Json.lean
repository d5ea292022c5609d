/-
The JSON form of fragments and statements. A fragment says its kind and, if it has one, its value; a
statement leaves out its projections and its instant when it has none.
-/
import WorkItemQuery.Expr.Json
import WorkItemQuery.Statement.Basic

namespace WorkItemQuery

open Number Time

namespace Fragment

/-- The object of a fragment with a value. -/
def valued (kind : String) (value : Json) : Json :=
  .object [("kind", .string kind), ("value", value)]

mutual

def toJson : Fragment → Json
  | literal text => valued "Literal" (.string text)
  | constant text => valued "Constant" (.string text)
  | timestamp time => valued "Timestamp" time.toJson
  | numberList values => valued "NumberList" (.array (values.map fun v => .int v.toInt))
  | stringList values => valued "StringList" (.strings values)
  | field name => valued "FieldReference" (.string name)
  | groupOpen => .object [("kind", .string "GroupOpen")]
  | groupClose => .object [("kind", .string "GroupClose")]
  | compound parts => valued "Compound" (.array (toJsonAll parts))

def toJsonAll : List Fragment → List Json
  | [] => []
  | f :: rest => toJson f :: toJsonAll rest

end

/-- A kind without a value; a null may stand for it. -/
def valueless (f : Fragment) : Option Json → Option Fragment
  | none => some f
  | some .null => some f
  | some _ => none

/-- The fragment of a kind, parts of a compound read by `read`. -/
def ofKind? (read : Json → Option Fragment) (kind : String) (value : Option Json) : Option Fragment :=
  match kind with
  | "Literal" => do return literal (← (← value).string?)
  | "Constant" => do return constant (← (← value).string?)
  | "Timestamp" => do return timestamp (← Timestamp.ofJson? (← value))
  | "NumberList" => do return numberList (← (← value).listOf? fun j => do int32? (← j.int?))
  | "StringList" => do return stringList (← (← value).listOf? Json.string?)
  | "FieldReference" => do return field (← (← value).string?)
  | "GroupOpen" => valueless groupOpen value
  | "GroupClose" => valueless groupClose value
  | "Compound" => do return compound (← (← value).listOf? read)
  | _ => none

/-- Reads a fragment from JSON nested at most `depth` levels deep. -/
def ofJsonWithin : Nat → Json → Option Fragment
  | 0, _ => none
  | depth + 1, j => do
    let r ← j.record? ["kind", "value"] 2
    ofKind? (ofJsonWithin depth) (← r.required? "kind" Json.string?) (r.lookup "value")

/-- Reads a fragment from JSON. -/
def ofJson? (j : Json) : Option Fragment := ofJsonWithin j.depth j

end Fragment

namespace Statement

def toJson (s : Statement) : Json :=
  .object ([("underlying_type", .ofOption (s.entity.map .string))]
    ++ (if s.projections.isEmpty then []
      else [("projections", .array (s.projections.map Projection.toJson))])
    ++ [("select", .strings s.select),
      ("where_clauses", .array (Fragment.toJsonAll s.filters)),
      ("then_order_clauses", .array (Fragment.toJsonAll s.orders))]
    ++ (match s.asOf with
      | none => []
      | some t => [("as_of", t.toJson)]))

def ofJson? (j : Json) : Option Statement := do
  let r ← j.record?
    ["underlying_type", "projections", "select", "where_clauses", "then_order_clauses", "as_of"] 6
  return {
    entity := ← r.optional? "underlying_type" none (Json.nullable? Json.string?)
    projections := ← r.optional? "projections" [] (Json.listOf? Projection.ofJson?)
    select := ← r.required? "select" (Json.listOf? Json.string?)
    filters := ← r.optional? "where_clauses" [] (Json.listOf? Fragment.ofJson?)
    orders := ← r.optional? "then_order_clauses" [] (Json.listOf? Fragment.ofJson?)
    asOf := ← r.optional? "as_of" none (Json.nullable? Timestamp.ofJson?) }

end Statement

end WorkItemQuery
