/-
Compiling an expression to a statement: the walk, the select list, and the limit to the work item types of
the entity.
-/
import WorkItemQuery.Compilation.Walk
import WorkItemQuery.Text.Lowercase

namespace WorkItemQuery

/-! ## How the select list is chosen -/

inductive ProjectionMode where
  /-- What the query asks for, or the default fields if it asks for nothing. -/
  | explicit
  /-- The default fields, whatever the query asks for. -/
  | defaultFields
deriving DecidableEq, Repr

namespace ProjectionMode

def name : ProjectionMode → String
  | explicit => "explicit"
  | defaultFields => "default_fields"

/-- The mode with exactly this name. -/
def ofName? : String → Option ProjectionMode
  | "explicit" => some explicit
  | "default_fields" => some defaultFields
  | _ => none

/-- Reads a mode in any letter case; the error is the message about a name that is not known. -/
def ofText (s : String) : Except String ProjectionMode :=
  match Text.lowercase s with
  | "default_fields" | "defaults" => .ok defaultFields
  | "explicit" => .ok explicit
  | other => .error ("unknown projection mode '" ++ other ++ "'")

end ProjectionMode

namespace Compilation

open Log Walk

variable {σ : Type}

/-! ## The select list -/

/-- Asks for one more name, unless it has been asked for. -/
def request (names : List String) (name : String) : List String :=
  if names.contains name then names else names ++ [name]

/-- Asks for the names of one more projection. -/
def requestAll (names : List String) : Projection → List String
  | .all => names
  | .fields more => more.foldl request names

/-- The names that the projections ask for. -/
def requested (projections : List Projection) : List String :=
  projections.foldl requestAll []

/-- Looks up one field after the other. -/
def lookupAll (mapper : FieldMapper σ) (entity : String) : List String → Walk σ (List String)
  | [] => pure []
  | name :: rest => do
    let field ← lookup mapper entity name
    let fields ← lookupAll mapper entity rest
    pure (field :: fields)

/-- The fields that queries of an entity select by default. -/
def defaults (mapper : FieldMapper σ) (entity : String) : Walk σ (List String) := fun s =>
  (.ok (mapper.defaultFields s.fields entity), s)

/-- The select list. -/
def selectFields (mapper : FieldMapper σ) (mode : ProjectionMode) (entity : String)
    (projections : List Projection) : Walk σ (List String) :=
  match mode, requested projections with
  | _, [] => defaults mapper entity
  | .explicit, names => lookupAll mapper entity names
  | .defaultFields, names => do
    note (.projectionIgnored entity names)
    defaults mapper entity

/-- The select list for what the walk has found projected. -/
def selection (mapper : FieldMapper σ) (mode : ProjectionMode) (entity : String) : Walk σ (List String) :=
  fun s => selectFields mapper mode entity s.statement.projections s

/-! ## Work item types -/

/-- The field that holds the type of a work item. -/
def typeField : String := "System.WorkItemType"

/-- The clause that limits a query to some work item types, if there are any. -/
def typeClause? : List String → Option Fragment
  | [] => none
  | [name] => some (limit " = " (.constant name))
  | names => some (limit " IN " (.stringList names))
where
  limit (text : String) (value : Fragment) : Fragment :=
    .compound [.groupOpen, .field typeField, .literal text, value, .groupClose]

/-! ## Compiling -/

/-- The entity of a statement after the walk: its own, or that of the whole query. -/
def entityOf (root : Option String) : Walk σ String := fun s =>
  match s.statement.entity, root with
  | some entity, _ => (.ok entity, s)
  | none, some entity => (.ok entity, s)
  | none, none => (.error .missingSource, s)

/-- Finishes a statement with its entity, its select list and the limit to work item types. -/
def finish (mapper : FieldMapper σ) (entity : String) (select : List String) : Walk σ Statement := fun s =>
  let statement := { s.statement with
    entity := some entity
    select
    filters := s.statement.filters ++ (typeClause? (mapper.typeRestriction s.fields entity)).toList }
  let notice := Notice.compiled entity select.length statement.filters.length statement.orders.length
  (.ok statement, { s with statement, notices := s.notices ++ [notice] })

/-- The whole compilation as a walk. -/
def compilation (mapper : FieldMapper σ) (mode : ProjectionMode) (e : Expr) : Walk σ Statement := do
  note (.compiling e.elementType)
  visit mapper e.elementType e
  let entity ← entityOf e.elementType
  let select ← selection mapper mode entity
  if select.isEmpty then fail (.emptySelect entity)
  finish mapper entity select

end Compilation

/-- What a compilation leaves behind: the statement or an error, the state of the mapper, and the
notices on the way. -/
structure Compilation (σ : Type) where
  result : Except CompileError Statement
  fields : σ
  notices : List Log.Notice

/-- Compiles an expression to a statement. -/
def compile {σ : Type} (mapper : FieldMapper σ) (mode : ProjectionMode) (e : Expr) (fields : σ) :
    Compilation σ :=
  let (result, s) := Compilation.compilation mapper mode e { fields }
  ⟨result, s.fields, s.notices⟩

end WorkItemQuery
