/-
Compiling query texts, one or many, and writing the results. One mapper serves all queries of a
batch, and the first query that fails ends it.
-/
import WorkItemQuery.Compilation.Basic
import WorkItemQuery.Json.Writer
import WorkItemQuery.Pipeline.Parse
import WorkItemQuery.Statement.Json

namespace WorkItemQuery

/-! ## How results are written -/

inductive OutputFormat where
  /-- The text of the statement. -/
  | wiql
  /-- A JSON object with the text, its fingerprint and the statement. -/
  | json
deriving DecidableEq, Repr

namespace OutputFormat

def name : OutputFormat → String
  | wiql => "wiql"
  | json => "json"

/-- The format with exactly this name. -/
def ofName? : String → Option OutputFormat
  | "wiql" => some wiql
  | "json" => some json
  | _ => none

/-- Reads a format in any letter case; the error is the message about a name that is not known. -/
def ofText (s : String) : Except String OutputFormat :=
  match Text.lowercase s with
  | "wiql" | "text" => .ok wiql
  | "json" => .ok json
  | other => .error ("unknown output format '" ++ other ++ "'")

end OutputFormat

namespace Batch

open Log

/-! ## One query -/

/-- A compiled query. -/
structure Output where
  text : String
  fingerprint : String
  statement : Statement

namespace Output

def ofStatement (s : Statement) : Output := ⟨s.text, s.fingerprint, s⟩

def toJson (o : Output) : Json :=
  .object [("wiql", .string o.text), ("fingerprint", .string o.fingerprint), ("query", o.statement.toJson)]

def render (format : OutputFormat) (o : Output) : String :=
  match format with
  | .wiql => o.text
  | .json => o.toJson.text

end Output

/-- Why a query text fails. -/
inductive QueryError where
  | parse (error : ParseError)
  | compile (error : CompileError)

namespace QueryError

/-- What was being done. -/
def stage : QueryError → String
  | parse _ => "Failed to parse query"
  | compile _ => "Failed to translate query"

/-- The error, and what lies behind it. -/
def causes : QueryError → List String
  | parse error => error.message :: error.causes
  | compile error => [error.message]

end QueryError

/-- What is left behind by compiling texts: a value or an error, the mapper's state, and the notices
on the way. -/
structure Outcome (σ ε α : Type) where
  result : Except ε α
  fields : σ
  notices : List Notice

variable {σ : Type}

/-- Compiles a query text. -/
def compileText (mapper : FieldMapper σ) (mode : ProjectionMode) (source : String) (fields : σ) :
    Outcome σ QueryError Output :=
  match WorkItemQuery.parse source with
  | .error e => ⟨.error (.parse e), fields, []⟩
  | .ok e =>
    let c := compile mapper mode e fields
    match c.result with
    | .error e => ⟨.error (.compile e), c.fields, c.notices⟩
    | .ok s => ⟨.ok (.ofStatement s), c.fields, c.notices⟩

/-! ## Many queries -/

/-- The query that ended a batch; indices count from zero. -/
structure Failure where
  index : Nat
  error : QueryError

/-- The notice that a query is compiled. -/
def doneNotice (index : Nat) (o : Output) : Notice :=
  .queryDone index o.statement.entity o.statement.filters.length o.statement.orders.length o.fingerprint

/-- Compiles query texts until one fails; the first has the given index. -/
def compileAll (mapper : FieldMapper σ) (mode : ProjectionMode) :
    Nat → List String → σ → Outcome σ Failure (List Output)
  | _, [], fields => ⟨.ok [], fields, []⟩
  | index, source :: rest, fields =>
    let first := compileText mapper mode source fields
    match first.result with
    | .error error => ⟨.error ⟨index, error⟩, first.fields, first.notices⟩
    | .ok output =>
      let others := compileAll mapper mode (index + 1) rest first.fields
      ⟨others.result.map (output :: ·), others.fields,
        first.notices ++ doneNotice index output :: others.notices⟩

/-! ## Writing -/

/-- Each output followed by a line feed. -/
def render (format : OutputFormat) (outputs : List Output) : String :=
  String.join (outputs.map fun o => o.render format ++ "\n")

end Batch

end WorkItemQuery
