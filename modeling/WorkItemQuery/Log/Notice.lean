/-
Notices: what a run reports about itself on the way. A notice has a level, the name of the part that
reports it, and named values.
-/
import WorkItemQuery.Json.Value
import WorkItemQuery.Log.Output
import WorkItemQuery.Statement.Fragment
import WorkItemQuery.Text.Visible

namespace WorkItemQuery.Log

open Text Number

/-- Levels, from the most detailed to the most severe. -/
inductive Level where
  | trace
  | debug
  | info
  | warn
  | error
deriving DecidableEq, Repr

namespace Level

def rank : Level → Nat
  | trace => 0
  | debug => 1
  | info => 2
  | warn => 3
  | error => 4

def name : Level → String
  | trace => "TRACE"
  | debug => "DEBUG"
  | info => "INFO"
  | warn => "WARN"
  | error => "ERROR"

end Level

/-- A value of a notice. -/
inductive Value where
  | text (text : String)
  | count (n : Nat)
deriving DecidableEq, Repr

inductive Notice where
  | loggingReady (format : Format) (output : Output)
  | writingFiles (directory : String)
  | mappingReplaced (entity : String)
  | mappingsLoaded (path : String) (entities : Nat)
  | registryReady (entities : List String)
  | compiling (entity : Option String)
  | filterAdded (clause : Fragment)
  | orderAdded (clause : Fragment)
  | projectionIgnored (entity : String) (requested : List String)
  | compiled (entity : String) (select filters orders : Nat)
  | queryDone (index : Nat) (entity : Option String) (filters orders : Nat) (fingerprint : String)
  | finished (remembered : Nat)

namespace Notice

def level : Notice → Level
  | filterAdded .. | orderAdded .. => .trace
  | registryReady .. | queryDone .. => .info
  | projectionIgnored .. => .warn
  | _ => .debug

/-- The part that reports a notice, by the name that filters know it by. -/
def target : Notice → String
  | loggingReady .. | writingFiles .. => "wiql::logging"
  | mappingReplaced .. | mappingsLoaded .. => "wiql_registry"
  | compiling .. | projectionIgnored .. | compiled .. => "wiql_ir::translator"
  | filterAdded .. | orderAdded .. => "wiql_ir::translator::walker"
  | registryReady .. | queryDone .. | finished .. => "wiql"

/-- The visible form of a list of texts. -/
def visibleTexts (xs : List String) : Value := .text (visibleList (xs.map visible))

/-- The visible form of a count. -/
def visibleCount (n : Nat) : Value := .text (intText n)

def fields : Notice → List (String × Value)
  | loggingReady format output =>
    [("message", .text "Logging initialized"), ("format", .text format.name), ("output", .text output.name)]
  | writingFiles directory => [("message", .text "Writing log files"), ("directory", .text directory)]
  | mappingReplaced entity => [("message", .text "Replacing entity mapping"), ("entity", .text entity)]
  | mappingsLoaded path entities =>
    [("message", .text "Loaded field mappings"), ("path", .text path), ("entities", .count entities)]
  | registryReady entities => [("message", .text "Field registry ready"), ("entities", visibleTexts entities)]
  | compiling entity =>
    [("message", .text "Translating query"), ("root_type", .text (visibleOption entity))]
  | filterAdded clause => [("message", .text "Flushed where clause"), ("clause", .text clause.render)]
  | orderAdded clause => [("message", .text "Flushed order clause"), ("clause", .text clause.render)]
  | projectionIgnored entity requested =>
    [("message", .text "Explicit projection ignored, selecting default fields"), ("entity", .text entity),
     ("requested", visibleTexts requested)]
  | compiled entity select filters orders =>
    [("message", .text "Translated query"), ("entity", .text entity), ("select", .count select),
     ("where_clauses", .count filters), ("order_clauses", .count orders)]
  | queryDone index entity filters orders fingerprint =>
    [("event", .text "query_translated"), ("index", visibleCount index),
     ("entity", .text (visibleOption entity)), ("where_clauses", visibleCount filters),
     ("order_clauses", visibleCount orders), ("fingerprint", .text (visible fingerprint))]
  | finished remembered =>
    [("message", .text "Translation finished"), ("cached_fields", .count remembered)]

def valueJson : Value → Json
  | .text t => .string t
  | .count n => .int n

def toJson (n : Notice) : Json :=
  .object [("level", .string n.level.name), ("target", .string n.target),
    ("fields", .object (n.fields.map fun f => (f.1, valueJson f.2)))]

/-- The text of a value. -/
def valueText : Value → String
  | .text t => t
  | .count n => intText n

/-- The number of lines a notice takes in a log file: line breaks in its values are written as such. -/
def fileLines (n : Notice) : Nat :=
  n.fields.foldl (fun lines f => lines + (valueText f.2).toList.count '\n') 1

/-- A notice on one line, as far as its values allow. -/
def lineText (n : Notice) : String :=
  n.level.name ++ " " ++ n.target ++ ":"
    ++ String.join (n.fields.map fun f =>
      if f.1 = "message" then " " ++ valueText f.2 else " " ++ f.1 ++ "=" ++ valueText f.2)

end Notice

end WorkItemQuery.Log
