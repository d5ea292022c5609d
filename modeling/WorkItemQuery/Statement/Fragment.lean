/-
Fragments: the pieces of text that the clauses of a statement are made of.
-/
import WorkItemQuery.Number.Decimal
import WorkItemQuery.Text.Scan
import WorkItemQuery.Time.Timestamp

namespace WorkItemQuery

open Number Text Time

inductive Fragment where
  /-- Text that stands for itself. -/
  | literal (text : String)
  /-- A string value. -/
  | constant (text : String)
  | timestamp (time : Timestamp)
  | numberList (values : List Int32)
  | stringList (values : List String)
  | field (name : String)
  | groupOpen
  | groupClose
  | compound (parts : List Fragment)

namespace Fragment

/-- A list in parentheses, given the texts of its items. -/
def listText (items : List String) : String :=
  "(" ++ String.intercalate ", " items ++ ")"

mutual

/-- The text of a fragment. -/
def render : Fragment → String
  | literal text => text
  | constant text => quote text
  | timestamp time => quote time.statementText
  | numberList values => listText (values.map fun v => intText v.toInt)
  | stringList values => listText (values.map quote)
  | field name => name
  | groupOpen => "("
  | groupClose => ")"
  | compound parts => renderAll parts

def renderAll : List Fragment → String
  | [] => ""
  | f :: rest => render f ++ renderAll rest

end

end Fragment

end WorkItemQuery
