/-
From text to query expressions. A text fails either because it does not match the grammar, which is
reported with the place of the furthest miss, or because of a literal in it.
-/
import WorkItemQuery.Pipeline.Grammar
import WorkItemQuery.Pipeline.Meaning
import WorkItemQuery.Text.Lines

namespace WorkItemQuery

open Pipeline Text Number

/-- Why a text is no query. -/
inductive ParseError where
  /-- The text does not match the grammar; the furthest miss is here. -/
  | grammar (place : Place)
  | literal (error : LiteralError)
deriving DecidableEq, Repr

namespace ParseError

/-- What is said about a text that does not match the grammar. -/
def grammarDetail (place : Place) : String :=
  "no match at line " ++ intText place.line ++ ", column " ++ intText place.column

def message : ParseError → String
  | grammar place => "Pest error: " ++ grammarDetail place
  | literal error => "Invalid literal: " ++ error.message

/-- The cause behind the error, if it has one. -/
def causes : ParseError → List String
  | grammar place => [grammarDetail place]
  | literal _ => []

end ParseError

namespace Pipeline

/-- The place at which so many characters of the text are left. -/
def placeOf (text : List Char) (left : Nat) : Place :=
  Place.start.advance (text.take (text.length - left))

/-- The pipeline that a text is. -/
def ofText (text : List Char) : Except ParseError Pipeline :=
  match program text with
  | ⟨_, some (p, _)⟩ => .ok p
  | ⟨miss, none⟩ => .error (.grammar (placeOf text (miss.getD text.length)))

end Pipeline

/-- The query that a text stands for. -/
def parse (text : String) : Except ParseError Expr := do
  let p ← Pipeline.ofText text.toList
  match p.toExpr with
  | .ok e => .ok e
  | .error e => .error (.literal e)

end WorkItemQuery
