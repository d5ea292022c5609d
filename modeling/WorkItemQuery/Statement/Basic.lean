/-
Statements: what a query compiles to. The text of a statement is its parts in a fixed order, and
its fingerprint is the digest of the text.
-/
import WorkItemQuery.Digest.Sha256
import WorkItemQuery.Expr.Basic
import WorkItemQuery.Statement.Fragment

namespace WorkItemQuery

open Text Time

structure Statement where
  /-- The entity whose properties the query names. -/
  entity : Option String := none
  /-- What the query asked to be selected, step by step. -/
  projections : List Projection := []
  select : List String := []
  filters : List Fragment := []
  orders : List Fragment := []
  asOf : Option Timestamp := none

namespace Statement

/-- The source that every statement reads from. -/
def source : String := "WorkItems"

/-- The statement for an entity, if it has none yet; the flag says whether it is the first. -/
def setEntity (s : Statement) (entity : String) : Statement × Bool :=
  match s.entity with
  | some _ => (s, false)
  | none => ({ s with entity := some entity }, true)

def filterTexts (s : Statement) : List String := s.filters.map Fragment.render

def orderTexts (s : Statement) : List String := s.orders.map Fragment.render

/-- The text of a statement. -/
def text (s : Statement) : String :=
  "SELECT " ++ String.intercalate ", " s.select ++ " FROM " ++ source
    ++ (if s.filters.isEmpty then "" else " WHERE " ++ String.intercalate " AND " s.filterTexts)
    ++ (if s.orders.isEmpty then "" else " ORDER BY " ++ String.intercalate ", " s.orderTexts)
    ++ (match s.asOf with
      | none => ""
      | some t => " ASOF " ++ quote t.statementText)

/-- The digest of the text. -/
def fingerprint (s : Statement) : String := Digest.sha256Hex s.text

end Statement

end WorkItemQuery
