/-
Splitting a text into queries. Blank lines separate queries, except inside a literal; whether a line
starts inside a literal is told by the number of apostrophes before it. An apostrophe that is written
twice leaves that number even.
-/
import WorkItemQuery.Text.CharSet
import WorkItemQuery.Text.Lines

namespace WorkItemQuery.Batch

open Text

/-- Whether a line has an odd number of apostrophes. -/
def hasOddQuotes (line : List Char) : Bool := line.count '\'' % 2 == 1

/-- Replaces the separators among the lines by `none`. `inside` tells whether the first line starts
inside a literal. -/
def markSeparators (inside : Bool) : List (List Char) → List (Option (List Char))
  | [] => []
  | line :: rest =>
    if isBlankLine line && !inside then none :: markSeparators inside rest
    else some line :: markSeparators (inside != hasOddQuotes line) rest

/-- The longest runs of values between `none`s; there are no empty runs. -/
def runs {α : Type} : List (Option α) → List (List α)
  | [] => []
  | none :: rest => runs rest
  | some a :: none :: rest => [a] :: runs rest
  | some a :: rest =>
    match runs rest with
    | [] => [[a]]
    | run :: more => (a :: run) :: more

/-- The text of some lines, with line feeds between them. -/
def joinLines (ls : List (List Char)) : String := String.ofList (List.intercalate ['\n'] ls)

/-- The queries of a text. -/
def splitQueries (text : String) : List String :=
  (runs (markSeparators false (lines text.toList))).map joinLines

end WorkItemQuery.Batch
