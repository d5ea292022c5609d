/-
Why a run of the command fails, and the report about it: the error, and under it the causes of it, each of the one
before.
-/
import WorkItemQuery.Batch.Basic
import WorkItemQuery.Files.Error
import WorkItemQuery.Number.Decimal
import WorkItemQuery.Settings.Basic

namespace WorkItemQuery.Command

open Number

/-! ## Reports -/

/-- A text with each line feed followed by blanks. -/
def indentLines (width : Nat) (cs : List Char) : List Char :=
  cs.flatMap fun c => if c = '\n' then '\n' :: List.replicate width ' ' else [c]

/-- A cause without a number. -/
def loneCause (cause : String) : String :=
  String.ofList (List.replicate 4 ' ' ++ indentLines 4 cause.toList)

/-- A cause with its number, flush right in five columns. -/
def numberedCause (n : Nat) (cause : String) : String :=
  let digits := digitsOf n
  String.ofList (List.replicate (5 - digits.length) ' ' ++ digits ++ ": ".toList
    ++ indentLines 7 cause.toList)

/-- Causes with numbers from `n` on. -/
def numberedCauses : Nat → List String → List String
  | _, [] => []
  | n, cause :: rest => numberedCause n cause :: numberedCauses (n + 1) rest

/-- The lines about causes: a single cause has no number. -/
def causeTexts : List String → List String
  | [cause] => [loneCause cause]
  | causes => numberedCauses 0 causes

/-- The report about an error and its causes. -/
def report (error : String) (causes : List String) : String :=
  "Error: " ++ error
    ++ (if causes.isEmpty then "" else "\n\nCaused by:\n" ++ String.intercalate "\n" (causeTexts causes))

/-! ## Failures -/

inductive Failure where
  /-- No settings; with the path of the file that the arguments name, if they do. -/
  | settings (path : Option String) (error : SettingsError)
  | logDirectory (error : FileError)
  | mappingFile (error : FileError)
  /-- The mapping file is not YAML, or does not list mappings. -/
  | mappingText
  | queryFile (path : String) (error : FileError)
  | input (error : FileError)
  | noQuery
  /-- A query, counted from one, out of so many. -/
  | query (number count : Nat) (error : Batch.QueryError)

namespace Failure

/-- What is said about a text that does not list mappings. -/
def mappingDetail : String := "the text does not list entity mappings"

/-- The error and its causes. -/
def chain : Failure → String × List String
  | settings none error => (error.message, error.causes)
  | settings (some path) error => ("Failed to load " ++ path, error.message :: error.causes)
  | logDirectory error => (error.message, [])
  | mappingFile error => ("Failed to read mapping file: " ++ error.message, [error.message])
  | mappingText => ("Failed to parse mapping YAML: " ++ mappingDetail, [mappingDetail])
  | queryFile path error => ("Failed to read " ++ path, [error.message])
  | input error => (error.message, [])
  | noQuery => ("No query given; pass QUERY, --file, or pipe queries on stdin", [])
  | query number count error =>
    ("Query " ++ intText number ++ " of " ++ intText count, error.stage :: error.causes)

def report (f : Failure) : String := Command.report f.chain.1 f.chain.2

end Failure

end WorkItemQuery.Command
