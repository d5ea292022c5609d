/-
Where log records go and how they are written, as named in the settings.
-/

namespace WorkItemQuery.Log

inductive Format where
  | pretty
  | json
  | compact
deriving DecidableEq, Repr

namespace Format

/-- Names that are not known mean the compact format. -/
def ofText : String → Format
  | "json" => json
  | "pretty" => pretty
  | _ => compact

def name : Format → String
  | pretty => "Pretty"
  | json => "Json"
  | compact => "Compact"

end Format

inductive Output where
  | stderr
  | file
  | both
deriving DecidableEq, Repr

namespace Output

/-- Names that are not known mean standard error. -/
def ofText : String → Output
  | "file" => file
  | "both" => both
  | _ => stderr

def name : Output → String
  | stderr => "Stderr"
  | file => "File"
  | both => "Both"

/-- Whether records are written to standard error. -/
def toConsole : Output → Bool
  | file => false
  | _ => true

/-- Whether records are written to a file. -/
def toFile : Output → Bool
  | stderr => false
  | _ => true

end Output

end WorkItemQuery.Log
