/-
The arguments of the command. Options come first; the first word that is no option begins the query,
and all words from there on belong to it. An option's value is taken up when something that is not
its value follows, so an unknown option is reported before a bad value in front of it.
-/
import WorkItemQuery.Compilation.Basic

namespace WorkItemQuery

structure Arguments where
  config : Option String := none
  mappings : Option String := none
  file : Option String := none
  projection : Option ProjectionMode := none
  json : Bool := false
  query : List String := []
deriving DecidableEq, Repr

inductive ArgumentError where
  | unknownArgument
  /-- A value that is missing, or empty where a path is needed. -/
  | missingValue
  /-- A value that is not known. -/
  | badValue
  /-- An option given twice, or a file beside query words. -/
  | conflict
  /-- A value for an option that takes none. -/
  | needlessValue
  /-- Not an error: the arguments ask for help. -/
  | help
deriving DecidableEq, Repr

/-- Where queries come from. -/
inductive QuerySource where
  | inline (text : String)
  | file (path : String)
  | input
deriving DecidableEq, Repr

namespace Arguments

/-! ## Words -/

/-- The options that take a value. -/
inductive Key where
  | config
  | mappings
  | file
  | projection
deriving DecidableEq, Repr

/-- What a word in front of the query is. -/
inductive Word where
  /-- An option, with its value if it is in the same word. -/
  | option (key : Key) (value : Option String)
  | json
  | help
  /-- An option that takes no value, with one. -/
  | overfull
  | unknown
  /-- The mark that the query begins. -/
  | mark
  | plain (text : String)
deriving DecidableEq, Repr

def longKey? : String → Option Key
  | "config" => some .config
  | "mappings" => some .mappings
  | "file" => some .file
  | "projection" => some .projection
  | _ => none

def shortKey? : Char → Option Key
  | 'c' => some .config
  | 'm' => some .mappings
  | 'f' => some .file
  | 'p' => some .projection
  | _ => none

/-- The text after the first equals sign, if there is one. -/
def attached? (cs : List Char) : Option String :=
  match cs.dropWhile (· != '=') with
  | _ :: value => some (String.ofList value)
  | [] => none

/-- What follows two dashes. -/
def longWord (cs : List Char) : Word :=
  let name := String.ofList (cs.takeWhile (· != '='))
  match longKey? name, attached? cs with
  | some key, value => .option key value
  | none, value =>
    if name = "json" then if value.isNone then .json else .overfull
    else if name = "help" then if value.isNone then .help else .overfull
    else .unknown

/-- What follows one dash: a letter, and its value, maybe after an equals sign. -/
def shortWord : List Char → Word
  | [] => .plain "-"
  | c :: rest =>
    match shortKey? c, rest with
    | some key, [] => .option key none
    | some key, '=' :: value => .option key (some (String.ofList value))
    | some key, value => .option key (some (String.ofList value))
    | none, _ => if c = 'h' then .help else .unknown

def Word.ofText (s : String) : Word :=
  match s.toList with
  | ['-', '-'] => .mark
  | '-' :: '-' :: rest => longWord rest
  | '-' :: rest => shortWord rest
  | _ => .plain s

/-! ## Reading -/

/-- An option whose value is not taken up yet. -/
inductive Pending where
  | nothing
  /-- The value has not come yet. -/
  | waiting (key : Key)
  | holding (key : Key) (value : String)
deriving DecidableEq, Repr

/-- A path that is given once and is not empty. -/
def path? (given : Option String) (value : String) : Except ArgumentError (Option String) :=
  if given.isSome then .error .conflict
  else if value.isEmpty then .error .missingValue
  else .ok (some value)

/-- Takes up the value of an option, which may be given once. -/
def set (a : Arguments) (key : Key) (value : String) : Except ArgumentError Arguments :=
  match key with
  | .config => do return { a with config := ← path? a.config value }
  | .file => do return { a with file := ← path? a.file value }
  | .mappings => if a.mappings.isSome then .error .conflict else .ok { a with mappings := some value }
  | .projection =>
    if a.projection.isSome then .error .conflict
    else
      match ProjectionMode.ofText value with
      | .ok mode => .ok { a with projection := some mode }
      | .error _ => .error .badValue

/-- Takes up what is pending. -/
def settle (a : Arguments) : Pending → Except ArgumentError Arguments
  | .nothing => .ok a
  | .waiting _ => .error .missingValue
  | .holding key value => a.set key value

/-- The arguments with their query. A file and query words exclude each other. -/
def withQuery (a : Arguments) (words : List String) : Except ArgumentError Arguments :=
  if a.file.isSome && !words.isEmpty then .error .conflict else .ok { a with query := words }

/-- Reads words, after those that led to `a` and to what is pending. -/
def read (a : Arguments) (pending : Pending) : List String → Except ArgumentError Arguments
  | [] => do (← a.settle pending).withQuery []
  | word :: rest =>
    match Word.ofText word, pending with
    | .unknown, _ => .error .unknownArgument
    | .overfull, _ => .error .needlessValue
    | .plain text, .waiting key => read a (.holding key text) rest
    | .plain _, _ => do (← a.settle pending).withQuery (word :: rest)
    | .mark, _ => do (← a.settle pending).withQuery rest
    | .option key none, _ => do read (← a.settle pending) (.waiting key) rest
    | .option key (some value), _ => do read (← (← a.settle pending).set key value) .nothing rest
    | .json, _ => do
      let a ← a.settle pending
      if a.json then .error .conflict else read { a with json := true } .nothing rest
    | .help, _ => do
      let _ ← a.settle pending
      .error .help

/-- The arguments that words stand for. -/
def ofWords (words : List String) : Except ArgumentError Arguments := read {} .nothing words

/-! ## Views -/

/-- Where the queries come from: a file, the words of the query, or else the standard input, which a
single dash stands for too. -/
def source (a : Arguments) : QuerySource :=
  match a.file, a.query with
  | some path, _ => .file path
  | none, [] => .input
  | none, ["-"] => .input
  | none, words => .inline (String.intercalate " " words)

end Arguments

/-! ## Help -/

namespace Command

def helpText : String :=
  "Translate pipeline queries into WIQL\n\n"
    ++ "Usage: wiql [OPTIONS] [QUERY]...\n\n"
    ++ "Arguments:\n"
    ++ "  [QUERY]...  Query words, joined with spaces\n\n"
    ++ "Options:\n"
    ++ "  -c, --config <PATH>      Config file (default: ./config.yaml if present)\n"
    ++ "  -m, --mappings <PATH>    Entity mapping YAML (default: built-in entities)\n"
    ++ "  -f, --file <PATH>        Read queries from a file\n"
    ++ "  -p, --projection <MODE>  explicit | default_fields\n"
    ++ "      --json               Print JSON instead of WIQL text\n"
    ++ "  -h, --help               Print help\n\n"
    ++ "Reads the query from QUERY, --file, or standard input when neither is given (or QUERY is '-'). "
    ++ "Queries in a file or on stdin are separated by blank lines outside string literals. "
    ++ "Options go before the query words.\n"

end Command

end WorkItemQuery
