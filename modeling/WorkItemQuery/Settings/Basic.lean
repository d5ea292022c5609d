/-
Settings of the command: from a YAML text, and from environment variables, which win.
-/
import WorkItemQuery.Batch.Basic
import WorkItemQuery.Compilation.Basic
import WorkItemQuery.Files.Error
import WorkItemQuery.Files.Path
import WorkItemQuery.Yaml.Reader

namespace WorkItemQuery

open Yaml

/-- Settings of the log, as they are written. -/
structure LogSettings where
  level : String := "warn"
  format : String := "compact"
  output : String := "stderr"
  directory : String := "./logs"
deriving DecidableEq, Repr

structure Settings where
  projection : ProjectionMode := .explicit
  /-- The file with the entity mappings; the built-in mappings if there is none. -/
  mappingFile : Option String := none
  format : OutputFormat := .wiql
  log : LogSettings := {}
deriving DecidableEq, Repr

/-- Why there are no settings. -/
inductive SettingsError where
  | file (error : FileError)
  /-- The text is not YAML, or does not describe settings. -/
  | malformed
  /-- A variable with a value that is not known. -/
  | badVariable (name message : String)
deriving DecidableEq, Repr

namespace Settings

/-! ## From YAML -/

/-- The mode with exactly the name that a scalar holds. -/
def modeOf? (n : Node) : Option ProjectionMode := do ProjectionMode.ofName? (← n.choice?)

/-- The format with exactly the name that a scalar holds. -/
def formatOf? (n : Node) : Option OutputFormat := do OutputFormat.ofName? (← n.choice?)

def withTranslator (s : Settings) (n : Node) : Option Settings := do
  let r ← n.record? ["projection", "mapping_file"]
  return { s with
    projection := ← r.optional? "projection" s.projection modeOf?
    mappingFile := ← r.optional? "mapping_file" s.mappingFile Node.optionalText? }

def withOutput (s : Settings) (n : Node) : Option Settings := do
  let r ← n.record? ["format"]
  return { s with format := ← r.optional? "format" s.format formatOf? }

def withLogging (s : Settings) (n : Node) : Option Settings := do
  let r ← n.record? ["level", "format", "output", "directory"]
  return { s with log :=
    { level := ← r.optional? "level" s.log.level Node.text?
      format := ← r.optional? "format" s.log.format Node.text?
      output := ← r.optional? "output" s.log.output Node.text?
      directory := ← r.optional? "directory" s.log.directory Node.text? } }

/-- The settings that a YAML text describes; what it does not mention has its default. -/
def ofYaml? (text : String) : Option Settings := do
  let r ← (← Node.ofText? text).record? ["translator", "output", "logging"]
  let s : Settings := {}
  let s ← r.optional? "translator" s s.withTranslator
  let s ← r.optional? "output" s s.withOutput
  r.optional? "logging" s s.withLogging

/-- A relative mapping file is relative to the directory of the settings file. -/
def locateMappings (path : String) (s : Settings) : Settings :=
  match s.mappingFile, Path.parent? path with
  | some file, some directory => { s with mappingFile := some (Path.join directory file) }
  | _, _ => s

/-! ## From variables -/

/-- The variables that settings are read from. -/
def variableNames : List String :=
  ["WIQL_MAPPING_FILE", "WIQL_PROJECTION_MODE", "WIQL_OUTPUT_FORMAT", "RUST_LOG", "LOG_FORMAT",
   "LOG_OUTPUT", "LOG_DIR"]

/-- What `read` makes of a variable, or `fallback` when it is not set. -/
def setting {α : Type} (env : List (String × String)) (name : String) (fallback : α)
    (read : String → Except String α) : Except SettingsError α :=
  match env.lookup name with
  | none => .ok fallback
  | some text =>
    match read text with
    | .ok a => .ok a
    | .error message => .error (.badVariable name message)

/-- The settings with those that are set as variables. -/
def withVariables (env : List (String × String)) (s : Settings) : Except SettingsError Settings := do
  let projection ← setting env "WIQL_PROJECTION_MODE" s.projection ProjectionMode.ofText
  let format ← setting env "WIQL_OUTPUT_FORMAT" s.format OutputFormat.ofText
  let text (name fallback : String) : String := (env.lookup name).getD fallback
  return {
    projection
    mappingFile := env.lookup "WIQL_MAPPING_FILE" <|> s.mappingFile
    format
    log :=
      { level := text "RUST_LOG" s.log.level
        format := text "LOG_FORMAT" s.log.format
        output := text "LOG_OUTPUT" s.log.output
        directory := text "LOG_DIR" s.log.directory } }

/-! ## Loading -/

/-- The settings of a file at the given path, and of the variables. -/
def ofFile (path : String) (contents : Except FileError ByteArray) (env : List (String × String)) :
    Except SettingsError Settings :=
  match contents.bind textOfBytes with
  | .error e => .error (.file e)
  | .ok text =>
    match ofYaml? text with
    | none => .error .malformed
    | some s => (s.locateMappings path).withVariables env

/-- The settings without a file. -/
def ofVariables (env : List (String × String)) : Except SettingsError Settings :=
  ({} : Settings).withVariables env

end Settings

namespace SettingsError

/-- What is said about a text that does not describe settings. -/
def malformedDetail : String := "the text does not describe settings"

def message : SettingsError → String
  | file error => "Failed to read config file: " ++ error.message
  | malformed => "Failed to parse YAML: " ++ malformedDetail
  | badVariable name message => "Invalid value for " ++ name ++ ": " ++ message

/-- The cause behind the error, if it has one. -/
def causes : SettingsError → List String
  | file error => [error.message]
  | malformed => [malformedDetail]
  | badVariable _ _ => []

end SettingsError

end WorkItemQuery
