/-
A run of the command: variables, arguments, settings, log, mappings, queries. What a run needs of the
place in which it runs is a parameter, so that a run in a directory that is a value is itself a value.
-/
import WorkItemQuery.Arguments
import WorkItemQuery.Batch.Split
import WorkItemQuery.Command.Failure
import WorkItemQuery.Fields.Builtin
import WorkItemQuery.Fields.Yaml
import WorkItemQuery.Files.Directory
import WorkItemQuery.Log.Filter
import WorkItemQuery.Settings.DotEnv

namespace WorkItemQuery.Command

open Log

/-! ## The surroundings of a run -/

/-- What a run asks of its surroundings. -/
structure Host (m : Type → Type) where
  /-- The bytes of a file. -/
  read : String → m (Except FileError ByteArray)
  /-- Whether anything stands at a path. -/
  holds : String → m Bool
  /-- Makes a directory, and those above it. -/
  makeDirectory : String → m (Except FileError Unit)
  /-- The directories above the one in which the command runs, the nearest first. -/
  above : m (List String)
  /-- The value of an environment variable. -/
  lookup : String → m (Option String)
  /-- The bytes of the standard input. -/
  input : m ByteArray

/-- Surroundings that are values. -/
structure World where
  directory : Directory
  env : List (String × String)
  input : ByteArray

/-- A world as the surroundings of a run, which may make directories in it. A world ends with its directory: no file is
found above it. -/
def World.host (w : World) : Host (StateM Directory) where
  read path := do return (← get).read path
  holds path := do return (← get).holds path
  makeDirectory path := do
    match (← get).make path with
    | .ok d =>
      set d
      return .ok ()
    | .error e => return .error e
  above := pure []
  lookup name := pure (w.env.lookup name)
  input := pure w.input

/-! ## What a run leaves behind -/

/-- A log, with the notices that passed its filter. -/
structure LogRun where
  format : Format
  output : Output
  directory : String
  notices : List Notice

/-- How a run ended. -/
inductive Ending where
  /-- The statements, as they are printed. -/
  | printed (text : String)
  | failed (failure : Failure)
  | badArguments (error : ArgumentError)

/-- A finished run; there is no log if the run ended before it began. -/
structure Run where
  ending : Ending
  log : Option LogRun

namespace Run

/-- What stands on the standard output. -/
def printed (r : Run) : String :=
  match r.ending with
  | .printed text => text
  | .badArguments .help => helpText
  | _ => ""

/-- The report about a failure. -/
def report? (r : Run) : Option String :=
  match r.ending with
  | .failed failure => some failure.report
  | _ => none

def exitCode (r : Run) : Nat :=
  match r.ending with
  | .printed _ | .badArguments .help => 0
  | .failed _ => 1
  | .badArguments _ => 2

end Run

/-! ## The parts of a run -/

variable {m : Type → Type} [Monad m]

/-- The file with further environment variables. -/
def variableFile : String := ".env"

/-- The file with settings, if the arguments name none. -/
def settingsFile : String := "config.yaml"

/-- The values of variables, without those that are not set. -/
def lookupAll (host : Host m) : List String → m (List (String × String))
  | [] => pure []
  | name :: rest => do
    let value ← host.lookup name
    let others ← lookupAll host rest
    pure ((value.map (name, ·)).toList ++ others)

/-- The bytes of the first file with variables in some directories. A directory that has none is passed over; any other
error ends the search. -/
def findVariables (host : Host m) : List String → m (Option ByteArray)
  | [] => pure none
  | directory :: others => do
    match ← host.read (Path.join directory variableFile) with
    | .ok bytes => pure (some bytes)
    | .error .notFound | .error .isDirectory => findVariables host others
    | .error _ => pure none

/-- The variables that a run goes by; those of the file come after those that are set already. The file is searched for
from the directory of the run upwards. -/
def environment (host : Host m) : m (List (String × String)) := do
  let assignments := match ← findVariables host ("" :: (← host.above)) with
    | some bytes => DotEnv.ofBytes bytes
    | none => []
  let set ← lookupAll host (Settings.variableNames ++ DotEnv.mentioned assignments).eraseDups
  pure (DotEnv.apply set assignments)

/-- The settings of the file that the arguments name, or of the usual file if it is there. -/
def settings (host : Host m) (env : List (String × String)) (a : Arguments) : m (Except Failure Settings) := do
  match a.config with
  | some path => pure ((Settings.ofFile path (← host.read path) env).mapError (.settings (some path)))
  | none =>
    if ← host.holds settingsFile then
      pure ((Settings.ofFile settingsFile (← host.read settingsFile) env).mapError (.settings none))
    else pure ((Settings.ofVariables env).mapError (.settings none))

/-- The settings with what the arguments ask for. -/
def withArguments (a : Arguments) (s : Settings) : Settings :=
  { s with
    mappingFile := a.mappings <|> s.mappingFile
    projection := a.projection.getD s.projection
    format := if a.json then .json else s.format }

/-- The notices with which a log begins. -/
def firstNotices (s : LogSettings) : List Notice :=
  let output := Output.ofText s.output
  Notice.loggingReady (.ofText s.format) output
    :: (if output.toFile then [.writingFiles s.directory] else [])

/-- Makes room for log files, if there are to be any. -/
def openLog (host : Host m) (s : LogSettings) : m (Except Failure Unit) := do
  if (Output.ofText s.output).toFile then
    pure ((← host.makeDirectory s.directory).mapError .logDirectory)
  else pure (.ok ())

/-- The registry, and the notices about it. -/
def registry (host : Host m) (file : Option String) : m (Except Failure Registry × List Notice) := do
  match file with
  | none => pure (.ok .builtin, [])
  | some path =>
    match (← host.read path).bind textOfBytes with
    | .error e => pure (.error (.mappingFile e), [])
    | .ok text =>
      match EntityMapping.listOfYaml? text with
      | none => pure (.error .mappingText, [])
      | some mappings =>
        let registry := Registry.ofMappings mappings
        pure (.ok registry, (Registry.empty.replacedNames mappings).map Notice.mappingReplaced
          ++ [.mappingsLoaded path registry.entities.length])

/-- The query texts. -/
def sources (host : Host m) (source : QuerySource) : m (Except Failure (List String)) := do
  match source with
  | .inline text => pure (.ok [text])
  | .file path =>
    match (← host.read path).bind textOfBytes with
    | .ok text => pure (.ok (Batch.splitQueries text))
    | .error e => pure (.error (.queryFile path e))
  | .input =>
    match textOfBytes (← host.input) with
    | .ok text => pure (.ok (Batch.splitQueries text))
    | .error e => pure (.error (.input e))

/-- Compiles the queries: what is printed, and the notices on the way. -/
def compileQueries (r : Registry) (s : Settings) (queries : List String) :
    Except Failure String × List Notice :=
  if queries.isEmpty then (.error .noQuery, [])
  else
    let done := Batch.compileAll FieldMapper.registry.memoized s.projection 0 queries (Memo.new r)
    match done.result with
    | .error failure => (.error (.query (failure.index + 1) queries.length failure.error), done.notices)
    | .ok outputs => (.ok (Batch.render s.format outputs), done.notices ++ [.finished done.fields.size])

/-- The part of a run under its log: what is printed, and the notices. -/
def underLog (host : Host m) (a : Arguments) (s : Settings) : m (Except Failure String × List Notice) := do
  match ← registry host s.mappingFile with
  | (.error e, notices) => pure (.error e, notices)
  | (.ok r, notices) =>
    let notices := notices ++ [.registryReady r.entityNames]
    match ← sources host a.source with
    | .error e => pure (.error e, notices)
    | .ok queries =>
      let (result, more) := compileQueries r s queries
      pure (result, notices ++ more)

def Ending.ofResult : Except Failure String → Ending
  | .ok text => .printed text
  | .error e => .failed e

/-! ## The run -/

/-- Runs the command with the given words as arguments. -/
def run (host : Host m) (words : List String) : m Run := do
  let env ← environment host
  match Arguments.ofWords words with
  | .error e => pure ⟨.badArguments e, none⟩
  | .ok a =>
    match ← settings host env a with
    | .error e => pure ⟨.failed e, none⟩
    | .ok s =>
      let s := withArguments a s
      match ← openLog host s.log with
      | .error e => pure ⟨.failed e, none⟩
      | .ok _ =>
        let (result, notices) ← underLog host a s
        let all := firstNotices s.log ++ notices
        pure ⟨.ofResult result, some
          { format := .ofText s.log.format
            output := .ofText s.log.output
            directory := s.log.directory
            notices := all.filter (Filter.ofText s.log.level).passes }⟩

/-- Runs the command in a world. -/
def runIn (w : World) (words : List String) : Run := ((run w.host words).run w.directory).1

end WorkItemQuery.Command
