/-
The command line: a run in the directory in which it is called.
-/
import WorkItemQuery.Command.Basic
import WorkItemQuery.Json.Writer

namespace WorkItemQuery.Main

open Command

/-- An error of the system as an error of files. -/
def fileError : IO.Error → FileError
  | .noFileOrDirectory .. => .notFound
  | .alreadyExists .. => .alreadyExists
  | .inappropriateType .. => .isDirectory
  | e => .other (toString e)

/-- What an action gives, or its error. -/
def attempt {α : Type} (action : IO α) : IO (Except FileError α) := do
  try
    return .ok (← action)
  catch e => return .error (fileError e)

/-- All bytes of a stream, after those read so far. -/
partial def readAll (stream : IO.FS.Stream) (bytes : ByteArray) : IO ByteArray := do
  let more ← stream.read 65536
  if more.isEmpty then return bytes
  readAll stream (bytes ++ more)

/-- The system as the surroundings of a run. -/
def system : Host IO where
  read path := attempt (IO.FS.readBinFile path)
  holds path := do
    let here ← IO.currentDir
    (here / path).pathExists
  makeDirectory path := attempt (IO.FS.createDirAll path)
  above := do return (Path.ancestors (← IO.currentDir).toString).tail
  lookup name := IO.getEnv name
  input := do readAll (← IO.getStdin) ⟨#[]⟩

/-- Writes a log to where it belongs. -/
def writeLog (log : LogRun) : IO Unit := do
  if log.output.toConsole then
    for n in log.notices do
      IO.eprintln (if log.format == .json then n.toJson.text else n.lineText)
  if log.output.toFile then
    let file ← IO.FS.Handle.mk (Path.join log.directory "wiql.log") .append
    for n in log.notices do
      file.putStrLn n.lineText

end WorkItemQuery.Main

open WorkItemQuery.Command WorkItemQuery.Main in
/-- Runs the command with the words of the command line. -/
def main (words : List String) : IO UInt32 := do
  let done ← run system words
  if let some log := done.log then
    writeLog log
  IO.print done.printed
  if let some text := done.report? then
    IO.eprintln text
  if done.exitCode == 2 then
    IO.eprintln "error: bad arguments\n\nFor more information, try '--help'."
  return done.exitCode.toUInt32
