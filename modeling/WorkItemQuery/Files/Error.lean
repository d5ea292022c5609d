/-
Errors of files, with the wording that the operating system gives them, and the text of a file.
-/

namespace WorkItemQuery

inductive FileError where
  | notFound
  /-- A file stands where the path needs a directory. -/
  | notDirectory
  /-- A directory stands where a file is read. -/
  | isDirectory
  /-- A file stands where a directory is made. -/
  | alreadyExists
  /-- A name, or the path as a whole, is longer than the system takes. -/
  | nameTooLong
  /-- The path holds the character with which the system ends its texts. -/
  | nulInName
  /-- The bytes are not UTF-8. -/
  | notText
  /-- Any other error, in the words of the system. -/
  | other (message : String)
deriving DecidableEq, Repr

namespace FileError

def message : FileError → String
  | notFound => "No such file or directory (os error 2)"
  | notDirectory => "Not a directory (os error 20)"
  | isDirectory => "Is a directory (os error 21)"
  | alreadyExists => "File exists (os error 17)"
  | nameTooLong => "File name too long (os error 36)"
  | nulInName => "file name contained an unexpected NUL byte"
  | notText => "stream did not contain valid UTF-8"
  | other message => message

end FileError

/-- The text that bytes stand for in UTF-8. -/
def textOfBytes (bytes : ByteArray) : Except FileError String :=
  match String.fromUTF8? bytes with
  | some text => .ok text
  | none => .error .notText

end WorkItemQuery
