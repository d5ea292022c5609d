/-
A directory as a value: the files and directories under it, by their paths. It answers what a run
asks of the place in which it runs.
-/
import WorkItemQuery.Files.Error
import WorkItemQuery.Files.Path

namespace WorkItemQuery

structure Directory where
  /-- The files. Directories are there as far as files are in them. -/
  files : List (List String × ByteArray)
  /-- Further directories. -/
  folders : List (List String) := []

namespace Directory

/-- The directory with files at the given relative paths. -/
def ofFiles (files : List (String × ByteArray)) : Directory :=
  { files := files.map fun f => (Path.names f.1, f.2) }

/-- What stands at a place. -/
inductive Entry where
  | file (bytes : ByteArray)
  | directory

/-- What stands at the place with the given names. Of what lies around the directory only those above
it are known, and that nothing else is in them. -/
def entry? (d : Directory) (names : List String) : Option Entry :=
  match d.files.lookup names with
  | some bytes => some (.file bytes)
  | none =>
    if names.all (· == "..") || names == ["/"] || (d.files.map (·.1) ++ d.folders).any names.isPrefixOf then
      some .directory
    else none

/-- The place above another. -/
def above (here : List String) : List String :=
  if here == ["/"] then here
  else if here.all (· == "..") then here ++ [".."]
  else here.dropLast

/-- Goes from a place along the pieces of a path, each of which must lead on from a directory, to the
place that they name, which need not be there. -/
def locate (d : Directory) : List String → List String → Except FileError (List String)
  | here, [] => .ok here
  | here, piece :: rest =>
    match d.entry? here with
    | none => .error .notFound
    | some (.file _) => .error .notDirectory
    | some .directory =>
      if Path.isIdle piece then d.locate here rest
      else if piece = ".." then d.locate (above here) rest
      else if Path.nameLimit < piece.utf8ByteSize then .error .nameTooLong
      else d.locate (here ++ [piece]) rest

/-- Where the given pieces of a path lead. -/
def place (d : Directory) (path : String) (pieces : List String) : Except FileError (List String) :=
  if path.toList.contains '\x00' then .error .nulInName
  else if Path.limit < path.utf8ByteSize then .error .nameTooLong
  else if path.isEmpty then .error .notFound
  else d.locate (if Path.isAbsolute path then ["/"] else []) pieces

/-- What stands at a path. -/
def find (d : Directory) (path : String) : Except FileError Entry := do
  match d.entry? (← d.place path (Path.pieces path)) with
  | some entry => .ok entry
  | none => .error .notFound

/-- The bytes of a file. -/
def read (d : Directory) (path : String) : Except FileError ByteArray := do
  match ← d.find path with
  | .file bytes => .ok bytes
  | .directory => .error .isDirectory

/-- Whether anything stands at a path. -/
def holds (d : Directory) (path : String) : Bool :=
  match d.find path with
  | .ok _ => true
  | .error _ => false

/-- Whether a directory stands at a path. -/
def hasFolder (d : Directory) (path : String) : Bool :=
  match d.find path with
  | .ok .directory => true
  | _ => false

/-! ## Making directories -/

/-- Makes a directory in one that is there. Slashes may follow its name. -/
def makeOne (d : Directory) (path : String) : Except FileError Directory := do
  let names ← d.place path (Path.trimSlashes (Path.pieces path))
  match d.entry? names with
  | some _ => .error .alreadyExists
  | none => .ok { d with folders := d.folders ++ [names] }

/-- Makes a directory, unless it is there. -/
def ensureOne (d : Directory) (path : String) : Except FileError Directory :=
  match d.makeOne path with
  | .error e => if d.hasFolder path then .ok d else .error e
  | made => made

/-- Makes the first of the given directories, each of which is in the next: if the next is missing,
it is made before. -/
def makeWithin (d : Directory) : List String → Except FileError Directory
  | [] => .ok d
  | path :: above =>
    match d.ensureOne path with
    | .error .notFound => do (← d.makeWithin above).ensureOne path
    | done => done

/-- Makes a directory, and those above it. -/
def make (d : Directory) (path : String) : Except FileError Directory :=
  d.makeWithin ((Path.ancestors path).filter (!·.isEmpty))

end Directory

end WorkItemQuery
