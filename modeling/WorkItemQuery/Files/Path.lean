/-
Paths as texts: names with slashes between them. Repeated slashes, and dots behind the first name,
add nothing to a path.
-/

namespace WorkItemQuery.Path

/-- The greatest number of bytes in a name. -/
def nameLimit : Nat := 255

/-- The greatest number of bytes in a path. -/
def limit : Nat := 4095

/-- The pieces of a path between slashes. -/
def splitSlashes : List Char → List (List Char)
  | [] => [[]]
  | c :: rest =>
    if c = '/' then [] :: splitSlashes rest
    else
      match splitSlashes rest with
      | [] => [[c]]
      | piece :: more => (c :: piece) :: more

def pieces (path : String) : List String := (splitSlashes path.toList).map String.ofList

def isAbsolute (path : String) : Bool := path.toList.head? == some '/'

/-- Whether a piece behind the first adds nothing to a path. -/
def isIdle (piece : String) : Bool := piece == "" || piece == "."

/-- Drops the last pieces that add nothing. -/
def trimIdle (pieces : List String) : List String := (pieces.reverse.dropWhile isIdle).reverse

/-- Drops the last pieces that are empty. -/
def trimSlashes (pieces : List String) : List String := (pieces.reverse.dropWhile (· == "")).reverse

/-- The path without its last name; none for a path that has no name. -/
def parent? (path : String) : Option String :=
  match pieces path with
  | [] => none
  | first :: others =>
    if isAbsolute path then
      match trimIdle others with
      | [] => none
      | names => some ("/" ++ String.intercalate "/" (trimIdle names.dropLast))
    else if first = "" then none
    else
      match trimIdle others with
      | [] => some ""
      | names => some (String.intercalate "/" (first :: trimIdle names.dropLast))

/-- The path and those above it, at most so many. -/
def ancestorsWithin : Nat → String → List String
  | 0, _ => []
  | n + 1, path =>
    path :: match parent? path with
      | some above => ancestorsWithin n above
      | none => []

/-- The path and those above it: every step takes characters away. -/
def ancestors (path : String) : List String := ancestorsWithin (path.length + 1) path

/-- A path inside a directory; an absolute path stays as it is. -/
def join (directory path : String) : String :=
  if isAbsolute path || directory.isEmpty then path
  else if directory.toList.getLast? == some '/' then directory ++ path
  else directory ++ "/" ++ path

/-- The names of a relative path in order, dots left out. -/
def names (path : String) : List String := (pieces path).filter (!isIdle ·)

/-- Names of a path after others; two dots take the name before them away, if there is one. -/
def climb : List String → List String → List String
  | done, [] => done
  | done, name :: rest =>
    if name = ".." && !done.isEmpty && done.getLast? != some ".." then climb done.dropLast rest
    else climb (done ++ [name]) rest

/-- The same place below the directory that a path starts from, with nothing idle in it, and without
going down and up again; none if the path leads out. -/
def below? (path : String) : Option String :=
  let ns := climb [] (names path)
  if isAbsolute path || ns.head? == some ".." then none else some (String.intercalate "/" ns)

end WorkItemQuery.Path
