/-
JSON values, and the views of them that decoding goes through. Whole numbers and decimals are kept
apart, as they are written apart.
-/
import WorkItemQuery.Number.Decimal

namespace WorkItemQuery

open Number

inductive Json where
  | null
  | bool (b : Bool)
  | int (i : Int)
  | decimal (d : Decimal)
  | string (s : String)
  | array (items : List Json)
  | object (members : List (String × Json))

namespace Json

/-! ## Views -/

def string? : Json → Option String
  | string s => some s
  | _ => none

def bool? : Json → Option Bool
  | bool b => some b
  | _ => none

def int? : Json → Option Int
  | int i => some i
  | _ => none

def array? : Json → Option (List Json)
  | array items => some items
  | _ => none

/-- The list of what `read` makes of the items of an array. -/
def listOf? {α : Type} (read : Json → Option α) (j : Json) : Option (List α) := do
  (← j.array?).mapM read

/-- The value of a member of an object; `none` too for what is no object. -/
def member? (name : String) : Json → Option Json
  | object members => members.lookup name
  | _ => none

/-- What `read` makes of a member, which must be there. -/
def required? {α : Type} (name : String) (read : Json → Option α) (j : Json) : Option α := do
  read (← j.member? name)

/-- Members by name. -/
abbrev Record := List (String × Json)

/-- The members of a record with the given names. The values alone, in the order of the names, stand
for a record too; then at least `least` of them must be there. -/
def record? (names : List String) (least : Nat) : Json → Option Record
  | object members => some members
  | array items =>
    if least ≤ items.length && items.length ≤ names.length then some (names.zip items) else none
  | _ => none

/-- What `read` makes of a member, which must be there. -/
def Record.required? {α : Type} (r : Record) (name : String) (read : Json → Option α) : Option α := do
  read (← r.lookup name)

/-- What `read` makes of a member, or `fallback` when it is missing. -/
def Record.optional? {α : Type} (r : Record) (name : String) (fallback : α) (read : Json → Option α) :
    Option α :=
  match r.lookup name with
  | some j => read j
  | none => some fallback

/-- A value that may be null. -/
def nullable? {α : Type} (read : Json → Option α) : Json → Option (Option α)
  | null => some none
  | j => (read j).map some

/-- One case of several: its bare name, or an object whose single member has the name of the case
and holds its content. -/
def case? : Json → Option (String × Option Json)
  | string s => some (s, none)
  | object [(name, content)] => some (name, some content)
  | _ => none

/-- A case without content; a null may stand for it. -/
def bare? (j : Json) : Option String :=
  match j.case? with
  | some (name, none) => some name
  | some (name, some null) => some name
  | _ => none

/-! ## Making values -/

/-- A case with content. -/
def tagged (name : String) (content : Json) : Json := object [(name, content)]

def ofOption (j : Option Json) : Json := j.getD null

def strings (xs : List String) : Json := array (xs.map string)

/-! ## Size -/

mutual

/-- How deep arrays and objects are nested; at least one. -/
def depth : Json → Nat
  | array items => depthOfItems items + 1
  | object members => depthOfMembers members + 1
  | _ => 1

def depthOfItems : List Json → Nat
  | [] => 0
  | j :: rest => max (depth j) (depthOfItems rest)

def depthOfMembers : List (String × Json) → Nat
  | [] => 0
  | (_, j) :: rest => max (depth j) (depthOfMembers rest)

end

mutual

/-- How many arrays and objects are in one another. -/
def nesting : Json → Nat
  | array items => nestingOfItems items + 1
  | object members => nestingOfMembers members + 1
  | _ => 0

def nestingOfItems : List Json → Nat
  | [] => 0
  | j :: rest => max (nesting j) (nestingOfItems rest)

def nestingOfMembers : List (String × Json) → Nat
  | [] => 0
  | (_, j) :: rest => max (nesting j) (nestingOfMembers rest)

end

end Json

end WorkItemQuery
