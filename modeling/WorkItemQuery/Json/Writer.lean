/-
The compact text of a JSON value: no blanks, members in their order, and only what must be escaped
is escaped.
-/
import WorkItemQuery.Json.Value

namespace WorkItemQuery.Json

open Number

/-- A digit of base sixteen. -/
def hexDigit (n : Nat) : Char := Nat.digitChar n

/-- A character inside a string: quotation mark, backslash and controls are escaped. -/
def escapeChar (c : Char) : List Char :=
  if c = '"' then ['\\', '"']
  else if c = '\\' then ['\\', '\\']
  else if c = '\x08' then ['\\', 'b']
  else if c = '\t' then ['\\', 't']
  else if c = '\n' then ['\\', 'n']
  else if c = '\x0c' then ['\\', 'f']
  else if c = '\r' then ['\\', 'r']
  else if c.toNat < 0x20 then
    ['\\', 'u', '0', '0', hexDigit (c.toNat / 16), hexDigit (c.toNat % 16)]
  else [c]

/-- The text of a string, quotation marks included. -/
def stringText (s : String) : String :=
  String.ofList ('"' :: s.toList.flatMap escapeChar ++ ['"'])

mutual

/-- The compact text of a value. -/
def text : Json → String
  | null => "null"
  | bool b => if b then "true" else "false"
  | int i => intText i
  | decimal d => d.positional
  | string s => stringText s
  | array items => "[" ++ String.intercalate "," (textOfItems items) ++ "]"
  | object members => "\x7b" ++ String.intercalate "," (textOfMembers members) ++ "\x7d"

def textOfItems : List Json → List String
  | [] => []
  | j :: rest => text j :: textOfItems rest

def textOfMembers : List (String × Json) → List String
  | [] => []
  | (name, j) :: rest => (stringText name ++ ":" ++ text j) :: textOfMembers rest

end

end WorkItemQuery.Json
