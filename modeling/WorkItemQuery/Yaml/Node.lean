/-
YAML documents as trees, and the views of them that decoding goes through. A scalar keeps how it is
written: only if it is plain may it stand for nothing or for a truth value.
-/
import WorkItemQuery.Yaml.Token

namespace WorkItemQuery.Yaml

inductive Node where
  | scalar (text : String) (style : Style) (tag : Option String)
  | sequence (items : List Node)
  | mapping (members : List (Node × Node))
  /-- A node inside of itself, by a reference to it. -/
  | endless

namespace Node

/-- What is read where nothing is written. -/
def empty : Node := scalar "" .plain none

/-- The tag of truth values. -/
def flagTag : String := "tag:yaml.org,2002:bool"

/-- The tag of nothing. -/
def nullTag : String := "tag:yaml.org,2002:null"

/-- A spelling of nothing; no spelling at all is not among them. -/
def isNull (text : String) : Bool := text == "~" || text == "null" || text == "Null" || text == "NULL"

/-! ## Views -/

/-- The text of any scalar. -/
def text? : Node → Option String
  | scalar text _ _ => some text
  | _ => none

/-- A spelling of a truth value. -/
def flagOfText? : String → Option Bool
  | "true" | "True" | "TRUE" => some true
  | "false" | "False" | "FALSE" => some false
  | _ => none

/-- A truth value, which must be plain, or a literal block with the right tag. -/
def flag? : Node → Option Bool
  | scalar text .plain _ => flagOfText? text
  | scalar text .literal (some tag) => if tag = flagTag then flagOfText? text else none
  | _ => none

/-- A text that may be missing: nothing, or one of the plain spellings of null. With the tag of nothing
it must be one of these. -/
def optionalText? : Node → Option (Option String)
  | scalar text .plain none => some (if text.isEmpty || isNull text then none else some text)
  | scalar text .plain (some tag) =>
    if tag = nullTag then if isNull text then some none else none
    else some (some text)
  | n => n.text?.map some

/-- One name of several, which may also be the tag of nothing. -/
def choice? : Node → Option String
  | scalar text style (some tag) =>
    match tag.toList with
    | '!' :: c :: rest =>
      if style = .plain && (text.isEmpty || isNull text) then some (String.ofList (c :: rest)) else none
    | _ => some text
  | n => n.text?

/-- The list of what `read` makes of the items; nothing at all is the empty list. -/
def listOf? {α : Type} (read : Node → Option α) : Node → Option (List α)
  | sequence items => items.mapM read
  | scalar "" .plain _ => some []
  | _ => none

/-- Members by name. -/
abbrev Record := List (String × Node)

/-- The members of a record with the given names. A member may come once only, and others are left
out, but must have names. Nothing at all stands for a record too. -/
def record? (names : List String) : Node → Option Record
  | mapping members => do
    let named ← members.mapM fun m => do return (← m.1.text?, m.2)
    let known := named.filter fun m => names.contains m.1
    if (known.map (·.1)).Nodup then some known else none
  | scalar "" .plain _ => some []
  | _ => none

/-- What `read` makes of a member, which must be there. -/
def Record.required? {α : Type} (r : Record) (name : String) (read : Node → Option α) : Option α := do
  read (← r.lookup name)

/-- What `read` makes of a member, or `fallback` when it is missing. -/
def Record.optional? {α : Type} (r : Record) (name : String) (fallback : α) (read : Node → Option α) :
    Option α :=
  match r.lookup name with
  | some n => read n
  | none => some fallback

end Node

end WorkItemQuery.Yaml
