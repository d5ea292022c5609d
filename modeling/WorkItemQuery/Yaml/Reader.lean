/-
From the tokens of a YAML text to its document. A text has one document at most.
-/
import WorkItemQuery.Yaml.Layout
import WorkItemQuery.Yaml.Node

namespace WorkItemQuery.Yaml

/-- A node that was given a name. -/
structure Anchor where
  name : String
  /-- How many names were given before. Where a name is given anew, its number is the one that the next
  new name gets, and then both stand for the later node. -/
  number : Nat
  /-- The node, when it is complete. -/
  node : Option Node

/-- What is left of the tokens, and what is known from those before. -/
structure Remaining where
  tokens : List Token
  /-- Short forms of the starts of tags. -/
  shorthands : List (String × String) := [("!", "!"), ("!!", "tag:yaml.org,2002:")]
  /-- In the order in which the names were given. -/
  anchors : List Anchor := []

/-- A part of a document, read off the tokens. -/
abbrev Reading (α : Type) := StateT Remaining Option α

namespace Reading

/-- The next token; none at the end. -/
def peek : Reading (Option Token) := fun s => some (s.tokens.head?, s)

/-- Takes the next token off. -/
def drop : Reading Unit := fun s => some ((), { s with tokens := s.tokens.tail })

/-- Takes the next token off if it is the given one. -/
def accept (t : Token) : Reading Bool := do
  if (← peek) = some t then
    drop
    return true
  else return false

/-- Takes the given token off. -/
def expect (t : Token) : Reading Unit := do
  if !(← accept t) then failure

/-! ## Names and tags -/

/-- The node that a name was given to last. -/
def refer (name : String) : Reading Node := fun s => do
  let given ← s.anchors.reverse.find? (·.name == name)
  let a ← s.anchors.reverse.find? (·.number == given.number)
  return (a.node.getD .endless, s)

/-- Gives a name, and tells its place among the names. -/
def define (name : String) : Reading Nat := fun s =>
  let number := (s.anchors.map (·.name)).eraseDups.length
  some (s.anchors.length, { s with anchors := s.anchors ++ [⟨name, number, none⟩] })

/-- Completes the node of the name at the given place. -/
def complete (place : Nat) (node : Node) : Reading Unit := fun s =>
  some ((), { s with anchors := s.anchors.modify place fun a => { a with node := some node } })

/-- The tag that a handle and a suffix stand for; no handle stands for nothing. -/
def resolve (handle suffix : String) : Reading String := fun s => do
  if handle.isEmpty then return (suffix, s)
  else return ((← s.shorthands.lookup handle) ++ suffix, s)

/-- The name that a node is given, if it is next. -/
def anchor : Reading (Option String) := do
  match ← peek with
  | some (.anchor name) =>
    drop
    return some name
  | _ => return none

/-- The tag that a node is given, if it is next. -/
def tag : Reading (Option String) := do
  match ← peek with
  | some (.tag handle suffix) =>
    drop
    return some (← resolve handle suffix)
  | _ => return none

/-- The name and the tag before a node, in either order. -/
def properties : Reading (Option String × Option String) := do
  let name ← anchor
  let tag ← tag
  match name with
  | some name => return (some name, tag)
  | none => return (← anchor, tag)

/-! ## Nodes -/

mutual

/-- A node. Only in a block may it be a block, and only as the value of a block's key may it be a
sequence that is not indented. -/
def node (block sameIndent : Bool) : Nat → Reading Node
  | 0 => failure
  | fuel + 1 => do
    match ← peek with
    | some (.reference name) =>
      drop
      refer name
    | _ =>
      let (name, tag) ← properties
      match name with
      | none => content block sameIndent tag.isSome tag fuel
      | some name =>
        let place ← define name
        let n ← content block sameIndent true tag fuel
        complete place n
        return n

/-- What follows the name and the tag of a node. If there was one of these, it may be nothing. -/
def content (block sameIndent optional : Bool) (tag : Option String) : Nat → Reading Node
  | 0 => failure
  | fuel + 1 => do
    match ← peek with
    | some (.scalar text style) =>
      drop
      return .scalar text style tag
    | some .openSequence =>
      drop
      return .sequence (← bracketItems true fuel)
    | some .openMapping =>
      drop
      return .mapping (← bracketMembers true fuel)
    | some t =>
      if t = .dash && sameIndent then return .sequence (← dashItems fuel)
      else if t = .blockSequence && block then
        drop
        return .sequence (← blockItems fuel)
      else if t = .blockMapping && block then
        drop
        return .mapping (← blockMembers fuel)
      else if optional then return .scalar "" .plain tag
      else failure
    | none => if optional then return .scalar "" .plain tag else failure

/-- A node, or nothing before one of the given tokens. -/
def nodeUnless (ends : List Token) (block sameIndent : Bool) : Nat → Reading Node
  | 0 => failure
  | fuel + 1 => do
    match ← peek with
    | some t => if ends.contains t then return .empty else node block sameIndent fuel
    | none => node block sameIndent fuel

/-- The value of a key, which may be nothing. -/
def valueUnless (ends : List Token) (block : Bool) : Nat → Reading Node
  | 0 => failure
  | fuel + 1 => do
    if ← accept .value then nodeUnless ends block block fuel else return .empty

/-- The items of a block up to its end. -/
def blockItems : Nat → Reading (List Node)
  | 0 => failure
  | fuel + 1 => do
    if ← accept .blockEnd then return []
    expect .dash
    let item ← nodeUnless [.dash, .blockEnd] true false fuel
    return item :: (← blockItems fuel)

/-- The items of a sequence that is not indented: it ends where no dash follows. -/
def dashItems : Nat → Reading (List Node)
  | 0 => failure
  | fuel + 1 => do
    if ← accept .dash then
      let item ← nodeUnless [.dash, .key, .value, .blockEnd] true false fuel
      return item :: (← dashItems fuel)
    else return []

/-- The members of a block up to its end. -/
def blockMembers : Nat → Reading (List (Node × Node))
  | 0 => failure
  | fuel + 1 => do
    if ← accept .blockEnd then return []
    expect .key
    let key ← nodeUnless [.key, .value, .blockEnd] true true fuel
    let value ← valueUnless [.key, .value, .blockEnd] true fuel
    return (key, value) :: (← blockMembers fuel)

/-- The items up to the closing bracket, each but the first after a comma. A key makes an item a
mapping of its own. -/
def bracketItems (first : Bool) : Nat → Reading (List Node)
  | 0 => failure
  | fuel + 1 => do
    if ← accept .closeSequence then return []
    if !first then expect .comma
    if ← accept .closeSequence then return []
    let item ← if ← accept .key then bracketPair fuel else node false false fuel
    return item :: (← bracketItems false fuel)

/-- The mapping that a key makes of an item. Where the key should be, a token that cannot begin it is
passed over. -/
def bracketPair : Nat → Reading Node
  | 0 => failure
  | fuel + 1 => do
    let ends : List Token := [.comma, .closeSequence]
    let key ←
      match ← peek with
      | some t =>
        if t = .value || ends.contains t then do
          drop
          pure Node.empty
        else node false false fuel
      | none => failure
    let value ← valueUnless ends false fuel
    return .mapping [(key, value)]

/-- The members up to the closing bracket, each but the first after a comma. A node without a key's
token is a key with nothing for its value. -/
def bracketMembers (first : Bool) : Nat → Reading (List (Node × Node))
  | 0 => failure
  | fuel + 1 => do
    if ← accept .closeMapping then return []
    if !first then expect .comma
    if ← accept .closeMapping then return []
    if ← accept .key then
      let key ← nodeUnless [.value, .comma, .closeMapping] false false fuel
      let value ← valueUnless [.comma, .closeMapping] false fuel
      return (key, value) :: (← bracketMembers false fuel)
    else
      let key ← node false false fuel
      return (key, .empty) :: (← bracketMembers false fuel)

end

/-! ## Documents -/

/-- Directives before a document, each of which may come once only. `versioned` says whether the
version was given. -/
def directives (versioned : Bool) (handles : List String) : Nat → Reading Unit
  | 0 => failure
  | fuel + 1 => do
    match ← peek with
    | some (.version major minor) =>
      if versioned || major != 1 || !(minor == 1 || minor == 2) then failure
      drop
      directives true handles fuel
    | some (.shorthand handle start) =>
      if handles.contains handle then failure
      drop
      modify fun s => { s with shorthands := (handle, start) :: s.shorthands }
      directives versioned (handle :: handles) fuel
    | _ => return ()

/-- Whether a document, or nothing, begins with the next token where one was marked. -/
def isVoid : Option Token → Bool
  | none | some .documentStart | some .documentEnd | some (.version ..) | some (.shorthand ..) => true
  | _ => false

/-- The document. Directives need a marker of its start. -/
def document (fuel : Nat) : Reading Node := do
  match ← peek with
  | none => return .empty
  | some .documentEnd => failure
  | t =>
    if isVoid t then
      directives false [] fuel
      expect .documentStart
      if isVoid (← peek) then return .empty else node true false fuel
    else node true false fuel

end Reading

/-- The document that a text is; a text without tokens is an empty one. -/
def Node.ofText? (text : String) : Option Node := do
  let tokens ← Token.ofText? text
  -- At every second level down a token is taken off.
  let (node, left) ← (Reading.document (4 * tokens.length + 4)).run { tokens }
  if left.tokens.all (· == .documentEnd) then some node else none

end WorkItemQuery.Yaml
