/-
The tokens of a YAML text. Blocks, which the text shows by indentation, have tokens for their start
and their end, and so every token stands for itself.
-/

namespace WorkItemQuery.Yaml

/-- How a scalar is written. -/
inductive Style where
  | plain
  | quoted
  /-- A block whose lines are kept. -/
  | literal
  /-- A block whose lines are joined. -/
  | folded
deriving DecidableEq, Repr

inductive Token where
  /-- The version of the language. -/
  | version (major minor : Nat)
  /-- A short form, and the start of a tag that it stands for. -/
  | shorthand (handle start : String)
  | documentStart
  | documentEnd
  | blockSequence
  | blockMapping
  | blockEnd
  | openSequence
  | closeSequence
  | openMapping
  | closeMapping
  /-- A dash before an item of a block. -/
  | dash
  | comma
  /-- Stands before a key. -/
  | key
  /-- Stands between a key and its value. -/
  | value
  /-- A node that was given a name before. -/
  | reference (name : String)
  /-- The name of the node that follows. -/
  | anchor (name : String)
  /-- The tag of the node that follows. -/
  | tag (handle suffix : String)
  | scalar (text : String) (style : Style)
deriving DecidableEq, Repr

end WorkItemQuery.Yaml
