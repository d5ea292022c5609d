/-
Grammar rules. A rule reads a value off the front of the text or fails, and in either case reports a
miss: the furthest place at which one of the rules with a name was tried in vain. Alternatives are
tried in order and the first that succeeds is taken for good.
-/

namespace WorkItemQuery.Pipeline

/-- What a rule makes of a text: a value and what is left, or nothing; and the number of characters
that were left at the furthest miss on the way. -/
structure Reply (α : Type) where
  miss : Option Nat
  result : Option (α × List Char)

/-- A rule of the grammar. -/
def Rule (α : Type) : Type := List Char → Reply α

namespace Rule

/-- Of two misses the further one, with fewer characters left. -/
def further : Option Nat → Option Nat → Option Nat
  | none, b => b
  | a, none => a
  | some a, some b => some (min a b)

/-- The empty text always matches. -/
def accept {α : Type} (a : α) : Rule α := fun cs => ⟨none, some (a, cs)⟩

/-- One rule, and another on what it leaves. -/
def andThen {α β : Type} (p : Rule α) (f : α → Rule β) : Rule β := fun cs =>
  match p cs with
  | ⟨miss, none⟩ => ⟨miss, none⟩
  | ⟨miss, some (a, rest)⟩ =>
    let reply := f a rest
    ⟨further miss reply.miss, reply.result⟩

instance : Monad Rule where
  pure := accept
  bind := andThen

/-- One rule, or another on the same text if it fails. -/
def orElse {α : Type} (p : Rule α) (q : Unit → Rule α) : Rule α := fun cs =>
  match p cs with
  | ⟨miss, some r⟩ => ⟨miss, some r⟩
  | ⟨miss, none⟩ =>
    let reply := q () cs
    ⟨further miss reply.miss, reply.result⟩

instance {α : Type} : OrElse (Rule α) := ⟨orElse⟩

/-- A rule that counts as missed where it starts if it fails. -/
def named {α : Type} (p : Rule α) : Rule α := fun cs =>
  match p cs with
  | ⟨miss, none⟩ => ⟨further miss (some cs.length), none⟩
  | reply => reply

/-- A rule that reports no misses of its own. -/
def ofScan {α : Type} (scan : List Char → Option (α × List Char)) : Rule α := fun cs =>
  ⟨none, scan cs⟩

/-- A piece of text taken as a whole, with a name. -/
def lexeme {α : Type} (scan : List Char → Option (α × List Char)) : Rule α := named (ofScan scan)

/-- A rule or nothing. -/
def optional {α : Type} (p : Rule α) : Rule (Option α) :=
  (some <$> p) <|> pure none

/-- A rule as often as it matches and takes something off the text. -/
def many {α : Type} (p : Rule α) (cs : List Char) : Reply (List α) :=
  match p cs with
  | ⟨miss, none⟩ => ⟨miss, some ([], cs)⟩
  | ⟨miss, some (a, rest)⟩ =>
    if rest.length < cs.length then
      let reply := many p rest
      ⟨further miss reply.miss, reply.result.map fun r => (a :: r.1, r.2)⟩
    else ⟨miss, some ([a], rest)⟩
termination_by cs.length

end Rule

end WorkItemQuery.Pipeline
