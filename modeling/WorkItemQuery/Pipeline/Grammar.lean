/-
The grammar of pipelines. Between the parts of a rule blanks and comments are passed over; inside a
lexeme they are not. Conditions nest, so their rules are given for every bound on the nesting.
-/
import WorkItemQuery.Pipeline.Basic
import WorkItemQuery.Pipeline.Rule

namespace WorkItemQuery.Pipeline

open Rule WorkItemQuery.Text

/-! ## Lexemes -/

/-- Blanks and comments. -/
def gap : Rule Unit := ofScan fun cs => some ((), skipGap false cs)

/-- A character that has no name in the grammar. -/
def symbol (s : Char) : Rule Unit := ofScan fun
  | c :: rest => if c = s then some ((), rest) else none
  | [] => none

def keyword (w : String) : Rule Unit := lexeme (readWord w.toList)

def ident : Rule String := lexeme readName

def string : Rule String := lexeme readQuoted

def number : Rule NumberText := lexeme readNumber

/-- A timestamp: the word `date` and a string right after it. -/
def timestamp : Rule String := named do
  ofScan fun cs => (readLetters "date".toList cs).map fun rest => ((), rest)
  string

/-- The end of the text. -/
def endOfText : Rule Unit := lexeme fun
  | [] => some ((), [])
  | _ :: _ => none

/-- A rule one or more times, with `separator` between: the first value and the others. -/
def separated {α : Type} (separator : Rule Unit) (item : Rule α) : Rule (α × List α) := do
  let first ← item
  let more ← many do
    gap
    separator
    gap
    item
  pure (first, more)

/-- A list with commas between its items. -/
def commaList {α : Type} (item : Rule α) : Rule (List α) := do
  let (first, more) ← separated (symbol ',') item
  pure (first :: more)

/-! ## Operands, relations and values -/

def indexer : Rule String := named do
  symbol '['
  let key ← lexeme readKey
  symbol ']'
  pure key

def operand : Rule Operand := named ((Operand.key <$> indexer) <|> (Operand.name <$> ident))

/-- The words of an operator that only work item queries have. -/
def domainWords (op : DomainOp) (ws : List String) : Rule DomainOp := do
  lexeme (readWords (ws.map String.toList))
  pure op

def domainOp : Rule DomainOp := named
  (domainWords .notInGroup ["not", "in", "group"]
    <|> domainWords .inGroup ["in", "group"]
    <|> domainWords .isIn ["in"]
    <|> domainWords .under ["under"]
    <|> domainWords .wasEver ["ever"]
    <|> domainWords .contains ["contains"])

/-- A sign of comparison; of two that start alike the longer one. -/
def readComparison : List Char → Option (BinaryOp × List Char)
  | '<' :: '>' :: rest => some (.notEqual, rest)
  | '!' :: '=' :: rest => some (.notEqual, rest)
  | '<' :: '=' :: rest => some (.lessThanOrEqual, rest)
  | '>' :: '=' :: rest => some (.greaterThanOrEqual, rest)
  | '=' :: rest => some (.equal, rest)
  | '<' :: rest => some (.lessThan, rest)
  | '>' :: rest => some (.greaterThan, rest)
  | _ => none

def comparison : Rule BinaryOp := lexeme readComparison

def relation : Rule Relation := (Relation.domain <$> domainOp) <|> (Relation.compare <$> comparison)

def scalar : Rule Scalar := named ((Scalar.string <$> string) <|> (Scalar.number <$> number))

def list : Rule (List Scalar) := named do
  symbol '('
  let items ← optional do
    gap
    commaList scalar
  gap
  symbol ')'
  pure (items.getD [])

def value : Rule Literal := named
  ((Literal.list <$> list)
    <|> (Literal.timestamp <$> timestamp)
    <|> (Literal.string <$> string)
    <|> (Literal.number <$> number)
    <|> (do keyword "null"; pure Literal.null))

/-! ## Conditions -/

def predicate : Rule Condition := named do
  let operand ← operand
  gap
  let relation ← relation
  gap
  let value ← value
  pure (.test operand relation value)

/-- Conditions with one connective between them group to the left. -/
def joined (connective : String) (join : Condition → Condition → Condition) (part : Rule Condition) :
    Rule Condition := named do
  let (first, more) ← separated (keyword connective) part
  pure (more.foldl join first)

/-- A condition whose parts between the connectives are read by `factor`. -/
def conditionOf (factor : Rule Condition) : Rule Condition :=
  named (joined "or" .or (joined "and" .and factor))

/-- No condition at all. -/
def noCondition : Rule Condition := fun _ => ⟨none, none⟩

/-- A test, a condition in parentheses, or the negation of one, nested at most `depth` levels deep. -/
def factor : Nat → Rule Condition
  | 0 => noCondition
  | depth + 1 =>
    let primary := named ((do
        symbol '('
        gap
        let c ← conditionOf (factor depth)
        gap
        symbol ')'
        pure c)
      <|> predicate)
    named ((do
        keyword "not"
        gap
        Condition.not <$> factor depth)
      <|> primary)

/-- A condition. No text nests deeper than it is long. -/
def condition : Rule Condition := fun cs => conditionOf (factor (cs.length + 1)) cs

/-! ## Steps -/

def wildcard : Rule Projection := named do
  symbol '*'
  pure .all

def fieldList : Rule Projection := Projection.fields <$> named (commaList ident)

def selectStep : Rule Step := named do
  keyword "select"
  gap
  Step.select <$> (wildcard <|> fieldList)

def filterStep : Rule Step := named do
  keyword "where"
  gap
  Step.filter <$> condition

/-- The word after a sort key; the descending order gives `true`. -/
def direction : Rule Bool := named
  ((do keyword "asc"; pure false) <|> (do keyword "desc"; pure true))

def sortKey : Rule SortKey := named do
  let operand ← operand
  let descending ← optional do
    gap
    direction
  pure ⟨operand, descending.getD false⟩

def orderStep : Rule Step := named do
  keyword "order"
  let _ ← optional do
    gap
    keyword "by"
  gap
  Step.order <$> commaList sortKey

def asOfStep : Rule Step := named do
  keyword "asof"
  gap
  Step.asOf <$> (timestamp <|> string)

def step : Rule Step := named (selectStep <|> filterStep <|> orderStep <|> asOfStep)

/-! ## Pipelines -/

def source : Rule String := named do
  keyword "from"
  gap
  ident

def pipeline : Rule Pipeline := named do
  let entity ← source
  let steps ← many do
    gap
    symbol '|'
    gap
    step
  pure ⟨entity, steps⟩

/-- A whole text as a pipeline. -/
def program : Rule Pipeline := named do
  gap
  let p ← pipeline
  gap
  endOfText
  pure p

end WorkItemQuery.Pipeline
