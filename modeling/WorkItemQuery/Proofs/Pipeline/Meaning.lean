/-
Literals and their constants: how a constant is written as a literal, and that the literal stands for it.
-/
import WorkItemQuery.Pipeline.Meaning
import WorkItemQuery.Proofs.Number.Digits
import WorkItemQuery.Proofs.Pipeline.Program
import WorkItemQuery.Proofs.Time.Rfc3339

namespace WorkItemQuery.Pipeline

open Number Time WorkItemQuery.Text

/-! ## Integers -/

namespace NumberText

/-- An integer as it is written. -/
def ofInt (i : Int) : NumberText := ⟨decide (i < 0), digitsOf i.natAbs, []⟩

theorem isNumber_ofInt (i : Int) : IsNumber (ofInt i) where
  some_digit := Nat.toDigits_ne_nil
  whole _ := isDigit_of_mem_digitsOf
  fraction := by simp [ofInt]

theorem chars_ofInt (i : Int) : (ofInt i).chars = (intText i).toList := by
  by_cases h : i < 0
  · simp [chars, ofInt, intText, h]
  · simp [chars, ofInt, intText, h]

theorem intValue_ofInt (i : Int) : (ofInt i).intValue = i := by
  by_cases h : i < 0
  · simp only [intValue, ofInt, h, decide_true, if_true, ofDigits_digitsOf]
    omega
  · simp only [intValue, ofInt, h, decide_false, Bool.false_eq_true, if_false, ofDigits_digitsOf]
    omega

theorem constant_int32 (v : Int32) : (ofInt v.toInt).constant = .ok (.int32 v) := by
  unfold constant
  rw [intValue_ofInt, int32?_toInt]
  rfl

theorem constant_int64 {v : Int64} (h : v.toInt < -2147483648 ∨ 2147483647 < v.toInt) :
    (ofInt v.toInt).constant = .ok (.int64 v) := by
  unfold constant
  rw [intValue_ofInt, int32?_eq_none.2 h, int64?_toInt]
  rfl

theorem listValue_int32 (v : Int32) : (ofInt v.toInt).listValue = .ok v := by
  unfold listValue
  rw [constant_int32]

end NumberText

/-! ## Lists -/

/-- An integer as an item of a list. -/
def intScalar (v : Int32) : Scalar := .number (.ofInt v.toInt)

theorem splitScalars_ints : ∀ vs : List Int32, splitScalars (vs.map intScalar) = .ok (vs, [])
  | [] => rfl
  | v :: vs => by
    rw [List.map_cons, intScalar, splitScalars, NumberText.listValue_int32, splitScalars_ints vs]
    rfl

theorem splitScalars_strings : ∀ ss : List String, splitScalars (ss.map .string) = .ok ([], ss)
  | [] => rfl
  | s :: ss => by
    rw [List.map_cons, splitScalars, splitScalars_strings ss]
    rfl

theorem listConstant_ints {vs : List Int32} (h : vs ≠ []) :
    listConstant (vs.map intScalar) = .ok (.intList vs) := by
  obtain ⟨v, vs, rfl⟩ := List.exists_cons_of_ne_nil h
  rw [listConstant, splitScalars_ints]
  rfl

theorem listConstant_strings {ss : List String} (h : ss ≠ []) :
    listConstant (ss.map .string) = .ok (.stringList ss) := by
  obtain ⟨s, ss, rfl⟩ := List.exists_cons_of_ne_nil h
  rw [listConstant, splitScalars_strings]
  rfl

end WorkItemQuery.Pipeline

namespace WorkItemQuery

open Pipeline Number Time

/-! ## Constants -/

/-- A way to write instants: one of those of RFC 3339 for each instant whose year has four digits. The
instant of a whole query may have the word `date` before it. -/
structure TimeStyle where
  spell : Timestamp → String
  spells : ∀ {t : Timestamp}, t.HasShortYear → Rfc3339 t (spell t).toList
  asOfWord : Bool

/-- The exact texts of instants. -/
def TimeStyle.exact : TimeStyle where
  spell := Timestamp.text
  spells := rfc3339_text
  asOfWord := false

namespace Constant

/-- The constants that a pipeline can compare a field with. An integer of 64 bits is one that 32 bits do
not hold, since the others are read as 32-bit ones. -/
def IsLiteral : Constant → Prop
  | string _ | int32 _ | null => True
  | int64 v => v.toInt < -2147483648 ∨ 2147483647 < v.toInt
  | timestamp t => t.HasShortYear
  | intList vs => vs ≠ []
  | stringList ss => ss ≠ []
  | table _ | int16 _ | double _ | bool _ | foreign _ _ => False

instance : (k : Constant) → Decidable k.IsLiteral
  | string _ | int32 _ | null => inferInstanceAs (Decidable True)
  | int64 _ => inferInstanceAs (Decidable (_ ∨ _))
  | timestamp t => inferInstanceAs (Decidable t.HasShortYear)
  | intList _ | stringList _ => inferInstanceAs (Decidable (_ ≠ _))
  | table _ | int16 _ | double _ | bool _ | foreign _ _ => inferInstanceAs (Decidable False)

/-- How a constant is written. -/
def literal (style : TimeStyle) : Constant → Literal
  | string s => .string s
  | int32 v => .number (.ofInt v.toInt)
  | int64 v => .number (.ofInt v.toInt)
  | timestamp t => .timestamp (style.spell t)
  | intList vs => .list (vs.map intScalar)
  | stringList ss => .list (ss.map .string)
  | _ => .null

theorem constant_literal (style : TimeStyle) {k : Constant} (h : k.IsLiteral) :
    (k.literal style).constant = .ok k := by
  cases k with
  | string s => rfl
  | int32 v => exact NumberText.constant_int32 v
  | null => rfl
  | int64 v => exact NumberText.constant_int64 h
  | timestamp t =>
    show (do return Constant.timestamp (← timeOf (style.spell t)) : Except LiteralError Constant) = _
    rw [timeOf, ofQueryText?_rfc3339 (style.spells h)]
    rfl
  | intList vs => exact listConstant_ints h
  | stringList ss => exact listConstant_strings h
  | table _ | int16 _ | double _ | bool _ | foreign _ _ => exact absurd h id

end Constant

/-! ## Predicates -/

/-- The operators that a pipeline can compare with. -/
def BinaryOp.IsComparison : BinaryOp → Prop
  | equal | notEqual | lessThan | lessThanOrEqual | greaterThan | greaterThanOrEqual => True
  | _ => False

namespace Pipeline

/-- Tokens that stand for a predicate at a level. -/
def Says (level : Level) (p : Expr) (ts : List Token) : Prop :=
  ∃ c : Condition, Written level c ts ∧ c.toExpr = .ok p

namespace Says

theorem test {o : Operand} {r : Relation} {v : Literal} {k : Constant} (hnot : o.IsNot → r ≠ .domain .notInGroup)
    (hv : v.constant = .ok k) :
    Says .factor (r.toExpr o.toExpr (.constant k)) (o.token :: r.token :: v.tokens) := by
  refine ⟨_, .test hnot, ?_⟩
  rw [Condition.toExpr, hv]
  rfl

theorem not {p : Expr} {ts : List Token} (h : Says .factor p ts) :
    Says .factor (.unary .not p) (.word "not" :: ts) := by
  obtain ⟨c, hw, hp⟩ := h
  refine ⟨_, .not hw, ?_⟩
  rw [Condition.toExpr, hp]
  rfl

theorem parens {p : Expr} {ts : List Token} (h : Says .whole p ts) :
    Says .factor p (.sign '(' :: (ts ++ [.sign ')'])) := by
  obtain ⟨c, hw, hp⟩ := h
  exact ⟨c, .parens hw, hp⟩

theorem and {p q : Expr} {ts us : List Token} (hl : Says .term p ts) (hr : Says .factor q us) :
    Says .term (.binary .andAlso p q) (ts ++ .word "and" :: us) := by
  obtain ⟨c, hc, hp⟩ := hl
  obtain ⟨d, hd, hq⟩ := hr
  refine ⟨_, .and hc hd, ?_⟩
  rw [Condition.toExpr, hp, hq]
  rfl

theorem or {p q : Expr} {ts us : List Token} (hl : Says .whole p ts) (hr : Says .term q us) :
    Says .whole (.binary .orElse p q) (ts ++ .word "or" :: us) := by
  obtain ⟨c, hc, hp⟩ := hl
  obtain ⟨d, hd, hq⟩ := hr
  refine ⟨_, .or hc hd, ?_⟩
  rw [Condition.toExpr, hp, hq]
  rfl

theorem term {p : Expr} {ts : List Token} (h : Says .factor p ts) : Says .term p ts := by
  obtain ⟨c, hw, hp⟩ := h
  exact ⟨c, .factor hw, hp⟩

theorem whole {p : Expr} {ts : List Token} (h : Says .term p ts) : Says .whole p ts := by
  obtain ⟨c, hw, hp⟩ := h
  exact ⟨c, .term hw, hp⟩

/-- A factor can stand anywhere. -/
theorem anywhere {level : Level} {p : Expr} {ts : List Token} (h : Says .factor p ts) : Says level p ts := by
  cases level with
  | factor => exact h
  | term => exact h.term
  | whole => exact h.term.whole

end Says

/-! ## Queries -/

theorem applySteps_append (query : Expr) (steps steps' : List Step) :
    applySteps query (steps ++ steps') = (applySteps query steps).bind fun q => applySteps q steps' := by
  induction steps generalizing query with
  | nil => rfl
  | cons s steps ih =>
    rw [List.cons_append, applySteps, applySteps]
    rcases s.apply query with e | q
    · rfl
    · exact ih q

theorem parse_ok_iff {text : String} {e : Expr} :
    parse text = .ok e ↔ ∃ p, ofText text.toList = .ok p ∧ p.toExpr = .ok e := by
  unfold parse
  rcases ofText text.toList with err | p
  · constructor
    · intro h; cases h
    · rintro ⟨p, h, -⟩; cases h
  · rcases hp : p.toExpr with err | e'
    · simp [hp, bind, Except.bind]
    · simp [hp, bind, Except.bind]

/-- Tokens that stand for a query. -/
def SaysQuery (e : Expr) (ts : List Token) : Prop :=
  ∃ (entity : String) (steps : List Step) (us : List Token), ts = .word "from" :: .name entity :: us ∧
    StepsWritten steps us ∧ applySteps (Expr.table entity) steps = .ok e

namespace SaysQuery

theorem table (entity : String) : SaysQuery (Expr.table entity) [.word "from", .name entity] :=
  ⟨entity, [], [], rfl, .nil, rfl⟩

theorem step {source e : Expr} {s : Step} {ts us : List Token} (h : SaysQuery source ts) (hs : StepWritten s us)
    (happly : s.apply source = .ok e) : SaysQuery e (ts ++ .sign '|' :: us) := by
  obtain ⟨entity, steps, rest, rfl, hsteps, hsource⟩ := h
  refine ⟨entity, steps ++ [s], rest ++ .sign '|' :: us, rfl, ?_, ?_⟩
  · have happend := hsteps.append (.cons hs .nil)
    rwa [List.append_nil] at happend
  · rw [applySteps_append, hsource]
    show applySteps source [s] = .ok e
    rw [applySteps, happly]
    rfl

/-- Every layout of the tokens of a query is read as the query. -/
theorem parse_eq {e : Expr} {ts : List Token} {text : String} (h : SaysQuery e ts) (hl : Layout ts text.toList) :
    parse text = .ok e := by
  obtain ⟨entity, steps, us, rfl, hsteps, hsource⟩ := h
  exact parse_ok_iff.2 ⟨_, ofText_layout hsteps hl, hsource⟩

end SaysQuery

end Pipeline

end WorkItemQuery
