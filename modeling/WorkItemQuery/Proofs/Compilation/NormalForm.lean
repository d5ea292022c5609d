/-
The fragments of a filter determine it. A filter has a normal form, in which fields stand under their
identifiers, wrappers are gone, and what statements write alike is the same. The walk over a filter adds
the fragments of its normal form to the pending clause, and two normal forms with the same fragments are
equal: parentheses are written around every operator with two sides, so no rule of precedence is needed to
read the fragments back, and `NOT`, which has none, stands where nothing else can.
-/
import WorkItemQuery.Proofs.Compilation.Groups

namespace WorkItemQuery.Compilation

open Number Time Walk

/-! ## Normal forms -/

/-- The operators that statements write between two sides. -/
inductive Joint where
  | and
  | or
  | equal
  | notEqual
  | lessThan
  | lessThanOrEqual
  | greaterThan
  | greaterThanOrEqual
  | domain (op : DomainOp)
deriving DecidableEq

/-- A number by its text. -/
@[ext] structure Numeral where
  text : String
  solid : ' ' ∉ text.toList
deriving DecidableEq

/-- The constants of filters, as statements tell them apart. -/
inductive Value where
  | string (text : String)
  | instant (time : Timestamp)
  | number (numeral : Numeral)
  | numbers (values : List Int32)
  | strings (values : List String)
deriving DecidableEq

/-- A filter in normal form. -/
inductive Form where
  | field (identifier : String)
  | value (value : Value)
  | not (operand : Form)
  | group (joint : Joint) (left right : Form)
deriving DecidableEq

namespace Joint

/-- The operator that statements write for a binary operator, if there is one. -/
def ofBinary? : BinaryOp → Option Joint
  | .and | .andAlso => some and
  | .or | .orElse => some or
  | .equal => some equal
  | .notEqual => some notEqual
  | .lessThan => some lessThan
  | .lessThanOrEqual => some lessThanOrEqual
  | .greaterThan => some greaterThan
  | .greaterThanOrEqual => some greaterThanOrEqual
  | .add | .subtract | .multiply | .divide | .modulo | .coalesce => none

def text : Joint → String
  | and => " AND "
  | or => " OR "
  | equal => " = "
  | notEqual => " <> "
  | lessThan => " < "
  | lessThanOrEqual => " <= "
  | greaterThan => " > "
  | greaterThanOrEqual => " >= "
  | domain op => domainText op

/-- All operators of statements. -/
def all : List Joint :=
  [and, or, equal, notEqual, lessThan, lessThanOrEqual, greaterThan, greaterThanOrEqual, domain .isIn,
    domain .under, domain .wasEver, domain .contains, domain .inGroup, domain .notInGroup]

theorem mem_all : ∀ j : Joint, j ∈ all
  | and | or | equal | notEqual | lessThan | lessThanOrEqual | greaterThan | greaterThanOrEqual => by decide
  | domain op => by cases op <;> decide

/-- No two operators are written alike. -/
theorem text_injective {j k : Joint} (h : j.text = k.text) : j = k := by
  have hall : ∀ j ∈ all, ∀ k ∈ all, j.text = k.text → j = k := by decide
  exact hall j (mem_all j) k (mem_all k) h

theorem ofBinary?_of_text {op : BinaryOp} {text : String} (h : binaryText? op = some text) :
    ∃ j, ofBinary? op = some j ∧ j.text = text := by
  cases op <;> cases h <;> exact ⟨_, rfl, rfl⟩

end Joint

theorem blank_not_mem_intText (i : Int) : ' ' ∉ (intText i).toList := by
  unfold intText
  split <;> simp [digit_ne_blank]

namespace Numeral

def ofInt (i : Int) : Numeral := ⟨intText i, blank_not_mem_intText i⟩

/-- A finite double is written without blanks. -/
def ofDouble (d : Double) (h : d.isFinite = true) : Numeral :=
  ⟨d.text, by
    rw [Double.text, if_pos h]
    exact blank_not_mem_positional d.shortest⟩

end Numeral

namespace Value

/-- The value of a constant; tables, and constants without a form, have none. -/
def ofConstant? : Constant → Option Value
  | .null => some (string "")
  | .string text => some (string text)
  | .timestamp time => some (instant time)
  | .int16 v => some (number (.ofInt v.toInt))
  | .int32 v => some (number (.ofInt v.toInt))
  | .int64 v => some (number (.ofInt v.toInt))
  | .double v => if h : v.isFinite = true then some (number (.ofDouble v h)) else none
  | .intList vs => if vs.isEmpty then none else some (numbers vs)
  | .stringList vs => if vs.isEmpty then none else some (strings vs)
  | .table _ | .bool _ | .foreign _ _ => none

def fragment : Value → Fragment
  | string text => .constant text
  | instant time => .timestamp time
  | number n => .literal n.text
  | numbers vs => .numberList vs
  | strings vs => .stringList vs

theorem ofConstant?_of_fragment {k : Constant} {f : Fragment} (h : constantFragment? k = some f) :
    ∃ v, ofConstant? k = some v ∧ v.fragment = f := by
  cases k with
  | double d =>
    rw [constantFragment?] at h
    split at h <;> cases h
    rename_i hfinite
    exact ⟨_, dif_pos hfinite, rfl⟩
  | intList vs =>
    rw [constantFragment?] at h
    split at h <;> cases h
    rename_i hne
    exact ⟨_, if_neg hne, rfl⟩
  | stringList vs =>
    rw [constantFragment?] at h
    split at h <;> cases h
    rename_i hne
    exact ⟨_, if_neg hne, rfl⟩
  | null | string _ | timestamp _ | int16 _ | int32 _ | int64 _ => cases h; exact ⟨_, rfl, rfl⟩
  | table _ | bool _ | foreign _ _ => cases h

theorem fragment_injective {v w : Value} (h : v.fragment = w.fragment) : v = w := by
  cases v with
  | number n =>
    cases w with
    | number m => exact congrArg number (Numeral.ext (Fragment.literal.inj h))
    | _ => cases h
  | _ => cases w <;> cases h; rfl

/-- No number is written as the word of a negation. -/
theorem fragment_ne_not (v : Value) : v.fragment ≠ .literal " NOT " := by
  intro h
  cases v with
  | number n =>
    have htext : n.text = " NOT " := Fragment.literal.inj h
    exact n.solid (by rw [htext]; decide)
  | _ => cases h

end Value

namespace Form

/-- How statements write a filter. -/
def fragments : Form → List Fragment
  | field identifier => [.field identifier]
  | value v => [v.fragment]
  | not operand => .literal " NOT " :: operand.fragments
  | group joint left right =>
    .groupOpen :: (left.fragments ++ .literal joint.text :: (right.fragments ++ [.groupClose]))

/-- The fragments of a filter end where they must, so two filters that start a list of fragments are equal. -/
theorem fragments_append_inj : ∀ {n m : Form} {r r' : List Fragment}, n.fragments ++ r = m.fragments ++ r' →
    n = m ∧ r = r' := by
  intro n
  induction n with
  | field identifier =>
    intro m r r' h
    cases m with
    | field identifier' => cases h; exact ⟨rfl, rfl⟩
    | value v => cases v <;> cases h
    | not _ | group _ _ _ => cases h
  | value v =>
    intro m r r' h
    cases m with
    | value v' =>
      obtain ⟨hv, hr⟩ := List.cons.inj h
      exact ⟨congrArg value (Value.fragment_injective hv), hr⟩
    | not operand =>
      obtain ⟨hv, -⟩ := List.cons.inj h
      exact absurd hv (Value.fragment_ne_not v)
    | field _ | group _ _ _ => cases v <;> cases h
  | not operand ih =>
    intro m r r' h
    cases m with
    | not operand' =>
      obtain ⟨-, h⟩ := List.cons.inj h
      obtain ⟨rfl, hr⟩ := ih h
      exact ⟨rfl, hr⟩
    | value v =>
      obtain ⟨hv, -⟩ := List.cons.inj h
      exact absurd hv.symm (Value.fragment_ne_not v)
    | field _ | group _ _ _ => cases h
  | group joint left right ihl ihr =>
    intro m r r' h
    cases m with
    | group joint' left' right' =>
      simp only [fragments, List.cons_append, List.append_assoc, List.cons.injEq, true_and, List.nil_append] at h
      obtain ⟨rfl, hmid⟩ := ihl h
      obtain ⟨hjoint, hlast⟩ := List.cons.inj hmid
      obtain ⟨rfl, hclose⟩ := ihr hlast
      obtain ⟨-, hr⟩ := List.cons.inj hclose
      exact ⟨by rw [Joint.text_injective (Fragment.literal.inj hjoint)], hr⟩
    | value v => cases v <;> cases h
    | field _ | not _ => cases h

theorem fragments_injective {n m : Form} (h : n.fragments = m.fragments) : n = m :=
  (fragments_append_inj (r := []) (by rw [h])).1

end Form

/-! ## The normal form of an expression -/

variable {σ : Type}

/-- The identifier of a field in a context, where the entity may be unknown. -/
def identifier (mapper : FieldMapper σ) (context : Option String) (property : String) : StateT σ Option String :=
  fun fields =>
    match context with
    | none => none
    | some entity =>
      match mapper.resolve entity property fields with
      | (.ok field, fields) => some (field, fields)
      | (.error _, _) => none

/-- The normal form of two sides with an operator between them. -/
def groupForm (left : StateT σ Option Form) (joint : Option Joint) (right : StateT σ Option Form) :
    StateT σ Option Form := do
  let l ← left
  let j ← liftM joint
  let r ← right
  return .group j l r

/-- The normal form of a filter. The field mapper is asked for the fields from left to right. -/
def form (mapper : FieldMapper σ) (context : Option String) : Expr → StateT σ Option Form
  | .binary op left right => groupForm (form mapper context left) (Joint.ofBinary? op) (form mapper context right)
  | .domain op left right => groupForm (form mapper context left) (some (.domain op)) (form mapper context right)
  | .unary .not operand => do
    return .not (← form mapper context operand)
  | .unary .typeAs operand => form mapper context operand
  | .lambda _ body => form mapper context body
  | .member target name =>
    if isItem target then do
      return .field (← identifier mapper context name)
    else if isProperty target && name == valueMember then form mapper context target
    else failure
  | .indexer key => do
    return .field (← identifier mapper context key)
  | .constant value => do
    return .value (← liftM (Value.ofConstant? value))
  | _ => failure

/-- The expressions that filters are built of. -/
inductive IsFilter : Expr → Prop
  | binary {op : BinaryOp} {left right : Expr} : IsFilter left → IsFilter right → IsFilter (.binary op left right)
  | domain {op : DomainOp} {left right : Expr} : IsFilter left → IsFilter right → IsFilter (.domain op left right)
  | not {operand : Expr} : IsFilter operand → IsFilter (.unary .not operand)
  | typeAs {operand : Expr} : IsFilter operand → IsFilter (.unary .typeAs operand)
  | lambda {name : String} {body : Expr} : IsFilter body → IsFilter (.lambda name body)
  | field {target : Expr} {name : String} : isItem target = true → IsFilter (.member target name)
  | member {target : Expr} {name : String} : IsFilter target → IsFilter (.member target name)
  | indexer {key : String} : IsFilter (.indexer key)
  | constant {value : Constant} : (∀ entity, value ≠ .table entity) → IsFilter (.constant value)

/-! ## What the walk adds -/

/-- The state with more pending fragments and another state of the field mapper. -/
def State.adding (s : State σ) (fields : σ) (parts : List Fragment) : State σ :=
  { s with fields, pending := s.pending ++ parts }

theorem bind_some {α β : Type} {m : StateT σ Option α} {f : α → StateT σ Option β} {s s' : σ} {a : α}
    (h : m s = some (a, s')) : (m >>= f) s = f a s' := by
  show (m s).bind _ = _
  rw [h]
  rfl

section Walks

variable {mapper : FieldMapper σ} {root : Option String}

theorem form_reads {e : Expr} {key entity name : String} {context : Option String} {fields after : σ} (he : Reads e key)
    (hcontext : context = some entity) (h : mapper.resolve entity key fields = (.ok name, after)) :
    form mapper context e fields = some (.field name, after) := by
  have hidentifier : identifier mapper context key fields = some (name, after) := by
    unfold identifier
    rw [hcontext]
    simp only [h]
  cases he with
  | member hitem =>
    rw [form, if_pos hitem]
    exact bind_some hidentifier
  | indexer => exact bind_some hidentifier

theorem form_constant {k : Constant} {v : Value} (h : Value.ofConstant? k = some v) (context : Option String)
    (fields : σ) : form mapper context (.constant k) fields = some (.value v, fields) := by
  have hlift : (liftM (Value.ofConstant? k) : StateT σ Option Value) fields = some (v, fields) := by
    rw [h]; rfl
  exact bind_some hlift

theorem groupForm_eq {left right : StateT σ Option Form} {j : Joint} {n m : Form} {fields mid after : σ}
    (hn : left fields = some (n, mid)) (hm : right mid = some (m, after)) :
    groupForm left (some j) right fields = some (.group j n m, after) := by
  have hjoint : (liftM (some j) : StateT σ Option Joint) mid = some (j, mid) := rfl
  exact (bind_some hn).trans ((bind_some hjoint).trans (bind_some hm))

/-- The sides and the operator of a filter, which have a form each. -/
theorem form_group (mapper : FieldMapper σ) {e left right : Expr} {text : String} (hjoins : Joins e left text right)
    (he : IsFilter e) :
    IsFilter left ∧ IsFilter right ∧ ∃ j : Joint, j.text = text ∧ ∀ context : Option String,
      form mapper context e = groupForm (form mapper context left) (some j) (form mapper context right) := by
  cases hjoins with
  | domain =>
    cases he with
    | domain hleft hright => exact ⟨hleft, hright, .domain _, rfl, fun _ => rfl⟩
  | binary hop =>
    cases he with
    | binary hleft hright =>
      obtain ⟨j, hj, htext⟩ := Joint.ofBinary?_of_text hop
      exact ⟨hleft, hright, j, htext, fun context => by rw [form, hj]⟩

/-- The walk over a filter adds the fragments of its normal form to the pending clause, and does nothing else. -/
theorem addsForm_of_visits {e : Expr} {s s' : State σ} (h : Visits mapper root e s s') (he : IsFilter e) :
    ∃ n fields, form mapper (s.context root) e s.fields = some (n, fields) ∧ s' = s.adding fields n.fragments := by
  induction h with
  | @group e left right text s mid s' hjoins _ _ ihl ihr =>
    obtain ⟨hleft, hright, j, rfl, hform⟩ := form_group mapper hjoins he
    obtain ⟨n, between, hn, rfl⟩ := ihl hleft
    obtain ⟨m, fields, hm, rfl⟩ := ihr hright
    -- neither side changes the statement, so both are looked up in one context
    exact ⟨.group j n m, fields, by rw [hform]; exact groupForm_eq hn hm,
      by simp [State.adding, State.push, Form.fragments]⟩
  | not _ ih =>
    cases he with
    | not hoperand =>
      obtain ⟨n, fields, hn, rfl⟩ := ih hoperand
      exact ⟨.not n, fields, bind_some hn, by simp [State.adding, State.push, Form.fragments]⟩
  | typeAs _ ih =>
    cases he with
    | typeAs hoperand => exact ih hoperand
  | lambda _ ih =>
    cases he with
    | lambda hbody => exact ih hbody
  | value hitem hvalue _ ih =>
    simp only [form, hitem, hvalue, Bool.false_eq_true, if_false, if_true]
    cases he with
    | field htarget => rw [htarget] at hitem; cases hitem
    | member htarget => exact ih htarget
  | field hreads hcontext hfound => exact ⟨.field _, _, form_reads hreads hcontext hfound, rfl⟩
  | @constant value f s hf =>
    obtain ⟨v, hv, rfl⟩ := Value.ofConstant?_of_fragment hf
    exact ⟨.value v, s.fields, form_constant hv _ _, rfl⟩
  | table =>
    cases he with
    | constant htable => exact absurd rfl (htable _)
  | select _ _ | filter _ _ _ _ | order _ _ _ _ _ | asOf _ _ | parameter | callNil | callCons _ _ _ _ => cases he

end Walks

end WorkItemQuery.Compilation

namespace WorkItemQuery

open Compilation

/-- Two filters that are walked over, each from a state with no pending clause, add the same fragments if and only
if they have the same normal form. -/
theorem pending_eq_iff_form_eq {σ : Type} {mapper : FieldMapper σ} {root : Option String} {e₁ e₂ : Expr}
    (he₁ : IsFilter e₁) (he₂ : IsFilter e₂) {s₁ s₂ t₁ t₂ : State σ} (hs₁ : s₁.pending = []) (hs₂ : s₂.pending = [])
    (h₁ : visit mapper root e₁ s₁ = (.ok (), t₁)) (h₂ : visit mapper root e₂ s₂ = (.ok (), t₂)) :
    ∃ n₁ n₂, form mapper (s₁.context root) e₁ s₁.fields = some (n₁, t₁.fields) ∧
      form mapper (s₂.context root) e₂ s₂.fields = some (n₂, t₂.fields) ∧ (t₁.pending = t₂.pending ↔ n₁ = n₂) := by
  obtain ⟨n₁, fields₁, hn₁, rfl⟩ := addsForm_of_visits (visits_of_visit e₁ h₁) he₁
  obtain ⟨n₂, fields₂, hn₂, rfl⟩ := addsForm_of_visits (visits_of_visit e₂ h₂) he₂
  have hpending₁ : (s₁.adding fields₁ n₁.fragments).pending = n₁.fragments := by
    rw [State.adding, hs₁, List.nil_append]
  have hpending₂ : (s₂.adding fields₂ n₂.fragments).pending = n₂.fragments := by
    rw [State.adding, hs₂, List.nil_append]
  refine ⟨n₁, n₂, hn₁, hn₂, ?_⟩
  rw [hpending₁, hpending₂]
  constructor
  · exact Form.fragments_injective
  · rintro rfl; rfl

/-- Wrappers, the kind of a conjunction, the width of a number and null as an empty string leave no trace. -/
theorem pending_eq_iff_form_eq_wrapped :
    let mapper : FieldMapper Unit := ⟨fun _ property s => (.ok property, s), fun _ _ => [], fun _ _ => []⟩
    let s : State Unit := { fields := () }
    let e₁ := Expr.binary .and (.unary .not (.binary .equal (Expr.field "State") (.constant .null)))
      (.binary .lessThan (.member (.unary .typeAs (Expr.field "Rank")) "Value") (.constant (.int16 5)))
    let e₂ := Expr.lambda "x" (.binary .andAlso
      (.unary .not (.binary .equal (.indexer "State") (.constant (.string ""))))
      (.binary .lessThan (.indexer "Rank") (.constant (.int64 5))))
    ∃ t₁ t₂, visit mapper (some "Bug") e₁ s = (.ok (), t₁) ∧ visit mapper (some "Bug") e₂ s = (.ok (), t₂) ∧
      t₁.pending = t₂.pending ∧ form mapper (some "Bug") e₁ () = form mapper (some "Bug") e₂ () := by
  intro mapper s e₁ e₂
  have he₁ : IsFilter e₁ :=
    .binary (.not (.binary (.field rfl) (.constant (by simp))))
      (.binary (.member (.typeAs (.field rfl))) (.constant (by simp)))
  have he₂ : IsFilter e₂ :=
    .lambda (.binary (.not (.binary .indexer (.constant (by simp)))) (.binary .indexer (.constant (by simp))))
  have h₁ : visit mapper (some "Bug") e₁ s = (.ok (), (visit mapper (some "Bug") e₁ s).2) := rfl
  have h₂ : visit mapper (some "Bug") e₂ s = (.ok (), (visit mapper (some "Bug") e₂ s).2) := rfl
  obtain ⟨n₁, n₂, hn₁, hn₂, hiff⟩ := pending_eq_iff_form_eq he₁ he₂ rfl rfl h₁ h₂
  obtain rfl := hiff.1 rfl
  exact ⟨_, _, h₁, h₂, rfl, hn₁.trans hn₂.symm⟩

end WorkItemQuery
