/-
The JSON form of an expression loses nothing: it is read back as the expression, for every kind of node, at any depth,
and for every constant that is no double. The form itself is read back from its text, as far as the reader of texts has
room for its nesting: without a bound always, with a bound exactly up to it.
-/
import WorkItemQuery.Expr.Json
import WorkItemQuery.Proofs.Json.Text
import WorkItemQuery.Proofs.Time.Text

namespace WorkItemQuery

open Number Time

/-! ## Operators and projections -/

theorem BinaryOp.ofJson?_toJson (op : BinaryOp) : ofJson? op.toJson = some op := by
  cases op <;> decide

theorem UnaryOp.ofJson?_toJson (op : UnaryOp) : ofJson? op.toJson = some op := by
  cases op <;> decide

theorem Direction.ofJson?_toJson (d : Direction) : ofJson? d.toJson = some d := by
  cases d <;> decide

theorem DomainOp.ofName?_name (op : DomainOp) : ofName? op.name = some op := by
  cases op <;> decide

theorem Json.listOf?_map {α : Type} {read : Json → Option α} {write : α → Json} (h : ∀ a, read (write a) = some a)
    (as : List α) : Json.listOf? read (.array (as.map write)) = some as := by
  show (as.map write).mapM read = _
  induction as with
  | nil => rfl
  | cons a as ih =>
    rw [List.map_cons, List.mapM_cons, h a, ih]
    rfl

theorem Json.listOf?_strings (texts : List String) : Json.listOf? Json.string? (.strings texts) = some texts :=
  @Json.listOf?_map String Json.string? Json.string (fun _ => rfl) texts

theorem Json.listOf?_int32s (values : List Int32) :
    Json.listOf? (fun j => do int32? (← j.int?)) (.array (values.map fun v => .int v.toInt)) = some values :=
  Json.listOf?_map int32?_toInt values

theorem Json.required?_object {α : Type} {name : String} {members : List (String × Json)} {j : Json}
    (h : members.lookup name = some j) (read : Json → Option α) :
    (Json.object members).required? name read = read j := by
  rw [Json.required?, Json.member?, h]
  rfl

theorem Json.Record.required?_of_lookup {α : Type} {r : Record} {name : String} {j : Json} (h : r.lookup name = some j)
    (read : Json → Option α) : r.required? name read = read j := by
  rw [required?, h]
  rfl

theorem Json.Record.optional?_of_lookup {α : Type} {r : Record} {name : String} {j : Json} (h : r.lookup name = some j)
    (fallback : α) (read : Json → Option α) : r.optional? name fallback read = read j := by
  rw [optional?, h]

theorem Json.Record.optional?_of_omitted {α : Type} {r : Record} {name : String} (h : r.lookup name = none)
    (fallback : α) (read : Json → Option α) : r.optional? name fallback read = some fallback := by
  rw [optional?, h]

/-- A list that is left out when it is empty. -/
theorem Json.Record.optional?_list {α : Type} {r : Record} {name : String} {read : Json → Option α} {write : α → Json}
    {as : List α} (hread : ∀ a, read (write a) = some a)
    (h : r.lookup name = if as.isEmpty then none else some (.array (as.map write))) :
    r.optional? name [] (Json.listOf? read) = some as := by
  cases as with
  | nil => exact optional?_of_omitted h [] _
  | cons a as =>
    rw [optional?_of_lookup h]
    exact Json.listOf?_map hread (a :: as)

theorem Projection.ofJson?_toJson (p : Projection) : ofJson? p.toJson = some p := by
  cases p with
  | all => rfl
  | fields names =>
    show (Json.listOf? Json.string? (.strings names)).map fields = _
    rw [Json.listOf?_strings]
    rfl

/-! ## Whole numbers -/

theorem Json.areWhole_map {α : Type} {write : α → Json} (h : ∀ a, (write a).IsWhole) : ∀ as : List α,
    Json.AreWhole (as.map write)
  | [] => trivial
  | a :: as => ⟨h a, Json.areWhole_map h as⟩

theorem Json.isWhole_strings (texts : List String) : (Json.strings texts).IsWhole :=
  @Json.areWhole_map String Json.string (fun _ => trivial) texts

theorem Json.isWhole_int {i : Int} (hle : -9223372036854775808 ≤ i) (hlt : i < 9223372036854775808) :
    (Json.int i).IsWhole := by
  show i.natAbs < wordLimit
  unfold wordLimit
  omega

theorem Json.isWhole_int32 (v : Int32) : (Json.int v.toInt).IsWhole := by
  have hle := v.le_toInt
  have hlt := v.toInt_lt
  exact Json.isWhole_int (by omega) (by omega)

theorem Projection.isWhole_toJson (p : Projection) : p.toJson.IsWhole := by
  cases p with
  | all => trivial
  | fields names => exact ⟨Json.isWhole_strings names, trivial⟩

/-! ## Constants -/

theorem Time.Timestamp.ofJson?_toJson (t : Timestamp) : ofJson? t.toJson = some t := by
  rw [ofJson?, toJson, Json.string?, Option.bind_eq_bind, Option.bind_some, ofText?_text]

theorem Constant.ofJson?_toJson {k : Constant} (h : ∀ d, k ≠ .double d) : ofJson? k.toJson = some k := by
  cases k with
  | table entity => rfl
  | null => rfl
  | string s => rfl
  | timestamp t =>
    show (Timestamp.ofJson? t.toJson).map timestamp = _
    rw [Timestamp.ofJson?_toJson]
    rfl
  | int16 v =>
    show (int16? v.toInt >>= fun v => some (int16 v)) = _
    rw [int16?_toInt]
    rfl
  | int32 v =>
    show (int32? v.toInt >>= fun v => some (int32 v)) = _
    rw [int32?_toInt]
    rfl
  | int64 v =>
    show (int64? v.toInt >>= fun v => some (int64 v)) = _
    rw [int64?_toInt]
    rfl
  | double d => exact absurd rfl (h d)
  | intList vs =>
    show (Json.listOf? _ (.array (vs.map fun v => .int v.toInt))).map intList = _
    rw [Json.listOf?_int32s]
    rfl
  | stringList vs =>
    show (Json.listOf? Json.string? (.strings vs)).map stringList = _
    rw [Json.listOf?_strings]
    rfl
  | bool b => rfl
  | foreign typeName text => rfl

/-- The numbers of a constant fit into 64 bits, save doubles. -/
theorem Constant.isWhole_toJson {k : Constant} (h : ∀ d, k ≠ .double d) : k.toJson.IsWhole := by
  cases k with
  | int16 v =>
    have hle := v.le_toInt
    have hlt := v.toInt_lt
    exact ⟨Json.isWhole_int (by omega) (by omega), trivial⟩
  | int32 v => exact ⟨Json.isWhole_int32 v, trivial⟩
  | int64 v => exact ⟨Json.isWhole_int v.le_toInt v.toInt_lt, trivial⟩
  | double d => exact absurd rfl (h d)
  | intList vs => exact ⟨Json.areWhole_map Json.isWhole_int32 vs, trivial⟩
  | stringList vs => exact ⟨Json.isWhole_strings vs, trivial⟩
  | null => trivial
  | string _ | timestamp _ | bool _ => exact ⟨trivial, trivial⟩
  | table _ => exact ⟨⟨trivial, trivial⟩, trivial⟩
  | foreign _ _ => exact ⟨⟨trivial, trivial, trivial⟩, trivial⟩

/-! ## Expressions -/

namespace Expr

mutual

/-- Whether an expression holds a double somewhere. -/
def holdsDouble : Expr → Bool
  | constant (.double _) => true
  | constant _ | indexer _ | parameter _ => false
  | select e _ | asOf e _ | unary _ e | member e _ | lambda _ e => holdsDouble e
  | filter e f | order e f _ | domain _ e f | binary _ e f => holdsDouble e || holdsDouble f
  | call _ arguments => anyHoldsDouble arguments

def anyHoldsDouble : List Expr → Bool
  | [] => false
  | e :: rest => holdsDouble e || anyHoldsDouble rest

end

theorem ne_double {k : Constant} (h : (constant k).holdsDouble = false) (d : Double) : k ≠ .double d := by
  rintro rfl
  cases h

/-- The expressions right inside an expression. -/
def children : Expr → List Expr
  | constant _ | indexer _ | parameter _ => []
  | select e _ | asOf e _ | unary _ e | member e _ | lambda _ e => [e]
  | filter e f | order e f _ | domain _ e f | binary _ e f => [e, f]
  | call _ arguments => arguments

theorem holdsDouble_of_mem : ∀ {es : List Expr} {e : Expr}, anyHoldsDouble es = false → e ∈ es → e.holdsDouble = false
  | e :: es, e', h, he => by
    rw [anyHoldsDouble, Bool.or_eq_false_iff] at h
    rcases List.mem_cons.1 he with rfl | he
    · exact h.1
    · exact holdsDouble_of_mem h.2 he

theorem holdsDouble_child {e c : Expr} (h : e.holdsDouble = false) (hc : c ∈ e.children) : c.holdsDouble = false := by
  cases e with
  | constant _ | indexer _ | parameter _ => cases hc
  | select e _ | asOf e _ | unary _ e | member e _ | lambda _ e => rw [List.mem_singleton.1 hc]; exact h
  | filter e f | order e f _ | domain _ e f | binary _ e f =>
    rw [holdsDouble, Bool.or_eq_false_iff] at h
    simp only [children, List.mem_cons, List.not_mem_nil, or_false] at hc
    rcases hc with rfl | rfl
    · exact h.1
    · exact h.2
  | call _ arguments => exact holdsDouble_of_mem h hc

/-! ### Depth -/

theorem depth_le_of_mem : ∀ {es : List Expr} {e : Expr}, e ∈ es → e.toJson.depth ≤ Json.depthOfItems (toJsonAll es)
  | e :: es, e', he => by
    rw [toJsonAll, Json.depthOfItems]
    rcases List.mem_cons.1 he with rfl | he
    · exact Nat.le_max_left _ _
    · exact Nat.le_trans (depth_le_of_mem he) (Nat.le_max_right _ _)

/-- What is inside an expression is less deep in JSON. -/
theorem depth_child {e c : Expr} (hc : c ∈ e.children) : c.toJson.depth < e.toJson.depth := by
  cases e with
  | constant _ | indexer _ | parameter _ => cases hc
  | select e _ | asOf e _ | unary _ e | member e _ | lambda _ e =>
    rw [List.mem_singleton.1 hc]
    simp only [toJson, Json.tagged, Json.depth, Json.depthOfMembers]
    omega
  | filter e f | order e f _ | domain _ e f | binary _ e f =>
    simp only [children, List.mem_cons, List.not_mem_nil, or_false] at hc
    simp only [toJson, Json.tagged, Json.depth, Json.depthOfMembers]
    rcases hc with rfl | rfl <;> omega
  | call method arguments =>
    have hle : c.toJson.depth ≤ Json.depthOfItems (toJsonAll arguments) := depth_le_of_mem hc
    simp only [toJson, Json.tagged, Json.depth, Json.depthOfMembers]
    omega

theorem depth_toJson_pos (e : Expr) : 0 < e.toJson.depth := by
  cases e <;> exact Nat.zero_lt_succ _

/-- Induction over what is inside an expression. -/
theorem child_induction {P : Expr → Prop} (step : ∀ e, (∀ c ∈ e.children, P c) → P e) (e : Expr) : P e :=
  step e fun c _ => child_induction step c
termination_by e.toJson.depth
decreasing_by exact depth_child ‹_›

/-! ### Reading -/

theorem mapM_toJsonAll {read : Json → Option Expr} : ∀ {es : List Expr}, (∀ e ∈ es, read e.toJson = some e) →
    (toJsonAll es).mapM read = some es
  | [], _ => rfl
  | e :: es, h => by
    rw [toJsonAll, List.mapM_cons, h e List.mem_cons_self,
      mapM_toJsonAll fun e' he => h e' (List.mem_cons_of_mem e he)]
    rfl

/-- One level: an expression is read back if what is inside it is. -/
theorem ofJsonWithin_step {e : Expr} {n : Nat} (hdouble : e.holdsDouble = false)
    (h : ∀ c ∈ e.children, ofJsonWithin n c.toJson = some c) : ofJsonWithin (n + 1) e.toJson = some e := by
  cases e with
  | select source projection =>
    have hsource := h source List.mem_cons_self
    rw [toJson]
    show (ofJsonWithin n source.toJson >>= fun s => Projection.ofJson? projection.toJson >>= fun p =>
      some (select s p)) = _
    rw [hsource, Projection.ofJson?_toJson]
    rfl
  | filter source predicate =>
    have hsource := h source List.mem_cons_self
    have hpredicate := h predicate (List.mem_cons_of_mem _ List.mem_cons_self)
    rw [toJson]
    show (ofJsonWithin n source.toJson >>= fun s => ofJsonWithin n predicate.toJson >>= fun p =>
      some (filter s p)) = _
    rw [hsource, hpredicate]
    rfl
  | order source selector direction =>
    have hsource := h source List.mem_cons_self
    have hselector := h selector (List.mem_cons_of_mem _ List.mem_cons_self)
    rw [toJson]
    show (ofJsonWithin n source.toJson >>= fun s => ofJsonWithin n selector.toJson >>= fun k =>
      Direction.ofJson? direction.toJson >>= fun d => some (order s k d)) = _
    rw [hsource, hselector, Direction.ofJson?_toJson]
    rfl
  | asOf source time =>
    have hsource := h source List.mem_cons_self
    -- the reader of instants stays closed: to unfold it here would run it
    have htime : Json.required? "timestamp" Timestamp.ofJson?
        (.object [("source", source.toJson), ("timestamp", time.toJson)]) = some time := by
      rw [Json.required?_object rfl, Timestamp.ofJson?_toJson]
    rw [toJson]
    show (ofJsonWithin n source.toJson >>= fun s => Json.required? "timestamp" Timestamp.ofJson? _ >>= fun t =>
      some (asOf s t)) = _
    rw [hsource, htime]
    rfl
  | domain op subject target =>
    have hsubject := h subject List.mem_cons_self
    have htarget := h target (List.mem_cons_of_mem _ List.mem_cons_self)
    -- the name of the operator is the name of the case, and no other case has it
    have hcase : ofJsonWithin (n + 1) (domain op subject target).toJson =
        (DomainOp.ofName? op.name >>= fun o => ofJsonWithin n subject.toJson >>= fun s =>
          ofJsonWithin n target.toJson >>= fun t => some (domain o s t)) := by
      rw [toJson]
      cases op <;> rfl
    rw [hcase, hsubject, htarget, DomainOp.ofName?_name]
    rfl
  | binary op left right =>
    have hleft := h left List.mem_cons_self
    have hright := h right (List.mem_cons_of_mem _ List.mem_cons_self)
    rw [toJson]
    show (BinaryOp.ofJson? op.toJson >>= fun o => ofJsonWithin n left.toJson >>= fun l =>
      ofJsonWithin n right.toJson >>= fun r => some (binary o l r)) = _
    rw [hleft, hright, BinaryOp.ofJson?_toJson]
    rfl
  | unary op operand =>
    have hoperand := h operand List.mem_cons_self
    rw [toJson]
    show (UnaryOp.ofJson? op.toJson >>= fun o => ofJsonWithin n operand.toJson >>= fun e => some (unary o e)) = _
    rw [hoperand, UnaryOp.ofJson?_toJson]
    rfl
  | member target name =>
    have htarget := h target List.mem_cons_self
    rw [toJson]
    show (ofJsonWithin n target.toJson >>= fun t => some (member t name)) = _
    rw [htarget]
    rfl
  | indexer key => rw [toJson]; rfl
  | constant value =>
    rw [toJson]
    show (Constant.ofJson? value.toJson).map constant = _
    rw [Constant.ofJson?_toJson (ne_double hdouble)]
    rfl
  | parameter name => rw [toJson]; rfl
  | lambda name body =>
    have hbody := h body List.mem_cons_self
    rw [toJson]
    show (ofJsonWithin n body.toJson >>= fun b => some (lambda name b)) = _
    rw [hbody]
    rfl
  | call method arguments =>
    have harguments : (toJsonAll arguments).mapM (ofJsonWithin n) = some arguments := mapM_toJsonAll h
    rw [toJson]
    show ((toJsonAll arguments).mapM (ofJsonWithin n) >>= fun es => some (call method es)) = _
    rw [harguments]
    rfl

theorem ofJsonWithin_toJson (e : Expr) : ∀ n, e.holdsDouble = false → e.toJson.depth ≤ n →
    ofJsonWithin n e.toJson = some e := by
  induction e using child_induction with
  | step e ih =>
    intro n hdouble hn
    -- each level of the expression takes a level of JSON, so the steps last to the leaves
    cases n with
    | zero =>
      have hpos := depth_toJson_pos e
      omega
    | succ n =>
      refine ofJsonWithin_step hdouble fun c hc => ih c hc n (holdsDouble_child hdouble hc) ?_
      have hlt := depth_child hc
      omega

/-! ### Text -/

theorem areWhole_toJsonAll : ∀ {es : List Expr}, (∀ e ∈ es, e.toJson.IsWhole) → Json.AreWhole (toJsonAll es)
  | [], _ => trivial
  | e :: _, h => ⟨h e List.mem_cons_self, areWhole_toJsonAll fun e' he => h e' (List.mem_cons_of_mem e he)⟩

theorem isWhole_toJson (e : Expr) : e.holdsDouble = false → e.toJson.IsWhole := by
  induction e using child_induction with
  | step e ih =>
    intro hdouble
    have hchildren : ∀ c ∈ e.children, c.toJson.IsWhole := fun c hc => ih c hc (holdsDouble_child hdouble hc)
    cases e with
    | select e p => exact ⟨⟨hchildren e List.mem_cons_self, p.isWhole_toJson, trivial⟩, trivial⟩
    | asOf e _ | member e _ => exact ⟨⟨hchildren e List.mem_cons_self, trivial, trivial⟩, trivial⟩
    | unary _ e | lambda _ e => exact ⟨⟨trivial, hchildren e List.mem_cons_self, trivial⟩, trivial⟩
    | filter e f | domain _ e f =>
      exact ⟨⟨hchildren e List.mem_cons_self, hchildren f (List.mem_cons_of_mem e List.mem_cons_self), trivial⟩,
        trivial⟩
    | order e f _ =>
      exact ⟨⟨hchildren e List.mem_cons_self, hchildren f (List.mem_cons_of_mem e List.mem_cons_self), trivial,
        trivial⟩, trivial⟩
    | binary _ e f =>
      exact ⟨⟨trivial, hchildren e List.mem_cons_self, hchildren f (List.mem_cons_of_mem e List.mem_cons_self),
        trivial⟩, trivial⟩
    | indexer _ => exact ⟨⟨trivial, trivial⟩, trivial⟩
    | parameter _ => exact ⟨trivial, trivial⟩
    | constant k => exact ⟨Constant.isWhole_toJson (ne_double hdouble), trivial⟩
    | call _ arguments => exact ⟨⟨trivial, areWhole_toJsonAll hchildren, trivial⟩, trivial⟩

/-! ### Round trips -/

theorem ofJson?_toJson {e : Expr} (h : e.holdsDouble = false) : ofJson? e.toJson = some e :=
  ofJsonWithin_toJson e e.toJson.depth h (Nat.le_refl _)

theorem ofJson?_parseWithin? {e : Expr} (h : e.holdsDouble = false) (limit : Nat) :
    (Json.parseWithin? (some limit) e.toJson.text).bind ofJson? =
      if e.toJson.nesting ≤ limit then some e else none := by
  rw [Json.parseWithin?_text (isWhole_toJson e h)]
  split
  · exact ofJson?_toJson h
  · rfl

/-- An expression without doubles is read back from its JSON form, however deep it is. From the text of the form it is
read back by a reader without a bound on the nesting, and by a reader with a bound exactly if the form is nested within
it. -/
theorem json_roundTrip {e : Expr} (h : e.holdsDouble = false) :
    ofJson? e.toJson = some e ∧ (Json.parse? e.toJson.text).bind ofJson? = some e ∧
      ∀ limit, (Json.parseWithin? (some limit) e.toJson.text).bind ofJson? =
        if e.toJson.nesting ≤ limit then some e else none := by
  have hvalue := ofJson?_toJson h
  have htext : Json.parse? e.toJson.text = some e.toJson := Json.parse?_text (isWhole_toJson e h)
  refine ⟨hvalue, ?_, ofJson?_parseWithin? h⟩
  rw [htext]
  exact hvalue

/-- The first and the last number of 64 bits, a leap second before year zero, controls in strings, and a case of each
shape. The usual bound leaves room for it. -/
theorem json_roundTrip_ordered :
    let time : Timestamp := ⟨⟨-262143, 2, 28, by decide⟩, 23, 59, 60, 120000003⟩
    let values := [Constant.int16 (-32768), .int64 (-9223372036854775808), .int64 9223372036854775807,
      .intList [-1, 0], .stringList ["", "\x01\"\\"], .null, .bool true, .foreign "Guid" "a\nb"]
    let e := order (asOf (filter (table "Task") (lambda "it" (domain .notInGroup (member (parameter "it") "Title")
      (call "Any" (values.map constant))))) time) (unary .typeAs (indexer "Rank")) .unspecified
    e.holdsDouble = false ∧ ofJson? e.toJson = some e ∧ (Json.parse? e.toJson.text).bind ofJson? = some e ∧
      (Json.parseWithin? (some Json.nestingLimit) e.toJson.text).bind ofJson? = some e := by
  intro time values e
  have hdouble : e.holdsDouble = false := rfl
  obtain ⟨hvalue, htext, hlimit⟩ := json_roundTrip hdouble
  exact ⟨hdouble, hvalue, htext, (hlimit Json.nestingLimit).trans (if_pos (by decide))⟩

/-! ### Negations -/

theorem holdsDouble_negations (n : Nat) (e : Expr) : (Nat.repeat (unary .not) n e).holdsDouble = e.holdsDouble := by
  induction n with
  | zero => rfl
  | succ n ih => exact ih

/-- Each negation in front of an expression puts two objects around it. -/
theorem nesting_negations (n : Nat) (e : Expr) :
    (Nat.repeat (unary .not) n e).toJson.nesting = e.toJson.nesting + 2 * n := by
  induction n with
  | zero => rfl
  | succ n ih =>
    show max (max 0 (max (Nat.repeat (unary .not) n e).toJson.nesting 0) + 1) 0 + 1 = _
    rw [ih]
    omega

/-- The form of a number behind negations is read back whatever their count is. The text of the form is read back within
the usual bound only up to sixty-two of them: one more, and an object is too deep. -/
theorem ofJson?_negations (n : Nat) (i : Int32) :
    let e := Nat.repeat (unary .not) n (constant (.int32 i))
    ofJson? e.toJson = some e ∧
      (Json.parseWithin? (some Json.nestingLimit) e.toJson.text).bind ofJson? = if n ≤ 62 then some e else none := by
  intro e
  have hdouble : e.holdsDouble = false := holdsDouble_negations n (constant (.int32 i))
  have hnesting : e.toJson.nesting = 2 + 2 * n := nesting_negations n (constant (.int32 i))
  have hlimit : e.toJson.nesting ≤ Json.nestingLimit ↔ n ≤ 62 := by
    rw [hnesting, Json.nestingLimit]
    omega
  refine ⟨ofJson?_toJson hdouble, (ofJson?_parseWithin? hdouble Json.nestingLimit).trans ?_⟩
  simp only [hlimit]

end Expr

end WorkItemQuery
